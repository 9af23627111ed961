import Mathlib
import Metastring.Proofs.Composition
import Metastring.Proofs.Listing
import Metastring.Proofs.OutlineReading

/-!
# Member trees can be read in one way only

A member tree is a list of lines.  Which lines belong to a nested message is
told by no bracket, but by the number of members in the line that opens it and
by the kind of the member in front.  Type names may hold anything but a line
break, so the line of a message has to be read from its end; the line of a
member is read from its end down to the kind, and the name ends where the mark
of a container begins.

So the tree of a descriptor shows its mangled names, its members in order, and
of each member the name, the kind and the container.  This is more than a
metastring shows: leaves with the same code have different labels, and a
sequence without a bound has a mark of its own.
-/

namespace Metastring

section Resemblance

mutual

/-- Two descriptors are shown alike: their mangled names and their members
agree. -/
inductive Descriptor.Resembles : Descriptor → Descriptor → Prop
  | mk {type type' : ScopedName} (mangled_eq : type.mangled = type'.mangled)
      {members members' : List (Member Kind Descriptor)}
      (membersResemble : MembersResemble members members') :
      Descriptor.Resembles (.mk ⟨type, members⟩) (.mk ⟨type', members'⟩)

/-- Members are shown alike one by one. -/
inductive MembersResemble :
    List (Member Kind Descriptor) → List (Member Kind Descriptor) → Prop
  | nil : MembersResemble [] []
  | cons {member member' : Member Kind Descriptor}
      {rest rest' : List (Member Kind Descriptor)}
      (first : MemberResembles member member')
      (others : MembersResemble rest rest') :
      MembersResemble (member :: rest) (member' :: rest')

/-- Two members are shown alike: they have the same name, kind and container,
and members of kind message nest descriptors that are shown alike. -/
inductive MemberResembles :
    Member Kind Descriptor → Member Kind Descriptor → Prop
  | plain (name : String) {kind : Kind} (notMessage : kind ≠ .message)
      {shape shape' : Shape} (repeats : shape.container = shape'.container)
      (nested nested' : Option Descriptor) :
      MemberResembles ⟨name, kind, shape, nested⟩ ⟨name, kind, shape', nested'⟩
  | missing (name : String) {shape shape' : Shape}
      (repeats : shape.container = shape'.container) :
      MemberResembles ⟨name, .message, shape, none⟩
        ⟨name, .message, shape', none⟩
  | nesting (name : String) {shape shape' : Shape}
      (repeats : shape.container = shape'.container)
      {nested nested' : Descriptor} (resembles : nested.Resembles nested') :
      MemberResembles ⟨name, .message, shape, some nested⟩
        ⟨name, .message, shape', some nested'⟩

end

theorem memberResembles_iff (member member' : Member Kind Descriptor) :
    MemberResembles member member' ↔
      Member.Alike Descriptor.Resembles member member' := by
  constructor
  · intro resembles
    cases resembles with
    | plain name notMessage repeats =>
        exact ⟨rfl, rfl, repeats, fun isMessage => absurd isMessage notMessage⟩
    | missing name repeats => exact ⟨rfl, rfl, repeats, fun _ => .none⟩
    | nesting name repeats resembles =>
        exact ⟨rfl, rfl, repeats, fun _ => .some resembles⟩
  · intro alike
    obtain ⟨name, kind, shape, nested⟩ := member
    obtain ⟨name', kind', shape', nested'⟩ := member'
    obtain ⟨sameName, sameKind, repeats, nestedRel⟩ := alike
    obtain rfl : name = name' := sameName
    obtain rfl : kind = kind' := sameKind
    by_cases isMessage : kind = .message
    · obtain rfl := isMessage
      cases nestedRel rfl with
      | none => exact .missing name repeats
      | some resembles => exact .nesting name repeats resembles
    · exact .plain name isMessage repeats nested nested'

theorem membersResemble_iff (members members' : List (Member Kind Descriptor)) :
    MembersResemble members members' ↔
      List.Forall₂ (Member.Alike Descriptor.Resembles) members members' := by
  induction members generalizing members' with
  | nil =>
      rw [List.forall₂_nil_left_iff]
      constructor
      · rintro ⟨⟩
        rfl
      · rintro rfl
        exact .nil
  | cons member members ih =>
      rw [List.forall₂_cons_left_iff]
      constructor
      · rintro (_ | ⟨first, others⟩)
        exact ⟨_, _, (memberResembles_iff _ _).mp first, (ih _).mp others, rfl⟩
      · rintro ⟨member', rest, first, others, rfl⟩
        exact .cons ((memberResembles_iff _ _).mpr first) ((ih _).mpr others)

theorem Descriptor.resembles_iff (descriptor descriptor' : Descriptor) :
    descriptor.Resembles descriptor' ↔
      descriptor.layout.type.mangled = descriptor'.layout.type.mangled ∧
        List.Forall₂ (Member.Alike Descriptor.Resembles)
          descriptor.layout.members descriptor'.layout.members := by
  obtain ⟨⟨type, members⟩⟩ := descriptor
  obtain ⟨⟨type', members'⟩⟩ := descriptor'
  simp only [layout, ← membersResemble_iff]
  constructor
  · rintro ⟨sameName, membersResemble⟩
    exact ⟨sameName, membersResemble⟩
  · rintro ⟨sameName, membersResemble⟩
    exact .mk sameName membersResemble

end Resemblance

section Traceability

/-- The name of a member can be told from the mark behind it and from the line
around it. -/
def NameTraceable (name : String) : Prop :=
  '\n' ∉ name.toList ∧ '[' ∉ name.toList ∧ '<' ∉ name.toList

/-- The names in one level of a message type break no line, and those of the
members begin no mark. -/
structure Layout.Traceable (layout : Layout Kind Descriptor) : Prop where
  type_clean :
    '\n' ∉ layout.type.scope.toList ∧ '\n' ∉ layout.type.name.toList
  names_traceable : ∀ member ∈ layout.members, NameTraceable member.name

/-- The names in a descriptor and in what is nested in it break no line, and
those of members begin no mark. -/
def Descriptor.Traceable (descriptor : Descriptor) : Prop :=
  ∀ inner, descriptor.Contains inner → inner.layout.Traceable

def Member.Traceable (member : Member Kind Descriptor) : Prop :=
  NameTraceable member.name ∧
    ∀ inner, member.kind = .message → member.nested = some inner →
      inner.Traceable

theorem Descriptor.traceable_iff (descriptor : Descriptor) :
    descriptor.Traceable ↔
      descriptor.layout.Traceable ∧
        ∀ member ∈ descriptor.layout.members, member.Traceable := by
  unfold Traceable
  rw [forall_contains_iff]
  refine and_congr_right fun traceable => ?_
  refine forall₂_congr fun member isMember => ?_
  exact (and_iff_right (traceable.names_traceable member isMember)).symm

end Traceability

section Fields

/-- A field that ends at the first occurrence of a letter can be told from what
follows. -/
theorem field_inj {stop : Char} {field field' text text' : List Char}
    (clean : stop ∉ field) (clean' : stop ∉ field')
    (same : field ++ stop :: text = field' ++ stop :: text') :
    field = field' ∧ text = text' := by
  have read := readTo_append clean text
  rw [same, readTo_append clean'] at read
  obtain ⟨rfl, rfl⟩ := Prod.mk.inj (Option.some.inj read)
  exact ⟨rfl, rfl⟩

/-- A field that ends at the last occurrence of a letter can be told from what
follows. -/
theorem field_inj_of_last {stop : Char} {field field' text text' : List Char}
    (clean : stop ∉ text) (clean' : stop ∉ text')
    (same : field ++ stop :: text = field' ++ stop :: text') :
    field = field' ∧ text = text' := by
  have reversed := congrArg List.reverse same
  simp only [List.reverse_append, List.reverse_cons, List.append_assoc,
    List.singleton_append] at reversed
  obtain ⟨sameText, sameField⟩ := field_inj
    (List.mem_reverse.not.mpr clean) (List.mem_reverse.not.mpr clean') reversed
  exact ⟨List.reverse_injective sameField, List.reverse_injective sameText⟩

theorem toDigits_inj {number number' : Nat}
    (same : Nat.toDigits 10 number = Nat.toDigits 10 number') :
    number = number' := by
  have read := digits?_toDigits number
  rw [same, digits?_toDigits] at read
  exact (Option.some.inj read).symm

end Fields

section Marks

/-- The letters that begin the mark of a container. -/
def opensMark (letter : Char) : Bool :=
  letter = '[' || letter = '<'

theorem Container.mark_toList (container : Container) :
    container.mark.toList =
      match container with
      | .single => []
      | .array size => '[' :: (Nat.toDigits 10 size.toNat ++ [']'])
      | .boundedSequence maximum => '<' :: '=' :: Nat.toDigits 10 maximum.toNat
      | .unboundedSequence => ['[', ']'] := by
  cases container <;>
    simp only [mark, String.toList_append, decimal_toList] <;> rfl

theorem Container.mark_inj {container container' : Container}
    (same : container.mark.toList = container'.mark.toList) :
    container = container' := by
  rw [mark_toList, mark_toList] at same
  cases container <;> cases container' <;>
    simp [Nat.toDigits_ne_nil] at same ⊢
  case array.array => exact UInt64.toNat_inj.mp (toDigits_inj same)
  case boundedSequence.boundedSequence =>
    exact UInt64.toNat_inj.mp (toDigits_inj same)

theorem Container.newline_not_mem_mark (container : Container) :
    '\n' ∉ container.mark.toList := by
  rw [mark_toList]
  cases container <;> simp [not_mem_toDigits]

/-- The mark of a container can be told from the name in front of it. -/
theorem takeWhile_name_append_mark {name : String}
    (traceable : NameTraceable name) (container : Container) :
    (name.toList ++ container.mark.toList).takeWhile (!opensMark ·) =
      name.toList := by
  have noMark (letter : Char) (isMember : letter ∈ name.toList) :
      !opensMark letter := by
    obtain ⟨-, noBracket, noAngle⟩ := traceable
    have notBracket : letter ≠ '[' := ne_of_mem_of_not_mem isMember noBracket
    have notAngle : letter ≠ '<' := ne_of_mem_of_not_mem isMember noAngle
    simp [opensMark, notBracket, notAngle]
  have atMark : container.mark.toList.takeWhile (!opensMark ·) = [] := by
    rw [Container.mark_toList]
    cases container <;> rfl
  rw [List.takeWhile_append_of_pos noMark, atMark, List.append_nil]

theorem name_mark_inj {name name' : String} (traceable : NameTraceable name)
    (traceable' : NameTraceable name') {container container' : Container}
    (same : name.toList ++ container.mark.toList =
      name'.toList ++ container'.mark.toList) :
    name = name' ∧ container = container' := by
  have sameName := congrArg (List.takeWhile (!opensMark ·)) same
  rw [takeWhile_name_append_mark traceable,
    takeWhile_name_append_mark traceable'] at sameName
  rw [sameName] at same
  exact ⟨String.toList_inj.mp sameName,
    Container.mark_inj (List.append_cancel_left same)⟩

end Marks

section Labels

theorem Leaf.label_inj {leaf leaf' : Leaf} (same : leaf.label = leaf'.label) :
    leaf = leaf' := by
  cases leaf <;> cases leaf' <;> simp [label] at same ⊢

theorem Kind.label_unknown_toList (id : UInt8) :
    (Kind.unknown id).label.toList =
      "Unknown(".toList ++ (Nat.toDigits 10 id.toNat ++ [')']) := by
  rw [label, String.toList_append, String.toList_append, decimal_toList,
    List.append_assoc]
  rfl

/-- The labels of unknown kinds are the ones with a parenthesis. -/
theorem Kind.paren_mem_label_iff (kind : Kind) :
    '(' ∈ kind.label.toList ↔ ∃ id, kind = .unknown id := by
  cases kind with
  | leaf leaf => cases leaf <;> simp [label, Leaf.label]
  | message => simp [label]
  | unknown id => simp [label_unknown_toList]

theorem Leaf.label_ne_message (leaf : Leaf) :
    leaf.label ≠ Kind.message.label := by
  cases leaf <;> decide

theorem Kind.label_inj {kind kind' : Kind} (same : kind.label = kind'.label) :
    kind = kind' := by
  have bothUnknown : (∃ id, kind = .unknown id) ↔ ∃ id, kind' = .unknown id := by
    rw [← paren_mem_label_iff, ← paren_mem_label_iff, same]
  cases kind with
  | unknown id =>
      obtain ⟨id', rfl⟩ := bothUnknown.mp ⟨id, rfl⟩
      rw [← String.toList_inj, label_unknown_toList, label_unknown_toList]
        at same
      have sameNumber := toDigits_inj
        (List.append_cancel_right (List.append_cancel_left same))
      rw [UInt8.toNat_inj.mp sameNumber]
  | leaf leaf =>
      cases kind' with
      | unknown id => exact absurd (bothUnknown.mpr ⟨id, rfl⟩) (by simp)
      | leaf leaf' => rw [Leaf.label_inj same]
      | message => exact absurd same leaf.label_ne_message
  | message =>
      cases kind' with
      | unknown id => exact absurd (bothUnknown.mpr ⟨id, rfl⟩) (by simp)
      | leaf leaf' => exact absurd same.symm leaf'.label_ne_message
      | message => rfl

/-- Labels contain neither blanks nor line breaks. -/
theorem Kind.label_clean (kind : Kind) :
    ' ' ∉ kind.label.toList ∧ '\n' ∉ kind.label.toList := by
  cases kind with
  | leaf leaf => cases leaf <;> decide
  | message => decide
  | unknown id => simp [label_unknown_toList, not_mem_toDigits]

/-- The letter shown behind a label, a code or the sign that there is none. -/
theorem Kind.sign_clean (kind : Kind) :
    kind.code?.getD '-' ≠ ' ' ∧ kind.code?.getD '-' ≠ '\n' := by
  cases kind with
  | leaf leaf => cases leaf <;> decide
  | message | unknown id => simp [code?]

end Labels

section Lines

/-- The line that opens the tree of a message, without indentation and line
break. -/
def headingLetters (type : ScopedName) (count : Nat) : List Char :=
  type.mangled.toList ++
    ' ' :: '(' :: (Nat.toDigits 10 count ++ " members)".toList)

/-- The line of a member, without indentation and line break. -/
def captionLetters {ρ : Type} (member : Member Kind ρ) : List Char :=
  member.name.toList ++ (member.shape.container.mark.toList ++
    ':' :: ' ' :: (member.kind.label.toList ++
      ' ' :: ['\'', member.kind.code?.getD '-', '\'']))

theorem ScopedName.treeLine_toList (type : ScopedName) (depth count : Nat) :
    (type.treeLine depth count).toList =
      (indentation depth).toList ++ (headingLetters type count ++ ['\n']) := by
  have closed : " members)\n".toList = " members)".toList ++ ['\n'] := rfl
  have opened : " (".toList = [' ', '('] := rfl
  simp only [treeLine, headingLetters, String.toList_append, decimal_toList,
    closed, opened, List.append_assoc, List.cons_append, List.nil_append]

theorem Member.treeLine_toList {ρ : Type} (member : Member Kind ρ)
    (depth : Nat) :
    (member.treeLine depth).toList =
      (indentation (depth + 1)).toList ++ (captionLetters member ++ ['\n']) := by
  have closed : "'\n".toList = ['\'', '\n'] := rfl
  have separated : ": ".toList = [':', ' '] := rfl
  have quoted : " '".toList = [' ', '\''] := rfl
  simp only [treeLine, captionLetters, String.toList_append, Char.toString,
    String.toList_singleton, closed, separated, quoted, List.append_assoc,
    List.cons_append, List.nil_append]

theorem ScopedName.newline_not_mem_heading {type : ScopedName}
    (clean : '\n' ∉ type.scope.toList ∧ '\n' ∉ type.name.toList) (count : Nat) :
    '\n' ∉ headingLetters type count := by
  have mangledClean := not_mem_mangled (by decide) clean.1 clean.2
  simp [headingLetters, mangledClean, not_mem_toDigits]

theorem Member.newline_not_mem_caption {ρ : Type} {member : Member Kind ρ}
    (traceable : NameTraceable member.name) :
    '\n' ∉ captionLetters member := by
  have markClean := member.shape.container.newline_not_mem_mark
  simp [captionLetters, traceable.1, markClean, member.kind.label_clean.2,
    member.kind.sign_clean.2.symm]

/-- The type and the number of members can be read off the line that opens a
message, from its end. -/
theorem heading_inj {type type' : ScopedName} {count count' : Nat}
    (same : headingLetters type count = headingLetters type' count') :
    type.mangled = type'.mangled ∧ count = count' := by
  have closing (number : Nat) :
      '(' ∉ Nat.toDigits 10 number ++ " members)".toList := by
    simp [not_mem_toDigits]
  have regrouped (letters text : List Char) :
      letters ++ ' ' :: '(' :: text = (letters ++ [' ']) ++ '(' :: text :=
    List.append_cons letters ' ' ('(' :: text)
  simp only [headingLetters, regrouped] at same
  obtain ⟨sameName, sameCount⟩ := field_inj_of_last (closing _) (closing _) same
  exact ⟨String.toList_inj.mp (List.append_cancel_right sameName),
    toDigits_inj (List.append_cancel_right sameCount)⟩

/-- The name, the container and the kind can be read off the line of a member:
the code and the label from its end, the name from its beginning. -/
theorem caption_inj {ρ : Type} {member member' : Member Kind ρ}
    (traceable : NameTraceable member.name)
    (traceable' : NameTraceable member'.name)
    (same : captionLetters member = captionLetters member') :
    member.name = member'.name ∧
      member.shape.container = member'.shape.container ∧
        member.kind = member'.kind := by
  have signClean (kind : Kind) :
      ' ' ∉ ['\'', kind.code?.getD '-', '\''] := by
    simp [kind.sign_clean.1.symm]
  have regrouped (letters mark label sign : List Char) :
      letters ++ (mark ++ ':' :: ' ' :: (label ++ ' ' :: sign)) =
        (((letters ++ mark) ++ [':']) ++ ' ' :: label) ++ ' ' :: sign := by
    simp only [List.append_assoc, List.cons_append, List.nil_append]
  simp only [captionLetters, regrouped] at same
  obtain ⟨sameFront, -⟩ := field_inj_of_last (signClean _) (signClean _) same
  obtain ⟨sameName, sameLabel⟩ := field_inj_of_last
    member.kind.label_clean.1 member'.kind.label_clean.1 sameFront
  obtain ⟨nameEq, containerEq⟩ :=
    name_mark_inj traceable traceable' (List.append_cancel_right sameName)
  exact ⟨nameEq, containerEq, Kind.label_inj (String.toList_inj.mp sameLabel)⟩

end Lines

section Trees

/-- What is rendered of a thing can be told from the letters that follow it, and
shows what the thing has in common with the others that are rendered so. -/
def Determines {α : Type} (render : α → Except CompileError String)
    (clean : α → Prop) (related : α → α → Prop) (shown : α) : Prop :=
  ∀ ⦃other : α⦄ ⦃text text' : String⦄ ⦃rest rest' : List Char⦄, clean other →
    render shown = .ok text → render other = .ok text' →
      text.toList ++ rest = text'.toList ++ rest' →
        related shown other ∧ rest = rest'

/-- The tree of a member begins with its line. -/
theorem Member.exists_of_treeAt_eq_ok {member : Member Kind Descriptor}
    {depth : Nat} {text : String} (shown : member.treeAt depth = .ok text) :
    ∃ nested, nestedTree depth member = .ok nested ∧
      text.toList = (indentation (depth + 1)).toList ++
        (captionLetters member ++ '\n' :: nested.toList) := by
  unfold treeAt at shown
  cases shownNested : nestedTree depth member with
  | error fault => simp [shownNested, Except.map] at shown
  | ok nested =>
      rw [shownNested] at shown
      obtain rfl := Except.ok.inj shown
      refine ⟨nested, rfl, ?_⟩
      simp only [String.toList_append, treeLine_toList, List.append_assoc,
        List.singleton_append]

theorem nestedTree_of_ne_message {member : Member Kind Descriptor}
    (notMessage : member.kind ≠ .message) (depth : Nat) :
    nestedTree depth member = .ok "" := by
  obtain ⟨name, kind, shape, nested⟩ := member
  cases kind with
  | message => exact absurd rfl notMessage
  | leaf leaf | unknown id => rfl

theorem exists_of_nestedTree_eq_ok {member : Member Kind Descriptor}
    (isMessage : member.kind = .message) {depth : Nat} {text : String}
    (shown : nestedTree depth member = .ok text) :
    ∃ inner, member.nested = some inner ∧ inner.treeAt (depth + 2) = .ok text := by
  obtain ⟨name, kind, shape, nested⟩ := member
  obtain rfl : kind = .message := isMessage
  cases nested with
  | none => contradiction
  | some inner => exact ⟨inner, rfl, shown⟩

theorem Member.treeAt_determines {depth : Nat} {member : Member Kind Descriptor}
    (traceable : member.Traceable)
    (nestedDetermines : ∀ inner, member.nested = some inner →
      inner.Traceable → Determines (Descriptor.treeAt (depth + 2))
        Descriptor.Traceable Descriptor.Resembles inner) :
    Determines (Member.treeAt · depth) Member.Traceable
      (Member.Alike Descriptor.Resembles) member := by
  intro member' text text' rest rest' traceable' shown shown' same
  obtain ⟨nested, shownNested, spelled⟩ := exists_of_treeAt_eq_ok shown
  obtain ⟨nested', shownNested', spelled'⟩ := exists_of_treeAt_eq_ok shown'
  simp only [spelled, spelled', List.append_assoc, List.cons_append] at same
  obtain ⟨sameCaption, sameBelow⟩ := field_inj
    (newline_not_mem_caption traceable.1) (newline_not_mem_caption traceable'.1)
    (List.append_cancel_left same)
  obtain ⟨sameName, sameContainer, sameKind⟩ :=
    caption_inj traceable.1 traceable'.1 sameCaption
  by_cases isMessage : member.kind = .message
  · have isMessage' : member'.kind = .message := sameKind ▸ isMessage
    obtain ⟨inner, refers, shownInner⟩ :=
      exists_of_nestedTree_eq_ok isMessage shownNested
    obtain ⟨inner', refers', shownInner'⟩ :=
      exists_of_nestedTree_eq_ok isMessage' shownNested'
    obtain ⟨resembles, sameRest⟩ := nestedDetermines inner refers
      (traceable.2 inner isMessage refers)
      (traceable'.2 inner' isMessage' refers') shownInner shownInner' sameBelow
    refine ⟨⟨sameName, sameKind, sameContainer, fun _ => ?_⟩, sameRest⟩
    rw [refers, refers']
    exact .some resembles
  · have notMessage' : member'.kind ≠ .message := sameKind ▸ isMessage
    obtain rfl := Except.ok.inj
      ((nestedTree_of_ne_message isMessage depth).symm.trans shownNested)
    obtain rfl := Except.ok.inj
      ((nestedTree_of_ne_message notMessage' depth).symm.trans shownNested')
    exact ⟨⟨sameName, sameKind, sameContainer,
      fun isMessage' => absurd isMessage' isMessage⟩, sameBelow⟩

/-- Lists of the same length are determined by their rendered elements, if the
elements are. -/
theorem forall₂_of_join_eq {α : Type} {render : α → Except CompileError String}
    {clean : α → Prop} {related : α → α → Prop} {elements elements' : List α}
    {texts texts' : List String} {rest rest' : List Char}
    (sameLength : elements.length = elements'.length)
    (determine : ∀ element ∈ elements, Determines render clean related element)
    (areClean : ∀ element ∈ elements', clean element)
    (shown : List.Forall₂ (fun element text => render element = .ok text)
      elements texts)
    (shown' : List.Forall₂ (fun element text => render element = .ok text)
      elements' texts')
    (same : (String.join texts).toList ++ rest =
      (String.join texts').toList ++ rest') :
    List.Forall₂ related elements elements' ∧ rest = rest' := by
  induction shown generalizing elements' texts' with
  | nil =>
      obtain rfl := List.eq_nil_of_length_eq_zero sameLength.symm
      obtain rfl := List.forall₂_nil_left_iff.mp shown'
      exact ⟨.nil, same⟩
  | @cons element text elements texts shownFirst _ ih =>
      cases shown' with
      | nil => contradiction
      | @cons element' text' elements' texts' shownFirst' shownRest' =>
          simp only [String.join_cons, String.toList_append, List.append_assoc]
            at same
          obtain ⟨determinesFirst, determineRest⟩ :=
            List.forall_mem_cons.mp determine
          obtain ⟨cleanFirst, cleanRest⟩ := List.forall_mem_cons.mp areClean
          obtain ⟨first, sameTail⟩ :=
            determinesFirst cleanFirst shownFirst shownFirst' same
          obtain ⟨others, sameRest⟩ := ih (Nat.succ.inj sameLength)
            determineRest cleanRest shownRest' sameTail
          exact ⟨.cons first others, sameRest⟩

/-- The tree of a descriptor is its heading with the trees of its members. -/
theorem Descriptor.exists_of_treeAt_eq_ok {descriptor : Descriptor}
    {depth : Nat} {text : String} (shown : descriptor.treeAt depth = .ok text) :
    ∃ trees, List.Forall₂ (fun member tree => Member.treeAt member depth = .ok tree)
        descriptor.layout.members trees ∧
      text.toList = (indentation depth).toList ++
        (headingLetters descriptor.layout.type descriptor.layout.members.length ++
          '\n' :: (String.join trees).toList) := by
  rw [treeAt_eq] at shown
  cases visited : descriptor.layout.members.mapM (Member.treeAt · depth) with
  | error fault => simp [visited, Except.map] at shown
  | ok trees =>
      rw [visited] at shown
      obtain rfl := Except.ok.inj shown
      refine ⟨trees, (mapM_eq_ok_iff _ _ _).mp visited, ?_⟩
      simp only [openingLine, String.toList_append, ScopedName.treeLine_toList,
        List.append_assoc, List.singleton_append]

theorem Descriptor.treeAt_determines (descriptor : Descriptor) :
    ∀ depth, descriptor.Traceable →
      Determines (treeAt depth) Traceable Resembles descriptor := by
  induction descriptor using Descriptor.nested_induction with
  | _ descriptor ih =>
      intro depth traceable descriptor' text text' rest rest' traceable' shown
        shown' same
      obtain ⟨trees, shownMembers, spelled⟩ := exists_of_treeAt_eq_ok shown
      obtain ⟨trees', shownMembers', spelled'⟩ := exists_of_treeAt_eq_ok shown'
      obtain ⟨clean, membersTraceable⟩ := (traceable_iff _).mp traceable
      obtain ⟨clean', membersTraceable'⟩ := (traceable_iff _).mp traceable'
      simp only [spelled, spelled', List.append_assoc, List.cons_append] at same
      obtain ⟨sameHeading, sameBelow⟩ := field_inj
        (ScopedName.newline_not_mem_heading clean.type_clean _)
        (ScopedName.newline_not_mem_heading clean'.type_clean _)
        (List.append_cancel_left same)
      obtain ⟨sameName, sameCount⟩ := heading_inj sameHeading
      have determine (member : Member Kind Descriptor)
          (isMember : member ∈ descriptor.layout.members) :=
        Member.treeAt_determines (membersTraceable member isMember)
          fun inner refers => ih member isMember inner refers (depth + 2)
      obtain ⟨alike, sameRest⟩ := forall₂_of_join_eq sameCount determine
        membersTraceable' shownMembers shownMembers' sameBelow
      exact ⟨(resembles_iff _ _).mpr ⟨sameName, alike⟩, sameRest⟩

theorem Member.treeAt_eq_of_alike {depth : Nat}
    {member member' : Member Kind Descriptor}
    (alike : Member.Alike Descriptor.Resembles member member')
    (nestedAlike : ∀ inner, member.nested = some inner → ∀ inner',
      inner.Resembles inner' →
        inner.treeAt (depth + 2) = inner'.treeAt (depth + 2)) :
    member.treeAt depth = member'.treeAt depth := by
  obtain ⟨name, kind, shape, nested⟩ := member
  obtain ⟨name', kind', shape', nested'⟩ := member'
  obtain ⟨sameName, sameKind, sameContainer, nestedRel⟩ := alike
  obtain rfl : name = name' := sameName
  obtain rfl : kind = kind' := sameKind
  have sameLine : treeLine ⟨name, kind, shape, nested⟩ depth =
      treeLine ⟨name, kind, shape', nested'⟩ depth := by
    simp only [treeLine, sameContainer]
  unfold treeAt
  rw [sameLine]
  cases kind with
  | leaf leaf | unknown id => rfl
  | message =>
      cases nestedRel rfl with
      | none => rfl
      | @some inner inner' resembles =>
          have sameNested := nestedAlike inner rfl inner' resembles
          simp only [nestedTree, sameNested]

theorem Descriptor.treeAt_eq_of_resembles (descriptor : Descriptor) :
    ∀ depth descriptor', descriptor.Resembles descriptor' →
      descriptor.treeAt depth = descriptor'.treeAt depth := by
  induction descriptor using Descriptor.nested_induction with
  | _ descriptor ih =>
      intro depth descriptor' resembles
      obtain ⟨sameName, alike⟩ := (resembles_iff _ _).mp resembles
      have sameOpening : descriptor.openingLine depth =
          descriptor'.openingLine depth := by
        simp only [openingLine, ScopedName.treeLine, sameName, alike.length_eq]
      rw [treeAt_eq, treeAt_eq, sameOpening]
      congr 1
      refine mapM_eq_of_forall₂ ?_
      have pairs := (List.forall₂_and_left _ _).mpr ⟨ih, alike⟩
      exact pairs.imp fun member member' both => Member.treeAt_eq_of_alike
        both.2 fun inner refers => both.1 inner refers (depth + 2)

/-- Descriptors whose names can be told from what follows them have the same tree
exactly if they are shown alike. -/
theorem Descriptor.tree_eq_iff {descriptor descriptor' : Descriptor}
    {text text' : String} (shown : descriptor.tree = .ok text)
    (shown' : descriptor'.tree = .ok text') (traceable : descriptor.Traceable)
    (traceable' : descriptor'.Traceable) :
    text = text' ↔ descriptor.Resembles descriptor' := by
  constructor
  · rintro rfl
    have sameLetters : text.toList ++ [] = text.toList ++ [] := rfl
    exact (treeAt_determines descriptor 0 traceable traceable' shown shown'
      sameLetters).1
  · intro resembles
    have same := treeAt_eq_of_resembles descriptor 0 descriptor' resembles
    exact Except.ok.inj (shown.symm.trans (same.trans shown'))

end Trees

section Distinctions

variable {options : Options}

/-- Two kinds are the same or have the same code. -/
def Kind.SharesCode (kind kind' : Kind) : Prop :=
  kind = kind' ∨ ∃ code, kind.code? = some code ∧ kind'.code? = some code

/-- At some depth two descriptors differ in one member, in its kind or its
container, and a metastring shows neither difference. -/
inductive Descriptor.DiffersUnseen (options : Options) :
    Descriptor → Descriptor → Prop
  | here (type : ScopedName) (before after : List (Member Kind Descriptor))
      (name : String) {kind kind' : Kind} {shape shape' : Shape}
      (nested : Option Descriptor) (sameCode : kind.SharesCode kind')
      (sameRepetition : shape.container.repetition options =
        shape'.container.repetition options)
      (differ : kind ≠ kind' ∨ shape.container ≠ shape'.container) :
      DiffersUnseen options
        (.mk ⟨type, before ++ ⟨name, kind, shape, nested⟩ :: after⟩)
        (.mk ⟨type, before ++ ⟨name, kind', shape', nested⟩ :: after⟩)
  | inside (type : ScopedName) (before after : List (Member Kind Descriptor))
      (name : String) (shape : Shape) {inner inner' : Descriptor}
      (differs : DiffersUnseen options inner inner') :
      DiffersUnseen options
        (.mk ⟨type, before ++ ⟨name, .message, shape, some inner⟩ :: after⟩)
        (.mk ⟨type, before ++ ⟨name, .message, shape, some inner'⟩ :: after⟩)

theorem Leaf.token_eq_of_code_eq {leaf leaf' : Leaf}
    (sameCode : leaf.code = leaf'.code) (label : Option String) :
    leaf.token label = leaf'.token label := by
  rw [token, token, sameCode]

/-- What a metastring does not show of a member does not change its segment. -/
theorem Member.segment_eq_of_sharesCode {name : String} {kind kind' : Kind}
    {shape shape' : Shape} {reference : Option Descriptor}
    (sameCode : kind.SharesCode kind')
    (sameRepetition : shape.container.repetition options =
      shape'.container.repetition options)
    (nested : Option String → Descriptor → Except CompileError String) :
    segment options nested ⟨name, kind, shape, reference⟩ =
      segment options nested ⟨name, kind', shape', reference⟩ := by
  have sameToken : shape.container.token options name =
      shape'.container.token options name := by
    rw [← String.toList_inj, Container.token_toList, Container.token_toList,
      sameRepetition]
  unfold segment
  simp only [label_eq _ options, sameToken, sameRepetition]
  rcases sameCode with rfl | ⟨code, isCode, isCode'⟩
  · rfl
  · cases kind with
    | message | unknown id => contradiction
    | leaf leaf =>
        cases kind' with
        | message | unknown id => contradiction
        | leaf leaf' =>
            have same : leaf.code = leaf'.code :=
              Option.some.inj (isCode.trans isCode'.symm)
            simp only [Leaf.token_eq_of_code_eq same]

/-- Lists that differ in one place are related if what stands there is. -/
theorem forall₂_of_middle {α : Type} {related : α → α → Prop}
    (refl : ∀ element, related element element) (before after : List α)
    {element element' : α} (areRelated : related element element') :
    List.Forall₂ related (before ++ element :: after)
      (before ++ element' :: after) :=
  List.rel_append (List.forall₂_same.mpr fun other _ => refl other)
    (.cons areRelated (List.forall₂_same.mpr fun other _ => refl other))

theorem middle_of_forall₂ {α : Type} {related : α → α → Prop}
    {before after after' : List α} {element element' : α}
    (pairs : List.Forall₂ related (before ++ element :: after)
      (before ++ element' :: after')) :
    related element element' := by
  have behind := List.forall₂_drop_append _ before _ pairs
  rw [List.drop_left] at behind
  exact (List.forall₂_cons.mp behind).1

/-- Walks of messages with the same type agree if the members have the same
segments one by one. -/
theorem walk_eq_of_segments {type : ScopedName}
    {members members' : List (Member Kind Descriptor)}
    (sameSegments : ∀ budget opened, List.Forall₂ (fun member member' =>
        Member.segment options
            (walkReference options Descriptor.describe budget opened) member =
          Member.segment options
            (walkReference options Descriptor.describe budget opened) member')
      members members')
    (budget : Nat) (opened : List String) (label : Option String) :
    walk options Descriptor.describe budget opened label ⟨type, members⟩ =
      walk options Descriptor.describe budget opened label ⟨type, members'⟩ := by
  have sameLength : members.length = members'.length :=
    (sameSegments 0 []).length_eq
  cases budget with
  | zero => rfl
  | succ budget =>
      by_cases isOpen : type.qualified ∈ opened
      · rw [walk_of_opened options _ _ label isOpen,
          walk_of_opened options _ _ label isOpen]
      · rw [walk_of_fresh options _ budget label isOpen,
          walk_of_fresh options _ budget label isOpen,
          mapM_eq_of_forall₂ (sameSegments budget _)]
        simp only [Layout.token, sameLength]

theorem Descriptor.DiffersUnseen.walk_eq {descriptor descriptor' : Descriptor}
    (differs : descriptor.DiffersUnseen options descriptor') (budget : Nat)
    (opened : List String) (label : Option String) :
    walk options Descriptor.describe budget opened label descriptor.layout =
      walk options Descriptor.describe budget opened label
        descriptor'.layout := by
  induction differs generalizing budget opened label with
  | here type before after name nested sameCode sameRepetition =>
      refine walk_eq_of_segments (fun budget opened => ?_) budget opened label
      apply forall₂_of_middle
      · exact fun _ => rfl
      · exact Member.segment_eq_of_sharesCode sameCode sameRepetition _
  | @inside type before after name shape inner inner' _ ih =>
      refine walk_eq_of_segments (fun budget opened => ?_) budget opened label
      have sameNested (label : Option String) :
          walkReference options describe budget opened label inner =
            walkReference options describe budget opened label inner' :=
        ih budget opened label
      apply forall₂_of_middle
      · exact fun _ => rfl
      · simp only [Member.segment, Member.label, sameNested]

theorem Descriptor.DiffersUnseen.outcome_eq {descriptor descriptor' : Descriptor}
    (differs : descriptor.DiffersUnseen options descriptor') :
    (descriptor.tryCompile options).outcome =
      (descriptor'.tryCompile options).outcome := by
  rw [Descriptor.outcome_eq_walk (Nat.le_max_left _ descriptor'.height),
    Descriptor.outcome_eq_walk (Nat.le_max_right descriptor.height _),
    differs.walk_eq]

theorem Descriptor.DiffersUnseen.not_resembles
    {descriptor descriptor' : Descriptor}
    (differs : descriptor.DiffersUnseen options descriptor') :
    ¬ descriptor.Resembles descriptor' := by
  induction differs with
  | here type before after name nested _ _ differ =>
      intro resembles
      have alike := middle_of_forall₂ ((resembles_iff _ _).mp resembles).2
      rcases differ with kindDiffers | containerDiffers
      · exact kindDiffers alike.kind_eq
      · exact containerDiffers alike.container_eq
  | inside type before after name shape _ ih =>
      intro resembles
      have alike := middle_of_forall₂ ((resembles_iff _ _).mp resembles).2
      cases alike.nested_rel rfl with
      | some nestedResemble => exact ih nestedResemble

/-- Two descriptors whose names break no line and begin no mark have the same
member tree exactly if they agree in all that is shown: mangled names, members
in order, their names, kinds and containers, and the descriptors they nest.
Where the descriptors differ in a container or a kind that a metastring does not
show, their metastrings are the same and their trees are not. -/
theorem tree_uniquely_readable {descriptor descriptor' : Descriptor}
    {text text' : String} (shown : descriptor.tree = .ok text)
    (shown' : descriptor'.tree = .ok text') (traceable : descriptor.Traceable)
    (traceable' : descriptor'.Traceable) :
    (text = text' ↔ descriptor.Resembles descriptor') ∧
      ∀ options, descriptor.DiffersUnseen options descriptor' →
        (descriptor.tryCompile options).outcome =
            (descriptor'.tryCompile options).outcome ∧
          text ≠ text' := by
  have sameTree := Descriptor.tree_eq_iff shown shown' traceable traceable'
  exact ⟨sameTree, fun options differs => ⟨differs.outcome_eq,
    sameTree.not.mpr differs.not_resembles⟩⟩

theorem sequenceAfterEmpty_traceable (leaf : Leaf) (bound : Option UInt64) :
    (sequenceAfterEmpty leaf bound).Traceable := by
  have emptyTraceable : (Descriptor.mk ⟨⟨"p", "B"⟩, []⟩).Traceable :=
    (Descriptor.traceable_iff _).mpr
      ⟨⟨by decide, fun _ isMember => absurd isMember List.not_mem_nil⟩,
        fun _ isMember => absurd isMember List.not_mem_nil⟩
  have traceable (name : String) (isName : name = "x" ∨ name = "y") :
      NameTraceable name := by
    rcases isName with rfl | rfl <;> exact ⟨by decide, by decide, by decide⟩
  have typeClean : '\n' ∉ "".toList ∧ '\n' ∉ "A".toList := by decide
  refine (Descriptor.traceable_iff _).mpr ⟨⟨typeClean, ?_⟩, ?_⟩
  · simp [sequenceAfterEmpty, Descriptor.layout, traceable]
  · simp [sequenceAfterEmpty, Descriptor.layout, Member.Traceable, traceable,
      emptyTraceable]

/-- Leaves with the same code have different labels, and a bound that is declared
is told from one that is assumed. -/
theorem tree_uniquely_readable_sequenceAfterEmpty :
    (sequenceAfterEmpty .double none).tree =
        .ok ("dds_::A_ (2 members)\n  x: Message '-'\n" ++
          "    p::dds_::B_ (0 members)\n  y[]: Double 'd'\n") ∧
      (sequenceAfterEmpty .longDouble (some 5)).tree =
        .ok ("dds_::A_ (2 members)\n  x: Message '-'\n" ++
          "    p::dds_::B_ (0 members)\n  y<=5: LongDouble 'd'\n") ∧
      ((sequenceAfterEmpty .double none).tryCompile ⟨5⟩).outcome =
        ((sequenceAfterEmpty .longDouble (some 5)).tryCompile ⟨5⟩).outcome ∧
      ¬ (sequenceAfterEmpty .double none).Resembles
        (sequenceAfterEmpty .longDouble (some 5)) := by
  have shown : (sequenceAfterEmpty .double none).tree =
      .ok ("dds_::A_ (2 members)\n  x: Message '-'\n" ++
        "    p::dds_::B_ (0 members)\n  y[]: Double 'd'\n") := by
    cbv
  have shown' : (sequenceAfterEmpty .longDouble (some 5)).tree =
      .ok ("dds_::A_ (2 members)\n  x: Message '-'\n" ++
        "    p::dds_::B_ (0 members)\n  y<=5: LongDouble 'd'\n") := by
    cbv
  have differs : (sequenceAfterEmpty .double none).DiffersUnseen ⟨5⟩
      (sequenceAfterEmpty .longDouble (some 5)) :=
    .here ⟨"", "A"⟩ [⟨"x", .message, {}, some (.mk ⟨⟨"p", "B"⟩, []⟩)⟩] [] "y"
      none (.inr ⟨'d', rfl, rfl⟩) (by rfl) (.inl (by decide))
  obtain ⟨sameTree, distinct⟩ := tree_uniquely_readable shown shown'
    (sequenceAfterEmpty_traceable _ _) (sequenceAfterEmpty_traceable _ _)
  obtain ⟨sameOutcome, textsDiffer⟩ := distinct ⟨5⟩ differs
  exact ⟨shown, shown', sameOutcome, sameTree.not.mp textsDiffer⟩

end Distinctions

end Metastring
