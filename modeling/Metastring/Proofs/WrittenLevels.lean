import Metastring.Proofs.JsonPresentation
import Metastring.Proofs.SpecLevels

/-!
# How many brackets a specification takes in JSON

The text that is written for a specification lists the members of every message,
also where there are none.  So its innermost message takes two brackets and not
one, and the text of a specification with 43 levels is not read, though there
are texts that are read as a specification with 43 levels: they leave out the
members of the innermost message.
-/

namespace Metastring.Json

section Conditions

variable {α β δ : Type}

/-- A text is read only under a condition, and what follows it is left. -/
def ReadOnlyIf (condition : Prop) (read : List Char → Decoded (α × List Char))
    (written : List Char) : Prop :=
  ∀ rest, Ends rest →
    Ensures (read (written ++ rest)) fun result => condition ∧ result.2 = rest

theorem ReadOnlyIf.mono {condition condition' : Prop}
    {read : List Char → Decoded (α × List Char)} {written : List Char}
    (reads : ReadOnlyIf condition read written)
    (implies : condition → condition') : ReadOnlyIf condition' read written :=
  fun rest ends => (reads rest ends).mono fun _ holds =>
    ⟨implies holds.1, holds.2⟩

theorem Reads.readOnlyIf {read : List Char → Decoded (α × List Char)}
    {presents : List Char → Prop} {value : α} (reads : Reads read presents value)
    {written : List Char} (presented : presents written) :
    ReadOnlyIf True read written := by
  intro rest ends
  rw [reads written rest presented ends]
  exact ensures_ok ⟨trivial, rfl⟩

section Lists

variable {read : List Char → Decoded (α × List Char)} {condition : β → Prop}
  {text : β → List Char}

theorem elementsWithin_readOnlyIf {elements : List β}
    (each : ∀ element ∈ elements,
      ReadOnlyIf (condition element) read (text element))
    (bound : Nat) (rest : List Char) :
    Ensures (elementsWithin read bound
        (continued (elements.map text) ++ ']' :: rest))
      fun result =>
        (∀ element ∈ elements, condition element) ∧ result.2 = rest := by
  induction elements generalizing bound with
  | nil =>
      cases bound with
      | zero => exact ensures_error _ _
      | succ bound =>
          exact ensures_ok
            ⟨List.forall_mem_nil _, rfl⟩
  | cons element elements ih =>
      cases bound with
      | zero => exact ensures_error _ _
      | succ bound =>
          obtain ⟨first, others⟩ := List.forall_mem_cons.mp each
          rw [List.map_cons, continued_cons, List.cons_append,
            List.append_assoc, elementsWithin, skipSpace_of_not rfl]
          refine (first _ (ends_continued _ (.bracket rest))).bind ?_
          rintro ⟨value, _⟩ ⟨holds, rfl⟩
          refine (ih others bound).bind ?_
          rintro ⟨values, _⟩ ⟨holdAll, rfl⟩
          exact ensures_ok ⟨List.forall_mem_cons.mpr ⟨holds, holdAll⟩, rfl⟩

theorem listed_readOnlyIf {elements : List β}
    (each : ∀ element ∈ elements,
      ReadOnlyIf (condition element) read (text element))
    (opens : ∀ element ∈ elements, Opens (text element)) :
    ReadOnlyIf (∀ element ∈ elements, condition element)
      (listed (Json.elements read)) (enclosed '[' ']' (elements.map text)) := by
  intro rest _
  rw [enclosed, List.cons_append, List.append_assoc, List.singleton_append,
    listed, skipSpace_of_not rfl]
  cases elements with
  | nil =>
      exact ensures_ok
        ⟨List.forall_mem_nil _, rfl⟩
  | cons element elements =>
      obtain ⟨first, others⟩ := List.forall_mem_cons.mp each
      have readFirst := first _
        (ends_continued (elements.map text) (.bracket rest))
      obtain ⟨head, tail, isText, notSpace, notEnd⟩ :=
        opens element List.mem_cons_self
      rw [isText, List.cons_append] at readFirst
      simp only [List.map_cons, intercalate_cons, isText, List.append_assoc,
        List.cons_append, Json.elements, skipSpace_of_not notSpace]
      split
      case h_1 isEnd => exact absurd (List.cons.inj isEnd).1 notEnd
      case h_2 =>
        refine readFirst.bind ?_
        rintro ⟨value, _⟩ ⟨holds, rfl⟩
        refine (elementsWithin_readOnlyIf others _ rest).bind ?_
        rintro ⟨values, _⟩ ⟨holdAll, rfl⟩
        exact ensures_ok ⟨List.forall_mem_cons.mpr ⟨holds, holdAll⟩, rfl⟩

end Lists

section Objects

variable {field : String → δ → List Char → Decoded (δ × List Char)}
  {condition : β → Prop} {key value : β → String}

/-- The letters of the entry of an object. -/
def entryLetters (key value : String) : List Char :=
  (writeText key).toList ++ ':' :: value.toList

theorem fieldAt_entryLetters (key value : String) (draft : δ)
    (rest : List Char) :
    fieldAt field draft (entryLetters key value ++ rest) =
      field key draft (':' :: (value.toList ++ rest)) := by
  rw [entryLetters, List.append_assoc, List.cons_append,
    fieldAt_append (quoted_writeText key)]

/-- A field is read only under a condition, whatever is known of the draft. -/
def FieldReadOnlyIf (condition : Prop)
    (field : String → δ → List Char → Decoded (δ × List Char))
    (key value : String) : Prop :=
  ∀ draft, ReadOnlyIf condition (fieldAt field draft) (entryLetters key value)

theorem fieldsWithin_readOnlyIf {given : List β}
    (each : ∀ wanted ∈ given,
      FieldReadOnlyIf (condition wanted) field (key wanted) (value wanted))
    (bound : Nat) (draft : δ) (rest : List Char) :
    Ensures (fieldsWithin field bound draft
        (continued (given.map fun wanted =>
          entryLetters (key wanted) (value wanted)) ++ '\x7d' :: rest))
      fun result =>
        (∀ wanted ∈ given, condition wanted) ∧ result.2 = rest := by
  induction given generalizing bound draft with
  | nil =>
      cases bound with
      | zero => exact ensures_error _ _
      | succ bound =>
          exact ensures_ok
            ⟨List.forall_mem_nil _, rfl⟩
  | cons wanted given ih =>
      cases bound with
      | zero => exact ensures_error _ _
      | succ bound =>
          obtain ⟨first, others⟩ := List.forall_mem_cons.mp each
          rw [List.map_cons, continued_cons, List.cons_append,
            List.append_assoc, fieldsWithin, skipSpace_of_not rfl]
          refine (first draft _ (ends_continued _ (.brace rest))).bind ?_
          rintro ⟨draft', _⟩ ⟨holds, rfl⟩
          refine (ih others bound draft').mono ?_
          rintro ⟨draft'', _⟩ ⟨holdAll, rfl⟩
          exact ⟨List.forall_mem_cons.mpr ⟨holds, holdAll⟩, rfl⟩

theorem fields_readOnlyIf {given : List β}
    (each : ∀ wanted ∈ given,
      FieldReadOnlyIf (condition wanted) field (key wanted) (value wanted))
    (draft : δ) (rest : List Char) :
    Ensures (fields field draft
        ([','].intercalate (given.map fun wanted =>
          entryLetters (key wanted) (value wanted)) ++ '\x7d' :: rest))
      fun result =>
        (∀ wanted ∈ given, condition wanted) ∧ result.2 = rest := by
  cases given with
  | nil =>
      exact ensures_ok ⟨List.forall_mem_nil _, rfl⟩
  | cons wanted given =>
      obtain ⟨first, others⟩ := List.forall_mem_cons.mp each
      have readFirst := first draft _ (ends_continued (given.map fun wanted =>
        entryLetters (key wanted) (value wanted)) (.brace rest))
      obtain ⟨tail, isEntry⟩ :
          ∃ tail, entryLetters (key wanted) (value wanted) = '"' :: tail := by
        obtain ⟨inner, -, isKey⟩ := quoted_writeText (key wanted)
        exact ⟨_, by rw [entryLetters, isKey]; rfl⟩
      have notSpace : isSpace '"' = false := rfl
      rw [isEntry, List.cons_append] at readFirst
      simp only [List.map_cons, intercalate_cons, isEntry, List.append_assoc,
        List.cons_append, fields, skipSpace_of_not notSpace]
      split
      case h_1 isEnd => exact absurd (List.cons.inj isEnd).1 (by decide)
      case h_2 =>
        refine readFirst.bind ?_
        rintro ⟨draft', _⟩ ⟨holds, rfl⟩
        refine (fieldsWithin_readOnlyIf others _ draft' rest).mono ?_
        rintro ⟨draft'', _⟩ ⟨holdAll, rfl⟩
        exact ⟨List.forall_mem_cons.mpr ⟨holds, holdAll⟩, rfl⟩

/-- An object is read only if its fields are. -/
theorem structured_readOnlyIf (wanted : Wanted) {given : List β}
    (each : ∀ wanted ∈ given,
      FieldReadOnlyIf (condition wanted) field (key wanted) (value wanted))
    (start : δ) (complete : δ → Decoded α)
    (array : List Char → Decoded (α × List Char)) :
    ReadOnlyIf (∀ wanted ∈ given, condition wanted)
      (structured wanted (fun text => do
        let (draft, rest) ← fields field start text
        return (← complete draft, rest)) array)
      (writeObject (given.map fun wanted =>
        writeEntry (key wanted) (value wanted))).toList := by
  intro rest _
  have letters : (given.map fun wanted =>
        writeEntry (key wanted) (value wanted)).map String.toList =
      given.map fun wanted => entryLetters (key wanted) (value wanted) := by
    simp only [List.map_map, Function.comp_def, writeEntry_toList, entryLetters]
  rw [writeObject_toList, letters, enclosed, List.cons_append,
    List.append_assoc, List.singleton_append, structured, skipSpace_of_not rfl]
  refine (fields_readOnlyIf each start rest).bind ?_
  rintro ⟨draft, _⟩ ⟨holdAll, rfl⟩
  exact (ensures_true _).bind fun _ _ => ensures_ok ⟨holdAll, rfl⟩

end Objects

end Conditions

section Fields

variable {condition : Prop}

/-- What is written for each field of a message whose list of members is
given. -/
def messageValue (type : ScopedName) (list : String) : MessageField → String
  | .scope => writeText type.scope
  | .name => writeText type.name
  | .members => list

/-- What is written for each field of a member whose block is given. -/
def memberValue (member : MemberSpec) (block : String) : MemberField → String
  | .name => writeText member.name
  | .kind => writeText member.kind.name
  | .isArray => writeFlag member.shape.isArray
  | .arraySize => decimal member.shape.arraySize.toNat
  | .isUpperBound => writeFlag member.shape.isUpperBound
  | .message => block

theorem afterColon_ensures (text : List Char) :
    Ensures (afterColon (':' :: text)) (· = text) :=
  ensures_ok rfl

theorem messageField_readOnlyIf (type : ScopedName) {list : String}
    {readMembers : List Char → Decoded (List MemberSpec × List Char)}
    (reads : ReadOnlyIf condition readMembers list.toList)
    (field : MessageField) :
    FieldReadOnlyIf (field = .members → condition) (messageField readMembers)
      field.key (messageValue type list field) := by
  intro draft rest ends
  rw [fieldAt_entryLetters]
  simp only [messageField, MessageField.ofKey?_key]
  split
  · exact ensures_error _ _
  refine (afterColon_ensures _).bind ?_
  rintro _ rfl
  have readText (text : String) :=
    (readTextAs_reads .text text).readOnlyIf (quoted_writeText text) rest ends
  cases field with
  | scope =>
      refine (readText type.scope).bind ?_
      rintro ⟨text, _⟩ ⟨-, rfl⟩
      exact ensures_ok ⟨by simp, rfl⟩
  | name =>
      refine (readText type.name).bind ?_
      rintro ⟨text, _⟩ ⟨-, rfl⟩
      exact ensures_ok ⟨by simp, rfl⟩
  | members =>
      refine (reads rest ends).bind ?_
      rintro ⟨members, _⟩ ⟨holds, rfl⟩
      exact ensures_ok ⟨fun _ => holds, rfl⟩

theorem readBlock_readOnlyIf
    {readMessage : List Char → Decoded (MessageSpec × List Char)}
    {block : List Char} (reads : ReadOnlyIf condition readMessage block)
    (bracketed : Bracketed block) :
    ReadOnlyIf condition (readBlock readMessage) block := by
  intro rest ends
  have readHere := reads rest ends
  obtain ⟨tail, rfl | rfl⟩ := bracketed
  all_goals
    rw [List.cons_append] at readHere ⊢
    rw [readBlock, skipSpace_of_not rfl]
    split
    case h_1 isNull => exact absurd (List.cons.inj isNull).1 (by decide)
    case h_2 => exact readHere.map fun _ holds => holds

/-- A spelled kind takes no bracket. -/
theorem readKindWithin_readOnlyIf (kind : DeclaredKind) (levels : Nat) :
    ReadOnlyIf True (readKindWithin levels) (writeText kind.name).toList := by
  intro rest _
  obtain ⟨tail, isText, read⟩ :=
    quoted_append (quoted_writeText kind.name) rest
  have spelled : Ensures (quoted (tail ++ rest))
      fun result => result.2 = rest := by
    rw [read]
    exact ensures_ok rfl
  rw [isText, List.cons_append, readKindWithin, skipSpace_of_not rfl]
  refine spelled.bind ?_
  rintro ⟨spelling, _⟩ rfl
  exact (ensures_true _).bind fun _ _ => ensures_ok ⟨trivial, rfl⟩

theorem memberField_readOnlyIf (member : MemberSpec) (levels : Nat)
    {block : String}
    {readMessage : List Char → Decoded (MessageSpec × List Char)}
    {field : MemberField}
    (reads : field = .message →
      ReadOnlyIf condition (readBlock readMessage) block.toList) :
    FieldReadOnlyIf (field = .message → condition)
      (memberField levels readMessage) field.key
      (memberValue member block field) := by
  intro draft rest ends
  rw [fieldAt_entryLetters]
  simp only [memberField, MemberField.ofKey?_key]
  split
  · exact ensures_error _ _
  refine (afterColon_ensures _).bind ?_
  rintro _ rfl
  have readFlag (flag : Bool) :=
    (readFlag_reads flag).readOnlyIf (writeFlag_toList flag) rest ends
  cases field with
  | name =>
      refine ((readTextAs_reads .text member.name).readOnlyIf
        (quoted_writeText _) rest ends).bind ?_
      rintro ⟨text, _⟩ ⟨-, rfl⟩
      exact ensures_ok ⟨by simp, rfl⟩
  | kind =>
      refine (readKindWithin_readOnlyIf member.kind levels rest ends).bind ?_
      rintro ⟨kind, _⟩ ⟨-, rfl⟩
      exact ensures_ok ⟨by simp, rfl⟩
  | isArray =>
      refine (readFlag member.shape.isArray).bind ?_
      rintro ⟨isArray, _⟩ ⟨-, rfl⟩
      exact ensures_ok ⟨by simp, rfl⟩
  | arraySize =>
      refine ((readSize_reads member.shape.arraySize).readOnlyIf
        (decimal_toList _) rest ends).bind ?_
      rintro ⟨size, _⟩ ⟨-, rfl⟩
      exact ensures_ok ⟨by simp, rfl⟩
  | isUpperBound =>
      refine (readFlag member.shape.isUpperBound).bind ?_
      rintro ⟨isUpperBound, _⟩ ⟨-, rfl⟩
      exact ensures_ok ⟨by simp, rfl⟩
  | message =>
      refine (reads rfl rest ends).bind ?_
      rintro ⟨message, _⟩ ⟨holds, rfl⟩
      exact ensures_ok ⟨fun _ => holds, rfl⟩

end Fields

section Written

/-- The text that is written for a list of members. -/
def writeList (members : List MemberSpec) : String :=
  "[" ++ ",".intercalate (writeMembers members) ++ "]"

/-- The text that is written for a member. -/
def writeMember (member : MemberSpec) : String :=
  writeObject (memberEntries member ++ writeBlock member)

theorem writeList_toList (members : List MemberSpec) :
    (writeList members).toList =
      enclosed '[' ']' (members.map fun member =>
        (writeMember member).toList) := by
  have written : writeMembers members = members.map writeMember := by
    induction members with
    | nil => rfl
    | cons member members ih => rw [writeMembers, ih, List.map_cons, writeMember]
  simp [writeList, written, enclosed, Function.comp_def]

theorem writeMember_opens (member : MemberSpec) :
    Opens (writeMember member).toList := by
  rw [writeMember, writeObject_toList]
  exact ⟨'\x7b', _, rfl, rfl, by decide⟩

theorem writeSpec_bracketed (spec : MessageSpec) :
    Bracketed (writeSpec spec).toList := by
  obtain ⟨⟨type, members⟩⟩ := spec
  rw [writeSpec, writeObject_toList]
  exact ⟨_, .inl rfl⟩

theorem tooDeep_readOnlyIf {α : Type} (condition : Prop) (wanted : Wanted)
    (entries : List String) :
    ReadOnlyIf condition
      (structured wanted (tooDeep : List Char → Decoded (α × List Char)) tooDeep)
      (writeObject entries).toList := by
  intro rest _
  rw [writeObject_toList]
  exact ensures_error _ _

theorem readMessage_readOnlyIf {brackets : Nat} {condition : Prop}
    {spec : MessageSpec}
    (reads : ReadOnlyIf condition (readMembers brackets)
      (writeList spec.members).toList) :
    ReadOnlyIf condition (readMessage (brackets + 1)) (writeSpec spec).toList := by
  obtain ⟨⟨type, members⟩⟩ := spec
  have each (field : MessageField)
      (_ : field ∈ [MessageField.scope, .name, .members]) :=
    messageField_readOnlyIf type reads field
  have reading := structured_readOnlyIf .message each {}
    MessageDraft.complete (messageArray (readMembers brackets))
  rw [readMessage, writeSpec]
  exact reading.mono fun holds => holds .members (by decide) rfl

theorem readMember_readOnlyIf {brackets : Nat} {condition : MessageSpec → Prop}
    (reads : ∀ block, ReadOnlyIf (condition block) (readMessage brackets)
      (writeSpec block).toList) (member : MemberSpec) :
    ReadOnlyIf (∀ block, member.nested = some block → condition block)
      (readMember (brackets + 1)) (writeMember member).toList := by
  obtain ⟨name, kind, shape, nested⟩ := member
  rw [readMember, writeMember]
  cases nested with
  | none =>
      have each (field : MemberField)
          (isGiven : field ∈ [MemberField.name, .kind, .isArray, .arraySize,
            .isUpperBound]) :
          FieldReadOnlyIf (field = .message → True)
            (memberField brackets (readMessage brackets)) field.key
            (memberValue ⟨name, kind, shape, none⟩ "" field) :=
        memberField_readOnlyIf _ brackets fun isMessage =>
          absurd isGiven (by rw [isMessage]; decide)
      have reading := structured_readOnlyIf .member each {}
        MemberDraft.complete (memberArray brackets (readMessage brackets))
      exact reading.mono fun _ => by simp
  | some block =>
      have readsBlock := readBlock_readOnlyIf (reads block)
        (writeSpec_bracketed block)
      have each (field : MemberField)
          (_ : field ∈ [MemberField.name, .kind, .isArray, .arraySize,
            .isUpperBound, .message]) :
          FieldReadOnlyIf (field = .message → condition block)
            (memberField brackets (readMessage brackets)) field.key
            (memberValue ⟨name, kind, shape, some block⟩ (writeSpec block)
              field) :=
        memberField_readOnlyIf _ brackets fun _ => readsBlock
      have reading := structured_readOnlyIf .member each {}
        MemberDraft.complete (memberArray brackets (readMessage brackets))
      refine reading.mono ?_
      rintro holds _ ⟨⟩
      exact holds .message (by decide) rfl

/-- What is written for a message, a list of members or a member is read only
where enough brackets may be opened: three for each level of a message, but for
one that the innermost message does not need. -/
theorem written_readOnlyIf (brackets : Nat) :
    (∀ spec : MessageSpec, ReadOnlyIf (3 * spec.levels ≤ brackets + 1)
        (readMessage brackets) (writeSpec spec).toList) ∧
      (∀ members : List MemberSpec,
        ReadOnlyIf (∃ inner, brackets = inner + 1 ∧
            ∀ member ∈ members, BlockWithin inner member)
          (readMembers brackets) (writeList members).toList) ∧
      ∀ member : MemberSpec, ReadOnlyIf (BlockWithin brackets member)
        (readMember brackets) (writeMember member).toList := by
  induction brackets with
  | zero =>
      refine ⟨?message, ?members, fun member => tooDeep_readOnlyIf _ _ _⟩
      case message =>
        rintro ⟨⟨type, members⟩⟩
        rw [writeSpec]
        exact tooDeep_readOnlyIf _ _ _
      case members =>
        intro members rest _
        rw [writeList_toList]
        exact ensures_error _ _
  | succ brackets ih =>
      obtain ⟨readsMessage, readsMembers, readsMember⟩ := ih
      refine ⟨fun spec => ?message, fun members => ?members,
        readMember_readOnlyIf readsMessage⟩
      case message =>
        refine (readMessage_readOnlyIf (readsMembers spec.members)).mono ?_
        rintro ⟨inner, rfl, within⟩
        exact MessageSpec.levels_within within
      case members =>
        rw [readMembers, writeList_toList]
        have each (member : MemberSpec) (_ : member ∈ members) :=
          readsMember member
        have reading := listed_readOnlyIf each fun member _ =>
          writeMember_opens member
        exact reading.mono fun within => ⟨brackets, rfl, within⟩

/-- The text that is written for a specification with 43 levels or more is not
read. -/
theorem readSpec_writeSpec_ne_ok {spec : MessageSpec} (deep : 43 ≤ spec.levels)
    (spec' : MessageSpec) : readSpec (writeSpec spec) ≠ .ok spec' := by
  have reading := (written_readOnlyIf levelLimit).1 spec [] .nil
  rw [List.append_nil] at reading
  have shallow : Ensures (readSpec (writeSpec spec)) fun _ =>
      3 * spec.levels ≤ levelLimit + 1 := by
    unfold readSpec
    refine reading.bind ?_
    rintro ⟨spec', rest⟩ ⟨within, -⟩
    dsimp only
    split
    · exact ensures_ok within
    · exact ensures_error _ _
  intro isRead
  have within := shallow spec' isRead
  rw [levelLimit] at within
  omega

end Written

section Chains

/-- A message that nests further messages to the given depth. -/
def chain : (depth : Nat) → MessageSpec
  | 0 => .mk ⟨⟨"", "A"⟩, []⟩
  | depth + 1 => .mk ⟨⟨"", "A"⟩, [⟨"x", .message, {}, some (chain depth)⟩]⟩

/-- A text for it that leaves out whatever may be left out. -/
def chainText : (depth : Nat) → String
  | 0 => writeObject [writeEntry "name" (writeText "A")]
  | depth + 1 =>
    writeObject [writeEntry "name" (writeText "A"),
      writeEntry "members" ("[" ++ writeObject
        [writeEntry "name" (writeText "x"),
          writeEntry "type" (writeText "message"),
          writeEntry "message" (chainText depth)] ++ "]")]

theorem chain_levels (depth : Nat) : (chain depth).levels = depth + 1 := by
  induction depth with
  | zero => rfl
  | succ depth ih =>
      change max (chain depth).levels 0 + 1 = depth + 1 + 1
      rw [ih, Nat.max_zero]

theorem chainText_bracketed (depth : Nat) :
    Bracketed (chainText depth).toList := by
  cases depth <;>
  · rw [chainText, writeObject_toList]
    exact ⟨_, .inl rfl⟩

/-- The text of a chain is the only one that is used for it here. -/
def PresentsNested (depth : Nat) : List Char → Prop :=
  (· = (chainText depth).toList)

/-- The texts that present the member that nests a chain. -/
def PresentsLink (depth : Nat) : List Char → Prop :=
  PresentsStruct (memberWriting "x" .message {} (some (PresentsNested depth)))

theorem presentsLink (depth : Nat) :
    PresentsLink depth (writeObject [writeEntry "name" (writeText "x"),
      writeEntry "type" (writeText "message"),
      writeEntry "message" (chainText depth)]).toList := by
  have last : Entries
      (memberWriting "x" .message {} (some (PresentsNested depth))) [.message]
      ([writeEntry "message" (chainText depth)].map String.toList) :=
    have nests : PresentsNested depth (chainText depth).toList := rfl
    .writeEntry MemberField.message nests .nil
  have kind : PresentsKind .message (writeText "message").toList :=
    .spelling (spells_name .message) (quoted_writeText _)
  rw [writeObject_toList]
  refine .object (.writeEntry MemberField.name (quoted_writeText _)
    (.writeEntry MemberField.kind kind last)) (by decide) fun field omitted => ?_
  cases field <;> simp [memberWriting] at omitted ⊢

theorem presentsChain (depth : Nat) :
    PresentsStruct (messageWriting ⟨"", "A"⟩ [PresentsLink depth])
      (chainText (depth + 1)).toList := by
  have list : PresentsList [PresentsLink depth] ("[" ++ writeObject
      [writeEntry "name" (writeText "x"),
        writeEntry "type" (writeText "message"),
        writeEntry "message" (chainText depth)] ++ "]").toList :=
    ⟨_, .cons (presentsLink depth) .nil, by simp [enclosed]⟩
  have last : Entries (messageWriting ⟨"", "A"⟩ [PresentsLink depth]) [.members]
      ([writeEntry "members" _].map String.toList) :=
    .writeEntry MessageField.members list .nil
  rw [chainText, writeObject_toList]
  refine .object (.writeEntry MessageField.name (quoted_writeText _) last)
    (by decide) fun field omitted => ?_
  cases field <;> simp [messageWriting] at omitted ⊢

/-- Every message of the chain but the innermost takes three brackets. -/
theorem readMessage_reads_chain (depth : Nat) :
    Reads (readMessage (3 * depth + 1)) (PresentsNested depth) (chain depth) := by
  induction depth with
  | zero =>
      rintro _ rest rfl _
      rfl
  | succ depth ih =>
      have readsBlock := readBlock_reads_some ih fun _ isText =>
        isText ▸ chainText_bracketed depth
      have readsLink : Reads (readMember (3 * depth + 2)) (PresentsLink depth)
          ⟨"x", .message, {}, some (chain depth)⟩ :=
        readMember_reads_of_block (Nat.succ_ne_zero _)
          ⟨"x", .message, {}, some (chain depth)⟩ readsBlock nofun
      have readsList : Reads (readMembers (3 * depth + 3))
          (PresentsList [PresentsLink depth])
          [⟨"x", .message, {}, some (chain depth)⟩] := by
        rw [readMembers]
        refine listed_reads (.cons readsLink .nil) fun _ isPresented _ presents => ?_
        obtain rfl := List.mem_singleton.mp isPresented
        exact presents.bracketed.opens
      have reads := readMessage_reads_of_members ⟨"", "A"⟩ readsList nofun
      rintro _ rest rfl ends
      exact reads _ rest (presentsChain depth) ends

/-- A text with 43 message levels is read. -/
theorem readSpec_chainText : readSpec (chainText 42) = .ok (chain 42) := by
  have read := readMessage_reads_chain 42 _ [] rfl .nil
  rw [List.append_nil] at read
  rw [readSpec, levelLimit, read]
  rfl

end Chains

end Metastring.Json
