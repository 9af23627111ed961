import Metastring.Compile
import Metastring.Proofs.Numerals
import Metastring.Proofs.ScopeSegments
import Metastring.Proofs.WalkBudget

/-!
# What a metastring shows of a message type

A metastring shows the outline of a message type: its mangled name and, in
order, the name of each member, how it repeats, and its code or the outline of
its nested message.  It does not show more.  Scopes that are mangled alike,
leaves with the same code, and the maximum of a sequence that is declared and
the one that is assumed cannot be told apart.

This file defines the outline of a descriptor and how outlines are spelled, and
shows that a descriptor that compiles has an outline whose spelling is its
metastring.
-/

namespace Metastring

/-- How a member repeats, as far as it is shown. -/
inductive Repetition where
  | single
  | array (size : Nat)
  | sequence (maximum : Nat)
deriving DecidableEq

/-- A member as far as it is shown. -/
structure OutlineEntry (κ : Type) where
  name : String
  repetition : Repetition
  content : κ

/-- What is shown of the type of a member, or of a message as a whole. -/
inductive Outline where
  | leaf (code : Char)
  | message (mangled : String) (entries : List (OutlineEntry Outline))

section Erasure

/-- How a container is shown.  A sequence without a bound has the maximum that
the options state. -/
def Container.repetition (options : Options) : Container → Repetition
  | .single => .single
  | .array size => .array size.toNat
  | .boundedSequence maximum => .sequence maximum.toNat
  | .unboundedSequence => .sequence options.unboundedMaximum.toNat

mutual

/-- The outline of a descriptor, unless a kind is unknown or a nested message is
missing. -/
def Descriptor.outline? (options : Options) : Descriptor → Option Outline
  | .mk ⟨type, members⟩ =>
    (membersOutline? options members).map (.message type.mangled)
termination_by structural descriptor => descriptor

/-- The entries that show a list of members. -/
def membersOutline? (options : Options) :
    List (Member Kind Descriptor) → Option (List (OutlineEntry Outline))
  | [] => some []
  | member :: rest => do
    let entry ← memberOutline? options member
    let entries ← membersOutline? options rest
    return entry :: entries
termination_by structural members => members

def memberOutline? (options : Options) :
    Member Kind Descriptor → Option (OutlineEntry Outline)
  | ⟨name, .leaf leaf, shape, _⟩ =>
    some ⟨name, shape.container.repetition options, .leaf leaf.code⟩
  | ⟨name, .message, shape, some nested⟩ =>
    (nested.outline? options).map
      (⟨name, shape.container.repetition options, ·⟩)
  | ⟨_, .message, _, none⟩ | ⟨_, .unknown _, _, _⟩ => none
termination_by structural member => member

end

end Erasure

section Spelling

/-- The letters of the field that carries a name. -/
def nameLetters (name : String) : List Char :=
  "name=".toList ++ (name.toList ++ ['_'])

/-- The letters of the token in front of a member that repeats. -/
def Repetition.opening (name : String) : Repetition → List Char
  | .single => []
  | .array size =>
    ['[', '('] ++ nameLetters name ++ [','] ++ "dimension=".toList ++
      Nat.toDigits 10 size ++ [')']
  | .sequence maximum =>
    ['<', '('] ++ nameLetters name ++ [','] ++ "maximum=".toList ++
      Nat.toDigits 10 maximum ++ [')']

/-- The name shown behind the opening. -/
def Repetition.label (name : String) : Repetition → Option String
  | .single => some name
  | .array _ | .sequence _ => none

mutual

/-- The letters of an outline under the given label. -/
def Outline.spelling (label : Option String) : Outline → List Char
  | .leaf code => [code, '('] ++ (label.map nameLetters).getD [] ++ [')']
  | .message mangled entries =>
    ['\x7b', '('] ++ (label.map (nameLetters · ++ [','])).getD [] ++
      "type=".toList ++ mangled.toList ++ [','] ++ "member=".toList ++
      Nat.toDigits 10 entries.length ++ [')'] ++ entriesSpelling entries
termination_by structural outline => outline

def entriesSpelling : List (OutlineEntry Outline) → List Char
  | [] => []
  | entry :: rest => entrySpelling entry ++ entriesSpelling rest
termination_by structural entries => entries

def entrySpelling : OutlineEntry Outline → List Char
  | ⟨name, repetition, content⟩ =>
    repetition.opening name ++ content.spelling (repetition.label name)
termination_by structural entry => entry

end

end Spelling

section Tokens

theorem nameField_toList (name : String) :
    (nameField name).toList = nameLetters name := by
  rw [nameField, String.toList_append, String.toList_append, List.append_assoc]
  rfl

theorem Container.token_toList (container : Container) (options : Options)
    (name : String) :
    (container.token options name).toList =
      (container.repetition options).opening name := by
  -- What is left after the lemmas are the letters of fixed tokens.
  cases container <;>
    simp only [token, repetition, Repetition.opening, String.toList_append,
      nameField_toList, decimal_toList, List.append_assoc] <;> rfl

theorem Member.label_eq {ρ : Type} (member : Member Kind ρ)
    (options : Options) :
    member.label =
      (member.shape.container.repetition options).label member.name := by
  unfold Member.label
  cases member.shape.container <;> rfl

theorem Leaf.token_toList (leaf : Leaf) (label : Option String) :
    (leaf.token label).toList = (Outline.leaf leaf.code).spelling label := by
  rw [Outline.spelling]
  cases label <;> simp [token, nameField_toList]

theorem Layout.token_toList {ρ : Type} (layout : Layout Kind ρ)
    (label : Option String) {entries : List (OutlineEntry Outline)}
    (sameLength : entries.length = layout.members.length) :
    (layout.token label).toList ++ entriesSpelling entries =
      (Outline.message layout.type.mangled entries).spelling label := by
  rw [Outline.spelling, sameLength]
  cases label <;>
    simp only [token, Option.map, Option.getD, String.toList_append,
      nameField_toList, decimal_toList, List.append_assoc] <;> rfl

end Tokens

section Legibility

/-- A descriptor is another or is nested in it at some depth. -/
inductive Descriptor.Contains : Descriptor → Descriptor → Prop
  | self {descriptor : Descriptor} : Contains descriptor descriptor
  | nested {outer next inner : Descriptor} {member : Member Kind Descriptor}
      (isMember : member ∈ outer.layout.members)
      (isMessage : member.kind = .message) (refers : member.nested = some next)
      (contains : next.Contains inner) : Contains outer inner

/-- What holds of a descriptor and of all that is nested in it holds of the
descriptor and of all that is nested in its members. -/
theorem Descriptor.forall_contains_iff {property : Descriptor → Prop}
    (descriptor : Descriptor) :
    (∀ inner, descriptor.Contains inner → property inner) ↔
      property descriptor ∧
        ∀ member ∈ descriptor.layout.members, ∀ next,
          member.kind = .message → member.nested = some next →
            ∀ inner, next.Contains inner → property inner := by
  constructor
  · intro holds
    exact ⟨holds _ .self, fun member isMember next isMessage refers inner
      contains => holds inner (.nested isMember isMessage refers contains)⟩
  · rintro ⟨here, inside⟩ inner contains
    cases contains with
    | self => exact here
    | nested isMember isMessage refers contains =>
        exact inside _ isMember _ isMessage refers inner contains

/-- Nowhere in a descriptor does a name or a scope hold a letter that ends the
field it is shown in. -/
structure Descriptor.Legible (descriptor : Descriptor) : Prop where
  type_clean : ∀ inner, descriptor.Contains inner →
    ',' ∉ inner.layout.type.scope.toList ∧ ',' ∉ inner.layout.type.name.toList
  member_clean : ∀ inner, descriptor.Contains inner →
    ∀ member ∈ inner.layout.members,
      ',' ∉ member.name.toList ∧ ')' ∉ member.name.toList

/-- An outline whose fields can be told from what follows them, and whose codes
can be told from the other tokens. -/
inductive Outline.Legible : Outline → Prop
  | leaf {code : Char} (isCode : code ∉ ['{', '[', '<']) :
      Legible (.leaf code)
  | message {mangled : String} {entries : List (OutlineEntry Outline)}
      (mangled_clean : ',' ∉ mangled.toList)
      (names_clean : ∀ entry ∈ entries,
        ',' ∉ entry.name.toList ∧ ')' ∉ entry.name.toList)
      (contents_legible : ∀ entry ∈ entries, entry.content.Legible) :
      Legible (.message mangled entries)

/-- A member has a name that can be shown, and nests nothing but legible
descriptors. -/
def Member.Legible (member : Member Kind Descriptor) : Prop :=
  (',' ∉ member.name.toList ∧ ')' ∉ member.name.toList) ∧
    ∀ inner, member.kind = .message → member.nested = some inner →
      inner.Legible

/-- A descriptor is legible when its own names and scope can be shown and its
members are legible. -/
theorem Descriptor.legible_iff (descriptor : Descriptor) :
    descriptor.Legible ↔
      (',' ∉ descriptor.layout.type.scope.toList ∧
          ',' ∉ descriptor.layout.type.name.toList) ∧
        ∀ member ∈ descriptor.layout.members, member.Legible := by
  have clean_iff (inner : Descriptor) :
      inner.Legible ↔ ∀ deeper, inner.Contains deeper →
        (',' ∉ deeper.layout.type.scope.toList ∧
          ',' ∉ deeper.layout.type.name.toList) ∧
        ∀ member ∈ deeper.layout.members,
          ',' ∉ member.name.toList ∧ ')' ∉ member.name.toList :=
    ⟨fun legible deeper contains => ⟨legible.type_clean deeper contains,
      legible.member_clean deeper contains⟩,
      fun clean => ⟨fun deeper contains => (clean deeper contains).1,
        fun deeper contains => (clean deeper contains).2⟩⟩
  rw [clean_iff, forall_contains_iff, and_assoc]
  refine and_congr_right fun _ => ?_
  simp only [← clean_iff, ← forall₂_and, Member.Legible]

theorem Leaf.code_legible (leaf : Leaf) : leaf.code ∉ ['{', '[', '<'] := by
  cases leaf <;> decide

/-- Apart from the letters that are added to it, the mangled name of a type
holds a letter only if its scope or its name does. -/
theorem ScopedName.not_mem_mangled {type : ScopedName} {letter : Char}
    (notAdded : letter ∉ "::dds_".toList)
    (scopeClean : letter ∉ type.scope.toList)
    (nameClean : letter ∉ type.name.toList) : letter ∉ type.mangled.toList := by
  obtain ⟨notColon, joined, marked, closed⟩ : letter ≠ ':' ∧
      letter ∉ "::".toList ∧ letter ∉ "dds_::".toList ∧
        letter ∉ "_".toList := by
    simp_all
  have canonicalClean : letter ∉ type.canonicalScope.toList := by
    rw [canonicalScope, String.toList_ofList, joinScopes_eq_replacePairs]
    intro shown
    rcases mem_replacePairs shown with isLetter | isColon
    · exact scopeClean isLetter
    · exact notColon isColon
  unfold mangled
  split <;>
    simp only [String.toList_append, String.toList_empty, List.mem_append,
      List.not_mem_nil, nameClean, canonicalClean, joined, marked, closed,
      or_self, not_false_eq_true]

/-- Shown names hold no letter that ends their fields, and contents are
legible. -/
def EntriesLegible (entries : List (OutlineEntry Outline)) : Prop :=
  ∀ entry ∈ entries, (',' ∉ entry.name.toList ∧ ')' ∉ entry.name.toList) ∧
    entry.content.Legible

mutual

/-- The outline of a legible descriptor is legible. -/
theorem Descriptor.outline?_legible (options : Options) :
    ∀ (descriptor : Descriptor) {outline : Outline}, descriptor.Legible →
      descriptor.outline? options = some outline → outline.Legible
  | .mk ⟨type, members⟩, outline, legible, shown => by
    rw [Descriptor.outline?, Option.map_eq_some_iff] at shown
    obtain ⟨entries, shownMembers, rfl⟩ := shown
    obtain ⟨typeClean, membersLegible⟩ := (Descriptor.legible_iff _).mp legible
    have entriesLegible :=
      membersOutline?_legible options members membersLegible shownMembers
    exact .message (ScopedName.not_mem_mangled (by decide) typeClean.1 typeClean.2)
      (fun entry isEntry => (entriesLegible entry isEntry).1)
      (fun entry isEntry => (entriesLegible entry isEntry).2)
termination_by structural descriptor => descriptor

theorem membersOutline?_legible (options : Options) :
    ∀ (members : List (Member Kind Descriptor))
      {entries : List (OutlineEntry Outline)},
      (∀ member ∈ members, member.Legible) →
        membersOutline? options members = some entries → EntriesLegible entries
  | [], entries, _, shown => by
    obtain rfl := Option.some.inj shown
    exact fun entry isEntry => absurd isEntry List.not_mem_nil
  | member :: members, entries, legible, shown => by
    simp only [membersOutline?, Option.bind_eq_bind, Option.bind_eq_some_iff]
      at shown
    obtain ⟨entry, shownFirst, others, shownOthers, same⟩ := shown
    obtain rfl := Option.some.inj same
    have first := memberOutline?_legible options member
      (legible member List.mem_cons_self) shownFirst
    have rest := membersOutline?_legible options members
      (fun other later => legible other (List.mem_cons_of_mem member later))
      shownOthers
    intro other isEntry
    rcases List.mem_cons.mp isEntry with rfl | later
    · exact first
    · exact rest other later
termination_by structural members => members

theorem memberOutline?_legible (options : Options) :
    ∀ (member : Member Kind Descriptor) {entry : OutlineEntry Outline},
      member.Legible → memberOutline? options member = some entry →
        (',' ∉ entry.name.toList ∧ ')' ∉ entry.name.toList) ∧
          entry.content.Legible
  | ⟨name, .leaf leaf, shape, _⟩, entry, legible, shown => by
    obtain rfl := Option.some.inj shown
    exact ⟨legible.1, .leaf leaf.code_legible⟩
  | ⟨name, .message, shape, some nested⟩, entry, legible, shown => by
    rw [memberOutline?, Option.map_eq_some_iff] at shown
    obtain ⟨outline, shownNested, rfl⟩ := shown
    exact ⟨legible.1, nested.outline?_legible options
      (legible.2 nested rfl rfl) shownNested⟩
  | ⟨_, .message, _, none⟩, entry, _, shown => nomatch shown
  | ⟨_, .unknown _, _, _⟩, entry, _, shown => nomatch shown
termination_by structural member => member

end

end Legibility

section Walks

variable {options : Options}

/-- A walked member has an entry that is spelled by its segment, provided the
walk of a nested message spells an outline. -/
theorem exists_entry_of_segment {segment : String}
    {nested : Option String → Descriptor → Except CompileError String}
    {member : Member Kind Descriptor}
    (nestedSpells : ∀ inner text, nested member.label inner = .ok text →
      ∃ outline, inner.outline? options = some outline ∧
        text.toList = outline.spelling member.label)
    (walked : member.segment options nested = .ok segment) :
    ∃ entry, memberOutline? options member = some entry ∧
      segment.toList = entrySpelling entry := by
  rw [Member.label_eq member options] at nestedSpells
  unfold Member.segment at walked
  rw [Member.label_eq member options] at walked
  obtain ⟨name, kind, shape, reference⟩ := member
  cases kind with
  | leaf leaf =>
      obtain rfl := Except.ok.inj walked
      refine ⟨_, rfl, ?_⟩
      rw [String.toList_append, Container.token_toList, Leaf.token_toList,
        entrySpelling]
  | unknown id => contradiction
  | message =>
      cases reference with
      | none => contradiction
      | some inner =>
          dsimp only at walked nestedSpells
          cases walkedInner : nested
              ((shape.container.repetition options).label name) inner with
          | error fault => simp [walkedInner, Except.map] at walked
          | ok text =>
              rw [walkedInner] at walked
              obtain rfl := Except.ok.inj walked
              obtain ⟨outline, shown, spelled⟩ :=
                nestedSpells inner text walkedInner
              refine ⟨_, by rw [memberOutline?, shown]; rfl, ?_⟩
              rw [String.toList_append, Container.token_toList, spelled,
                entrySpelling]

theorem exists_entries_of_segments
    {nested : Option String → Descriptor → Except CompileError String}
    (nestedSpells : ∀ label inner text, nested label inner = .ok text →
      ∃ outline, inner.outline? options = some outline ∧
        text.toList = outline.spelling label)
    {members : List (Member Kind Descriptor)} {segments : List String}
    (walked : List.Forall₂ (fun member segment =>
      Member.segment options nested member = .ok segment) members segments) :
    ∃ entries, membersOutline? options members = some entries ∧
      entries.length = members.length ∧
        (String.join segments).toList = entriesSpelling entries := by
  induction walked with
  | nil => exact ⟨[], rfl, rfl, rfl⟩
  | @cons member segment members segments walked _ ih =>
      obtain ⟨entry, shown, spelled⟩ :=
        exists_entry_of_segment (nestedSpells _) walked
      obtain ⟨entries, shownRest, sameLength, spelledRest⟩ := ih
      refine ⟨entry :: entries, ?_, congrArg (· + 1) sameLength, ?_⟩
      · rw [membersOutline?, shown, shownRest]
        rfl
      · rw [String.join_cons, String.toList_append, spelled, spelledRest,
          entriesSpelling]

/-- A walked descriptor has an outline that is spelled by its tokens. -/
theorem exists_outline_of_walk {budget : Nat} {opened : List String}
    {label : Option String} {descriptor : Descriptor} {text : String}
    (walked : walk options Descriptor.describe budget opened label
      descriptor.layout = .ok text) :
    ∃ outline, descriptor.outline? options = some outline ∧
      text.toList = outline.spelling label := by
  induction budget generalizing opened label descriptor text with
  | zero => contradiction
  | succ budget ih =>
      obtain ⟨segments, visited, rfl⟩ := exists_segments_of_walk walked
      obtain ⟨entries, shown, sameLength, spelled⟩ :=
        exists_entries_of_segments (fun label inner text => ih) visited
      obtain ⟨⟨type, members⟩⟩ := descriptor
      refine ⟨.message type.mangled entries, ?_, ?_⟩
      · rw [Descriptor.outline?]
        exact congrArg (Option.map (Outline.message type.mangled)) shown
      · rw [String.toList_append, spelled]
        exact Layout.token_toList ⟨type, members⟩ label sameLength

/-- The metastring of a descriptor is the spelling of its outline behind the
version mark. -/
theorem Descriptor.exists_outline_of_compiled {descriptor : Descriptor}
    {text : String}
    (compiled : (descriptor.tryCompile options).outcome = .ok text) :
    ∃ outline, descriptor.outline? options = some outline ∧
      text.toList = formatVersion.toList ++ outline.spelling none := by
  have compiled' : descriptor.metastring options = .ok text :=
    (Report.ofLayout_outcome _ _ _ _).symm.trans compiled
  unfold Descriptor.metastring Metastring.metastring at compiled'
  change (walk options Descriptor.describe _ _ _ _).map _ = _ at compiled'
  cases walked : walk options Descriptor.describe descriptor.height [] none
      descriptor.layout with
  | error fault => simp [walked, Except.map] at compiled'
  | ok text' =>
      rw [walked] at compiled'
      obtain rfl := Except.ok.inj compiled'
      obtain ⟨outline, shown, spelled⟩ := exists_outline_of_walk walked
      exact ⟨outline, shown, by rw [String.toList_append, spelled]⟩

end Walks

end Metastring
