import Metastring.DescriptorFile

/-!
# Descriptor files nest at most 43 message levels

A reader opens a collection for a message, one for the list of its members and
one for the member that nests the next message, whether the collections are
keyed or positional.  So every further message level takes three collections of
the limited number that may be open at once.  The innermost message takes one:
its members may be left out.

What a reader passes over is not limited, and an alias may be followed from any
level.  Neither gets a message below the levels that are left, because both are
read with the levels of the place where they are read.
-/

namespace Metastring

section Levels

theorem membersHeight_le_iff (members : List (Member Kind Descriptor))
    (bound : Nat) :
    membersHeight members ≤ bound ↔
      ∀ member ∈ members, memberHeight member ≤ bound := by
  induction members with
  | nil => simp [membersHeight]
  | cons member members ih =>
      rw [membersHeight, Nat.max_le, ih, List.forall_mem_cons]

theorem memberHeight_le_iff (member : MemberSpec) (bound : Nat) :
    memberHeight (memberDescriptor member) ≤ bound ↔
      ∀ block, member.nested = some block → block.levels ≤ bound := by
  obtain ⟨name, kind, shape, nested⟩ := member
  cases nested with
  | none => simp [memberDescriptor, memberHeight]
  | some block => simp [memberDescriptor, memberHeight, MessageSpec.levels]

theorem memberDescriptors_eq_map (members : List MemberSpec) :
    memberDescriptors members = members.map memberDescriptor := by
  induction members with
  | nil => rfl
  | cons member members ih => rw [memberDescriptors, ih, List.map_cons]

/-- A specification has at most one level more than the blocks of its
members. -/
theorem MessageSpec.levels_le_iff (spec : MessageSpec) (bound : Nat) :
    spec.levels ≤ bound + 1 ↔
      ∀ member ∈ spec.members, ∀ block, member.nested = some block →
        block.levels ≤ bound := by
  obtain ⟨⟨type, members⟩⟩ := spec
  rw [levels, descriptor, Descriptor.height, Nat.add_le_add_iff_right,
    memberDescriptors_eq_map, membersHeight_le_iff, List.forall_mem_map]
  simp only [memberHeight_le_iff]
  rfl

/-- The block of a member, if it has one, can be written with a number of
brackets, three for each of its levels. -/
def BlockWithin (brackets : Nat) (member : MemberSpec) : Prop :=
  ∀ block, member.nested = some block → 3 * block.levels ≤ brackets

theorem MessageSpec.levels_within {spec : MessageSpec} {brackets : Nat}
    (within : ∀ member ∈ spec.members, BlockWithin brackets member) :
    3 * spec.levels ≤ brackets + 3 := by
  have bounded : spec.levels ≤ brackets / 3 + 1 := by
    refine (levels_le_iff spec _).mpr fun member isMember block refers => ?_
    have small := within member isMember block refers
    omega
  omega

end Levels

section Results

variable {α β : Type}

/-- If a result is a value, it has a property. -/
def Ensures (result : Decoded α) (property : α → Prop) : Prop :=
  ∀ value, result = .ok value → property value

theorem ensures_ok {property : α → Prop} {value : α} (holds : property value) :
    Ensures (.ok value) property := by
  rintro _ ⟨⟩
  exact holds

theorem ensures_error (error : DecodeError) (property : α → Prop) :
    Ensures (.error error) property :=
  nofun

theorem ensures_true (result : Decoded α) : Ensures result fun _ => True :=
  fun _ _ => trivial

theorem Ensures.bind {first : Decoded α} {rest : α → Decoded β}
    {property : α → Prop} {property' : β → Prop}
    (ensures : Ensures first property)
    (ensuresRest : ∀ value, property value → Ensures (rest value) property') :
    Ensures (first >>= rest) property' := by
  intro result isResult
  cases first with
  | error error => contradiction
  | ok value => exact ensuresRest value (ensures value rfl) result isResult

theorem Ensures.map {result : Decoded α} {property : α → Prop}
    {property' : β → Prop} {convert : α → β} (ensures : Ensures result property)
    (keeps : ∀ value, property value → property' (convert value)) :
    Ensures (result.map convert) property' := by
  intro converted isConverted
  cases result with
  | error error => contradiction
  | ok value =>
      obtain rfl := Except.ok.inj isConverted
      exact keeps value (ensures value rfl)

theorem Ensures.mono {result : Decoded α} {property property' : α → Prop}
    (ensures : Ensures result property)
    (implies : ∀ value, property value → property' value) :
    Ensures result property' :=
  fun value isValue => implies value (ensures value isValue)

end Results

section Drafts

/-- The members of a draft, as far as they are known, have a property. -/
def MessageDraft.MembersHave (property : MemberSpec → Prop)
    (draft : MessageDraft) : Prop :=
  ∀ members, draft.members = some members → ∀ member ∈ members, property member

/-- The block of a draft, if one is known, has a property. -/
def MemberDraft.BlockHas (property : MessageSpec → Prop) (draft : MemberDraft) :
    Prop :=
  ∀ block, draft.message = some (some block) → property block

theorem MessageDraft.complete_ensures {draft : MessageDraft}
    {property : MemberSpec → Prop} (has : draft.MembersHave property) :
    Ensures draft.complete fun spec => ∀ member ∈ spec.members, property member := by
  unfold complete
  split
  · exact ensures_error _ _
  · refine ensures_ok ?_
    obtain ⟨scope, name, members⟩ := draft
    cases members with
    | none => simp [MessageSpec.members, MessageSpec.layout]
    | some members => exact has members rfl

theorem MemberDraft.complete_ensures {draft : MemberDraft}
    {property : MessageSpec → Prop} (has : draft.BlockHas property) :
    Ensures draft.complete fun member =>
      ∀ block, member.nested = some block → property block := by
  unfold complete
  split
  · exact ensures_error _ _
  · exact ensures_error _ _
  · refine ensures_ok fun block refers => has block ?_
    obtain ⟨_, _, _, _, _, message⟩ := draft
    cases message with
    | none => contradiction
    | some message => exact congrArg some refers

end Drafts

namespace Json

section Readers

variable {α δ : Type} {property : α → Prop}

/-- What a reader reads has a property. -/
def ReadsOnly (property : α → Prop) (read : List Char → Decoded (α × List Char)) :
    Prop :=
  ∀ text, Ensures (read text) fun result => property result.1

theorem tooDeep_readsOnly : ReadsOnly property tooDeep :=
  fun _ => ensures_error _ _

theorem structured_readsOnly (wanted : Wanted)
    {object array : List Char → Decoded (α × List Char)}
    (readsObject : ReadsOnly property object)
    (readsArray : ReadsOnly property array) :
    ReadsOnly property (structured wanted object array) := by
  intro text
  unfold structured
  split
  · exact readsObject _
  · exact readsArray _
  · exact ensures_error _ _

theorem listed_readsOnly {array : List Char → Decoded (α × List Char)}
    (readsArray : ReadsOnly property array) :
    ReadsOnly property (listed array) := by
  intro text
  unfold listed
  split
  · exact readsArray _
  · exact ensures_error _ _

theorem elementsWithin_readsOnly {read : List Char → Decoded (α × List Char)}
    (reads : ReadsOnly property read) (bound : Nat) :
    ReadsOnly (∀ value ∈ ·, property value) (elementsWithin read bound) := by
  induction bound with
  | zero => exact fun text => ensures_error _ _
  | succ bound ih =>
      intro text
      unfold elementsWithin
      split
      · exact ensures_ok (List.forall_mem_nil _)
      · refine (reads _).bind ?_
        rintro ⟨value, rest⟩ first
        refine (ih rest).bind ?_
        rintro ⟨values, rest⟩ others
        exact ensures_ok (List.forall_mem_cons.mpr ⟨first, others⟩)
      · exact ensures_error _ _

theorem elements_readsOnly {read : List Char → Decoded (α × List Char)}
    (reads : ReadsOnly property read) :
    ReadsOnly (∀ value ∈ ·, property value) (elements read) := by
  intro text
  unfold elements
  split
  · exact ensures_ok (List.forall_mem_nil _)
  · refine (reads _).bind ?_
    rintro ⟨value, rest⟩ first
    refine (elementsWithin_readsOnly reads _ rest).bind ?_
    rintro ⟨values, _⟩ others
    exact ensures_ok (List.forall_mem_cons.mpr ⟨first, others⟩)

theorem element_readsOnly {read : List Char → Decoded (α × List Char)}
    (reads : ReadsOnly property read) (isFirst : Bool) :
    ReadsOnly (fun given => ∀ value ∈ given, property value)
      (element read isFirst) := by
  intro text
  unfold element
  split
  · exact ensures_ok fun _ isGiven => absurd isGiven (Option.not_mem_none _)
  · have readHere (text : List Char) :
        Ensures ((read text).bind fun result => .ok (some result.1, result.2))
          fun result => ∀ value ∈ result.1, property value :=
      (reads text).bind fun _ holds =>
        ensures_ok fun _ isGiven => Option.some.inj isGiven ▸ holds
    dsimp only
    split
    · exact (ensures_true _).bind fun text _ => readHere text
    · exact (ensures_true _).bind fun text _ => readHere text

variable {field : String → δ → List Char → Decoded (δ × List Char)}
  {keeps : δ → Prop}
  (readsField : ∀ key draft, keeps draft → ReadsOnly keeps (field key draft))
include readsField

theorem fieldAt_readsOnly {draft : δ} (kept : keeps draft) :
    ReadsOnly keeps (fieldAt field draft) := by
  intro text
  unfold fieldAt
  refine (ensures_true _).bind fun text _ => ?_
  refine (ensures_true _).bind ?_
  rintro ⟨key, rest⟩ _
  exact readsField key draft kept rest

theorem fieldsWithin_readsOnly (bound : Nat) {draft : δ} (kept : keeps draft) :
    ReadsOnly keeps (fieldsWithin field bound draft) := by
  induction bound generalizing draft with
  | zero => exact fun text => ensures_error _ _
  | succ bound ih =>
      intro text
      unfold fieldsWithin
      split
      · exact ensures_ok kept
      · refine (fieldAt_readsOnly readsField kept _).bind ?_
        rintro ⟨draft', rest⟩ kept'
        exact ih kept' rest
      · exact ensures_error _ _

theorem fields_readsOnly {draft : δ} (kept : keeps draft) :
    ReadsOnly keeps (fields field draft) := by
  intro text
  unfold fields
  split
  · exact ensures_ok kept
  · refine (fieldAt_readsOnly readsField kept _).bind ?_
    rintro ⟨draft', rest⟩ kept'
    exact fieldsWithin_readsOnly readsField _ kept' rest

end Readers

section Messages

variable {readMembers : List Char → Decoded (List MemberSpec × List Char)}
  {property : MemberSpec → Prop}
  (readsMembers : ReadsOnly (∀ member ∈ ·, property member) readMembers)
include readsMembers

theorem messageField_readsOnly (key : String) {draft : MessageDraft}
    (has : draft.MembersHave property) :
    ReadsOnly (MessageDraft.MembersHave property)
      (messageField readMembers key draft) := by
  intro text
  unfold messageField
  split
  · refine (ensures_true _).bind fun text _ => ?_
    exact (ensures_true _).bind fun rest _ => ensures_ok has
  split
  · exact ensures_error _ _
  refine (ensures_true _).bind fun text _ => ?_
  split
  · exact (ensures_true _).bind fun _ _ => ensures_ok has
  · exact (ensures_true _).bind fun _ _ => ensures_ok has
  · refine (readsMembers text).bind ?_
    rintro ⟨members, rest⟩ membersHave
    refine ensures_ok ?_
    rintro _ ⟨⟩
    exact membersHave

theorem messageObject_readsOnly :
    ReadsOnly (fun spec => ∀ member ∈ spec.members, property member)
      (messageObject readMembers) := by
  intro text
  have start : MessageDraft.MembersHave property {} := nofun
  refine (fields_readsOnly (fun key draft has =>
    messageField_readsOnly readsMembers key has) start text).bind ?_
  rintro ⟨draft, rest⟩ has
  exact (MessageDraft.complete_ensures has).bind fun _ holds => ensures_ok holds

theorem messageArray_readsOnly :
    ReadsOnly (fun spec => ∀ member ∈ spec.members, property member)
      (messageArray readMembers) := by
  intro text
  unfold messageArray
  refine (ensures_true _).bind ?_
  rintro ⟨scope, text⟩ _
  refine (ensures_true _).bind ?_
  rintro ⟨name, text⟩ _
  dsimp only
  split
  · exact ensures_error _ _
  refine (element_readsOnly readsMembers false text).bind ?_
  rintro ⟨members, rest⟩ given
  have has : MessageDraft.MembersHave property ⟨scope, name, members⟩ :=
    fun _ isGiven => given _ isGiven
  refine (MessageDraft.complete_ensures has).bind fun spec holds => ?_
  exact (ensures_true _).bind fun _ _ => ensures_ok holds

end Messages

section Members

variable {levels : Nat}
  {readMessage : List Char → Decoded (MessageSpec × List Char)}
  {property : MessageSpec → Prop}
  (readsMessage : ReadsOnly property readMessage)
include readsMessage

theorem readBlock_readsOnly :
    ReadsOnly (fun block => ∀ spec, block = some spec → property spec)
      (readBlock readMessage) := by
  intro text
  unfold readBlock
  split
  · exact (ensures_true _).bind fun _ _ => ensures_ok nofun
  · refine (readsMessage _).map ?_
    rintro ⟨spec, rest⟩ holds _ ⟨⟩
    exact holds

theorem memberField_readsOnly (key : String) {draft : MemberDraft}
    (has : draft.BlockHas property) :
    ReadsOnly (MemberDraft.BlockHas property)
      (memberField levels readMessage key draft) := by
  intro text
  unfold memberField
  split
  · refine (ensures_true _).bind fun text _ => ?_
    exact (ensures_true _).bind fun rest _ => ensures_ok has
  split
  · exact ensures_error _ _
  refine (ensures_true _).bind fun text _ => ?_
  split
  case h_6 =>
    refine (readBlock_readsOnly readsMessage text).bind ?_
    rintro ⟨block, rest⟩ blockHas
    exact ensures_ok fun spec isKnown => blockHas spec (Option.some.inj isKnown)
  all_goals exact (ensures_true _).bind fun _ _ => ensures_ok has

theorem memberObject_readsOnly :
    ReadsOnly (fun member => ∀ block, member.nested = some block →
      property block) (memberObject levels readMessage) := by
  intro text
  have start : MemberDraft.BlockHas property {} := nofun
  refine (fields_readsOnly (fun key draft has =>
    memberField_readsOnly readsMessage key has) start text).bind ?_
  rintro ⟨draft, rest⟩ has
  exact (MemberDraft.complete_ensures has).bind fun _ holds => ensures_ok holds

theorem memberArray_readsOnly :
    ReadsOnly (fun member => ∀ block, member.nested = some block →
      property block) (memberArray levels readMessage) := by
  intro text
  unfold memberArray
  refine (ensures_true _).bind ?_
  rintro ⟨name, text⟩ _
  dsimp only
  split
  · exact ensures_error _ _
  refine (ensures_true _).bind ?_
  rintro ⟨kind, text⟩ _
  dsimp only
  split
  · exact ensures_error _ _
  refine (ensures_true _).bind ?_
  rintro ⟨isArray, text⟩ _
  refine (ensures_true _).bind ?_
  rintro ⟨arraySize, text⟩ _
  refine (ensures_true _).bind ?_
  rintro ⟨isUpperBound, text⟩ _
  refine (element_readsOnly (readBlock_readsOnly readsMessage) false text).bind ?_
  rintro ⟨message, rest⟩ given
  have has : MemberDraft.BlockHas property
      ⟨name, kind, isArray, arraySize, isUpperBound, message⟩ :=
    fun spec isKnown => given _ isKnown spec rfl
  refine (MemberDraft.complete_ensures has).bind fun member holds => ?_
  exact (ensures_true _).bind fun _ _ => ensures_ok holds

end Members

section Documents

/-- A message that is read where some brackets may be opened has three brackets
for each level, but for two that the innermost message does not need; and so
the members and the lists of members. -/
theorem readers_readWithin (brackets : Nat) :
    ReadsOnly (fun spec => 3 * spec.levels ≤ brackets + 2)
        (readMessage brackets) ∧
      ReadsOnly (∀ member ∈ ·, BlockWithin brackets member)
        (readMembers brackets) ∧
      ReadsOnly (BlockWithin (brackets + 1)) (readMember brackets) := by
  induction brackets with
  | zero =>
      exact ⟨structured_readsOnly _ tooDeep_readsOnly tooDeep_readsOnly,
        listed_readsOnly tooDeep_readsOnly,
        structured_readsOnly _ tooDeep_readsOnly tooDeep_readsOnly⟩
  | succ brackets ih =>
      obtain ⟨readsMessage, readsMembers, readsMember⟩ := ih
      refine ⟨?message, ?members, ?member⟩
      case message =>
        have reads := structured_readsOnly .message
          (messageObject_readsOnly readsMembers)
          (messageArray_readsOnly readsMembers)
        exact fun text => (reads text).mono fun _ within =>
          MessageSpec.levels_within within
      case members => exact listed_readsOnly (elements_readsOnly readsMember)
      case member =>
        exact structured_readsOnly .member
          (memberObject_readsOnly readsMessage)
          (memberArray_readsOnly readsMessage)

theorem levels_le_of_readSpec (text : String) :
    Ensures (readSpec text) fun spec => spec.levels ≤ 43 := by
  unfold readSpec
  refine ((readers_readWithin levelLimit).1 _).bind ?_
  rintro ⟨spec, rest⟩ within
  dsimp only [levelLimit] at within ⊢
  split
  · exact ensures_ok (by omega)
  · exact ensures_error _ _

end Documents

end Json

namespace Yaml

section Readers

variable {α δ : Type} {document : Document} {property : α → Prop}

/-- What a reader of nodes reads has a property. -/
def ReadsOnly (property : α → Prop)
    (read : Item → Ahead → Decoded (α × Ahead)) : Prop :=
  ∀ item ahead, Ensures (read item ahead) fun result => property result.1

theorem atNode_ensures {read : Item → Ahead → Decoded (α × Ahead)}
    (reads : ReadsOnly property read) (ahead : Ahead) :
    Ensures (atNode document read ahead) fun result => property result.1 := by
  unfold atNode
  split
  · exact ensures_error _ _
  · split
    · exact (reads _ _).bind fun _ holds => ensures_ok holds
    · exact ensures_error _ _
  · exact reads _ _

theorem readOptional_readsOnly {read : Item → Ahead → Decoded (α × Ahead)}
    (reads : ReadsOnly property read) :
    ReadsOnly (fun given => ∀ value, given = some value → property value)
      (readOptional read) := by
  intro item ahead
  have readUnless (isAbsent : Bool) :
      Ensures (if isAbsent then .ok (none, ahead) else
          (read item ahead).bind fun result => .ok (some result.1, result.2))
        fun result => ∀ value, result.1 = some value → property value := by
    cases isAbsent with
    | true => exact ensures_ok nofun
    | false =>
        refine (reads item ahead).bind ?_
        rintro ⟨value, rest⟩ holds
        refine ensures_ok ?_
        rintro _ ⟨⟩
        exact holds
  unfold readOptional
  dsimp only
  repeat' split
  all_goals exact (ensures_true _).bind fun isAbsent _ => readUnless isAbsent

theorem elementsWithin_ensures {read : Item → Ahead → Decoded (α × Ahead)}
    (reads : ReadsOnly property read) (bound : Nat) (ahead : Ahead) :
    Ensures (elementsWithin document read bound ahead)
      fun result => ∀ value ∈ result.1, property value := by
  induction bound generalizing ahead with
  | zero => exact ensures_error _ _
  | succ bound ih =>
      unfold elementsWithin
      split
      · exact ensures_ok (List.forall_mem_nil _)
      · refine (atNode_ensures reads ahead).bind ?_
        rintro ⟨value, ahead⟩ first
        refine (ih ahead).bind ?_
        rintro ⟨values, rest⟩ others
        exact ensures_ok (List.forall_mem_cons.mpr ⟨first, others⟩)

theorem listed_readsOnly {elements : Ahead → Decoded (List α × Ahead)}
    (ensures : ∀ ahead, Ensures (elements ahead)
      fun result => ∀ value ∈ result.1, property value) :
    ReadsOnly (∀ value ∈ ·, property value) (listed elements) := by
  intro item ahead
  unfold listed
  split
  · exact ensures ahead
  · exact ensures_ok (List.forall_mem_nil _)
  · exact ensures_error _ _

variable {keeps : δ → Prop}

theorem mapped_ensures (wanted : Wanted)
    {entries : δ → Ahead → Decoded (δ × Ahead)} {draft : δ} (kept : keeps draft)
    (ensures : ∀ ahead, Ensures (entries draft ahead)
      fun result => keeps result.1) (item : Item) (ahead : Ahead) :
    Ensures (mapped wanted entries draft item ahead)
      fun result => keeps result.1 := by
  unfold mapped
  split
  · exact ensures ahead
  · exact ensures_ok kept
  · exact ensures_error _ _

theorem entriesWithin_ensures
    {field : String → δ → Ahead → Decoded (δ × Ahead)}
    (ensures : ∀ key draft ahead, keeps draft →
      Ensures (field key draft ahead) fun result => keeps result.1)
    (bound : Nat) {draft : δ} (kept : keeps draft) (ahead : Ahead) :
    Ensures (entriesWithin document field bound draft ahead)
      fun result => keeps result.1 := by
  induction bound generalizing draft ahead with
  | zero => exact ensures_error _ _
  | succ bound ih =>
      unfold entriesWithin
      split
      · exact ensures_ok kept
      · refine (ensures_true _).bind ?_
        rintro ⟨key, ahead⟩ _
        refine (ensures key draft ahead kept).bind ?_
        rintro ⟨draft', rest⟩ kept'
        exact ih kept' rest

end Readers

section Messages

variable {document : Document}
  {readMembers : Item → Ahead → Decoded (List MemberSpec × Ahead)}
  {property : MemberSpec → Prop}
  (readsMembers : ReadsOnly (∀ member ∈ ·, property member) readMembers)
include readsMembers

theorem messageField_ensures (key : String) (draft : MessageDraft)
    (ahead : Ahead) (has : draft.MembersHave property) :
    Ensures (messageField document readMembers key draft ahead)
      fun result => result.1.MembersHave property := by
  unfold messageField
  split
  · exact (ensures_true _).bind fun _ _ => ensures_ok has
  split
  · exact ensures_error _ _
  split
  · exact (ensures_true _).bind fun _ _ => ensures_ok has
  · exact (ensures_true _).bind fun _ _ => ensures_ok has
  · refine (atNode_ensures readsMembers ahead).bind ?_
    rintro ⟨members, rest⟩ membersHave
    refine ensures_ok ?_
    rintro _ ⟨⟩
    exact membersHave

theorem messageEntries_ensures (ahead : Ahead) :
    Ensures (messageEntries document readMembers {} ahead)
      fun result => result.1.MembersHave property := by
  have start : MessageDraft.MembersHave property {} := nofun
  exact entriesWithin_ensures (messageField_ensures readsMembers) _ start ahead

end Messages

section Members

variable {document : Document}
  {readMessage : Item → Ahead → Decoded (MessageSpec × Ahead)}
  {property : MessageSpec → Prop}
  (readsMessage : ReadsOnly property readMessage)
include readsMessage

theorem memberField_ensures (key : String) (draft : MemberDraft)
    (ahead : Ahead) (has : draft.BlockHas property) :
    Ensures (memberField document readMessage key draft ahead)
      fun result => result.1.BlockHas property := by
  unfold memberField
  split
  · exact (ensures_true _).bind fun _ _ => ensures_ok has
  split
  · exact ensures_error _ _
  split
  case h_6 =>
    refine (atNode_ensures (readOptional_readsOnly readsMessage) ahead).bind ?_
    rintro ⟨block, rest⟩ blockHas
    exact ensures_ok fun spec isKnown => blockHas spec (Option.some.inj isKnown)
  all_goals exact (ensures_true _).bind fun _ _ => ensures_ok has

theorem memberEntries_ensures (ahead : Ahead) :
    Ensures (memberEntries document readMessage {} ahead)
      fun result => result.1.BlockHas property := by
  have start : MemberDraft.BlockHas property {} := nofun
  exact entriesWithin_ensures (memberField_ensures readsMessage) _ start ahead

end Members

section Documents

/-- An empty scalar counts as a collection also where none may be opened, but
nothing is known of its fields. -/
theorem mapped_tooDeep (wanted : Wanted) {δ : Type} (draft : δ) (item : Item)
    (ahead : Ahead) :
    Ensures (mapped wanted (fun _ _ => tooDeep) draft item ahead)
      fun result => result.1 = draft := by
  unfold mapped
  split
  · exact ensures_error _ _
  · exact ensures_ok rfl
  · exact ensures_error _ _

/-- A message that is read where some collections may be opened has three of
them for each level, but for two that the innermost message does not need; and
so the members and the lists of members. -/
theorem readers_readWithin (document : Document) (collections : Nat) :
    ReadsOnly (fun spec => 3 * spec.levels ≤ collections + 2)
        (readMessage document collections) ∧
      ReadsOnly (∀ member ∈ ·, BlockWithin collections member)
        (readMembers document collections) ∧
      ReadsOnly (BlockWithin (collections + 1))
        (readMember document collections) := by
  induction collections with
  | zero =>
      refine ⟨fun item ahead => ?message,
        listed_readsOnly fun _ => ensures_error _ _, fun item ahead => ?member⟩
      case message =>
        refine (mapped_tooDeep .message ({} : MessageDraft) item ahead).bind ?_
        rintro ⟨_, rest⟩ rfl
        exact ensures_error _ _
      case member =>
        refine (mapped_tooDeep .member ({} : MemberDraft) item ahead).bind ?_
        rintro ⟨_, rest⟩ rfl
        exact ensures_error _ _
  | succ collections ih =>
      obtain ⟨readsMessage, readsMembers, readsMember⟩ := ih
      refine ⟨fun item ahead => ?message,
        listed_readsOnly fun ahead => elementsWithin_ensures readsMember _ ahead,
        fun item ahead => ?member⟩
      case message =>
        have start : MessageDraft.MembersHave (BlockWithin collections) {} :=
          nofun
        refine (mapped_ensures .message start
          (messageEntries_ensures readsMembers) item ahead).bind ?_
        rintro ⟨draft, rest⟩ has
        exact (MessageDraft.complete_ensures has).bind fun _ within =>
          ensures_ok (MessageSpec.levels_within within)
      case member =>
        have start : MemberDraft.BlockHas
            (fun spec => 3 * spec.levels ≤ collections + 2) {} := nofun
        refine (mapped_ensures .member start
          (memberEntries_ensures readsMessage) item ahead).bind ?_
        rintro ⟨draft, rest⟩ has
        exact (MemberDraft.complete_ensures has).bind fun _ within =>
          ensures_ok within

theorem levels_le_of_readSpec (text : String) :
    Ensures (readSpec text) fun spec => spec.levels ≤ 43 := by
  unfold readSpec specOf
  refine (atNode_ensures (readers_readWithin _ levelLimit).1 _).bind ?_
  rintro ⟨spec, rest⟩ within
  dsimp only [levelLimit] at within ⊢
  split
  · exact ensures_ok (by omega)
  · exact ensures_error _ _

end Documents

end Yaml

/-- Whatever a descriptor file contains, its messages are nested to at most 43
levels. -/
theorem FileForm.levels_le_of_readSpec (form : FileForm) (text : String) :
    Ensures (form.readSpec text) fun spec => spec.levels ≤ 43 := by
  cases form with
  | json => exact Json.levels_le_of_readSpec text
  | yaml => exact Yaml.levels_le_of_readSpec text

end Metastring
