import Mathlib
import Metastring.Draft

/-!
# Drafts in terms of the fields that have been given

While a message or a member is read, the draft depends on which of its fields
have been given and not on their order.  A draft is completed to the message or
the member if every field that is not known has its default value there.
-/

namespace Metastring

section Fields

/-- A field of a draft is known, or it is left out and has its default value. -/
def KnownOr {α : Type} (default value : α) (known : Option α) : Prop :=
  known = some value ∨ known = none ∧ value = default

theorem KnownOr.getD_eq {α : Type} {default value : α} {known : Option α}
    (knownOr : KnownOr default value known) : known.getD default = value := by
  rcases knownOr with rfl | ⟨rfl, rfl⟩ <;> rfl

theorem knownOr_ite {α : Type} {default value : α} {given : Prop}
    [Decidable given] (omitted : ¬ given → value = default) :
    KnownOr default value (if given then some value else none) := by
  by_cases isGiven : given
  · exact .inl (if_pos isGiven)
  · exact .inr ⟨if_neg isGiven, omitted isGiven⟩

end Fields

section Messages

/-- A message of which the given fields are known. -/
def messageDraft (type : ScopedName) (members : List MemberSpec)
    (given : List MessageField) : MessageDraft where
  scope := if .scope ∈ given then some type.scope else none
  name := if .name ∈ given then some type.name else none
  members := if .members ∈ given then some members else none

theorem messageDraft_has (type : ScopedName) (members : List MemberSpec)
    (given : List MessageField) (field : MessageField) :
    (messageDraft type members given).has field = true ↔ field ∈ given := by
  cases field <;> simp [messageDraft, MessageDraft.has]

theorem MessageField.ofKey?_key (field : MessageField) :
    MessageField.ofKey? field.key = some field := by
  cases field <;> decide

theorem MessageField.ofKey?_of_unknown {name : String}
    (isUnknown : ∀ field ∈ [MessageField.scope, .name, .members],
      field.key ≠ name) : MessageField.ofKey? name = none := by
  rw [MessageField.ofKey?, List.find?_eq_none]
  simpa using isUnknown

theorem MessageDraft.complete_eq (type : ScopedName) {members : List MemberSpec}
    {draft : MessageDraft} (name : draft.name = some type.name)
    (scope : KnownOr "" type.scope draft.scope)
    (known : KnownOr [] members draft.members) :
    draft.complete = .ok (.mk ⟨type, members⟩) := by
  rw [MessageDraft.complete, name]
  simp only [scope.getD_eq, known.getD_eq]

end Messages

section Members

/-- A member of which the given fields are known. -/
def memberDraft (member : MemberSpec) (given : List MemberField) :
    MemberDraft where
  name := if .name ∈ given then some member.name else none
  kind := if .kind ∈ given then some member.kind else none
  isArray := if .isArray ∈ given then some member.shape.isArray else none
  arraySize := if .arraySize ∈ given then some member.shape.arraySize else none
  isUpperBound :=
    if .isUpperBound ∈ given then some member.shape.isUpperBound else none
  message := if .message ∈ given then some member.nested else none

theorem memberDraft_has (member : MemberSpec) (given : List MemberField)
    (field : MemberField) :
    (memberDraft member given).has field = true ↔ field ∈ given := by
  cases field <;> simp [memberDraft, MemberDraft.has]

theorem MemberField.ofKey?_key (field : MemberField) :
    MemberField.ofKey? field.key = some field := by
  cases field <;> decide

theorem MemberField.ofKey?_of_unknown {name : String}
    (isUnknown : ∀ field ∈ [MemberField.name, .kind, .isArray, .arraySize,
      .isUpperBound, .message], field.key ≠ name) :
    MemberField.ofKey? name = none := by
  rw [MemberField.ofKey?, List.find?_eq_none]
  simpa using isUnknown

theorem MemberDraft.complete_eq (member : MemberSpec) {draft : MemberDraft}
    (name : draft.name = some member.name)
    (kind : draft.kind = some member.kind)
    (isArray : KnownOr false member.shape.isArray draft.isArray)
    (arraySize : KnownOr 0 member.shape.arraySize draft.arraySize)
    (isUpperBound : KnownOr false member.shape.isUpperBound draft.isUpperBound)
    (message : KnownOr none member.nested draft.message) :
    draft.complete = .ok member := by
  rw [MemberDraft.complete, name, kind]
  simp only [MemberDraft.shape, isArray.getD_eq, arraySize.getD_eq,
    isUpperBound.getD_eq, message.getD_eq]

end Members

end Metastring
