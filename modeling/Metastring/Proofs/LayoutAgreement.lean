import Metastring.Proofs.LayoutReading
import Metastring.Proofs.WalkSimulation

/-!
# What is read of a raw message

Of a text only the bytes in front of the first zero byte are read, and null is
read as no bytes at all.  Of a member table only as many entries are read as the
message declares.  A handle is read only beside the kind message, a size only
beside the array flag, and whether the size is a bound only if it is not zero.

Messages that agree on what is read have layouts that are alike, or none for
the same reason.
-/

namespace Metastring

section Texts

namespace RawText

/-- The bytes that are read of a text. -/
def bytesRead (text : RawText) : List UInt8 :=
  (text.getD []).takeWhile (· ≠ 0)

theorem decode_eq_of_bytesRead {text text' : RawText}
    (same : text.bytesRead = text'.bytesRead) : text.decode = text'.decode := by
  have read (text : RawText) :
      text.decode = (Utf8.decode text.bytesRead).mapError .invalidUtf8 := by
    cases text <;> rfl
  rw [read, read, same]

end RawText

end Texts

section Shapes

/-- Two shapes agree on what is read of them. -/
structure Shape.Agrees (shape shape' : Shape) : Prop where
  isArray_eq : shape.isArray = shape'.isArray
  arraySize_eq : shape.isArray = true → shape.arraySize = shape'.arraySize
  isUpperBound_eq : shape.isArray = true → shape.arraySize ≠ 0 →
    shape.isUpperBound = shape'.isUpperBound

theorem Shape.Agrees.refl (shape : Shape) : shape.Agrees shape :=
  ⟨rfl, fun _ => rfl, fun _ _ => rfl⟩

theorem Shape.Agrees.container_eq {shape shape' : Shape}
    (agree : shape.Agrees shape') : shape.container = shape'.container := by
  obtain ⟨sameFlag, sameSize, sameBound⟩ := agree
  unfold Shape.container
  rw [← sameFlag]
  by_cases isArray : shape.isArray = true
  · rw [if_pos isArray, if_pos isArray, ← sameSize isArray]
    by_cases zero : shape.arraySize = 0
    · rw [if_pos zero, if_pos zero]
    · rw [if_neg zero, if_neg zero, sameBound isArray zero]
  · rw [if_neg isArray, if_neg isArray]

end Shapes

section Messages

variable {η η' : Type}

/-- Two raw members agree on what is read of them, and handles that are read
correspond. -/
structure RawMember.Agrees (related : η → η' → Prop) (raw : RawMember η)
    (raw' : RawMember η') : Prop where
  named : raw.name = none ↔ raw'.name = none
  name_eq : raw.name.bytesRead = raw'.name.bytesRead
  typeId_eq : raw.typeId = raw'.typeId
  nested_rel : Kind.ofId raw.typeId = .message →
    Option.Rel related raw.nested raw'.nested
  shape_agrees : raw.shape.Agrees raw'.shape

/-- Two raw messages agree on what is read of them, and handles that are read
correspond. -/
structure RawMessage.Agrees (related : η → η' → Prop) (message : RawMessage η)
    (message' : RawMessage η') : Prop where
  scope_eq : message.scope.bytesRead = message'.scope.bytesRead
  name_eq : message.name.bytesRead = message'.name.bytesRead
  count_eq : message.count = message'.count
  tabled : message.count ≠ 0 → (message.table = none ↔ message'.table = none)
  declared_rel : List.Forall₂ (RawMember.Agrees related) message.declared
    message'.declared

variable {related : η → η' → Prop}

theorem RawMessage.membersFrom_agree (message : String) (start : Nat)
    {raws : List (RawMember η)} {raws' : List (RawMember η')}
    (agree : List.Forall₂ (RawMember.Agrees related) raws raws') :
    (∃ fault, membersFrom message start raws = .error fault ∧
        membersFrom message start raws' = .error fault) ∨
      ∃ members members', membersFrom message start raws = .ok members ∧
        membersFrom message start raws' = .ok members' ∧
          List.Forall₂ (Member.Alike related) members members' := by
  induction agree generalizing start with
  | nil => exact .inr ⟨[], [], rfl, rfl, .nil⟩
  | @cons raw raw' raws raws' first _ ih =>
      have decoded := RawText.decode_eq_of_bytesRead first.name_eq
      have nested (isMessage : Kind.ofId raw.typeId = .message) :
          Option.Rel related
            (if Kind.ofId raw.typeId = .message then raw.nested else none)
            (if Kind.ofId raw.typeId = .message then raw'.nested else none) := by
        rw [if_pos isMessage, if_pos isMessage]
        exact first.nested_rel isMessage
      simp only [membersFrom, ← first.typeId_eq]
      cases named : raw.name with
      | none =>
          rw [first.named.mp named]
          exact .inl ⟨_, rfl, rfl⟩
      | some bytes =>
          obtain ⟨bytes', named'⟩ := Option.ne_none_iff_exists'.mp
            (mt first.named.mpr (by simp [named]))
          rw [named, named'] at decoded
          rw [named']
          dsimp only
          rw [← decoded]
          cases RawText.decode (some bytes) with
          | error fault => exact .inl ⟨fault, rfl, rfl⟩
          | ok name =>
              rcases ih (start + 1) with ⟨fault, failed, failed'⟩ |
                ⟨members, members', succeeds, succeeds', later⟩
              · rw [failed, failed']
                exact .inl ⟨fault, rfl, rfl⟩
              · rw [succeeds, succeeds']
                have alike : Member.Alike related
                    ⟨name, Kind.ofId raw.typeId, raw.shape, _⟩
                    ⟨name, Kind.ofId raw.typeId, raw'.shape, _⟩ :=
                  ⟨rfl, rfl, first.shape_agrees.container_eq, nested⟩
                exact .inr ⟨_, _, rfl, rfl, .cons alike later⟩

theorem RawMessage.Agrees.members {message : RawMessage η}
    {message' : RawMessage η'} (agree : message.Agrees related message')
    (name : String) :
    (∃ fault, message.members name = .error fault ∧
        message'.members name = .error fault) ∨
      ∃ members members', message.members name = .ok members ∧
        message'.members name = .ok members' ∧
          List.Forall₂ (Member.Alike related) members members' := by
  have declared := agree.declared_rel
  unfold RawMessage.members
  unfold RawMessage.declared at declared
  rw [← agree.count_eq] at declared ⊢
  by_cases empty : message.count = 0
  · rw [if_pos empty, if_pos empty]
    exact .inr ⟨[], [], rfl, rfl, .nil⟩
  rw [if_neg empty, if_neg empty]
  cases tabled : message.table with
  | none =>
      rw [(agree.tabled empty).mp tabled]
      exact .inl ⟨_, rfl, rfl⟩
  | some table =>
      obtain ⟨table', tabled'⟩ := Option.ne_none_iff_exists'.mp
        (mt (agree.tabled empty).mpr (by simp [tabled]))
      rw [tabled, tabled'] at declared
      rw [tabled']
      exact membersFrom_agree name 0 declared

theorem RawMessage.Agrees.layout {message : RawMessage η}
    {message' : RawMessage η'} (agree : message.Agrees related message') :
    DescribedAlike related message.layout message'.layout := by
  unfold RawMessage.layout
  rw [← RawText.decode_eq_of_bytesRead agree.scope_eq,
    ← RawText.decode_eq_of_bytesRead agree.name_eq]
  cases message.scope.decode with
  | error fault => exact .error fault
  | ok scope =>
      cases message.name.decode with
      | error fault => exact .error fault
      | ok name =>
          simp only [bind, Except.bind]
          rcases agree.members name with ⟨fault, failed, failed'⟩ |
            ⟨members, members', succeeds, succeeds', pairs⟩
          · rw [failed, failed']
            exact .error fault
          · rw [succeeds, succeeds']
            exact .ok ⟨rfl, rfl, pairs⟩

end Messages

end Metastring
