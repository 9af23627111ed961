import Metastring.Introspection
import Metastring.Proofs.Traversal

/-!
# What the layout of a raw message says

A raw message has a layout exactly when its texts decode, its member table is
present unless it declares no members, and every declared member has a name.
The members of the layout are then the declared ones, read one by one.  No
failure of any of this is a refusal of a recursive type: only the walk refuses
types.
-/

namespace Metastring

variable {η : Type}

/-- The members that a message declares: the first `count` entries of its
table. -/
def RawMessage.declared (message : RawMessage η) : List (RawMember η) :=
  (message.table.getD []).take message.count

/-- What a raw member is read as. -/
structure RawMember.Reads (raw : RawMember η) (member : Member Kind η) :
    Prop where
  named : raw.name ≠ none
  name_eq : raw.name.decode = .ok member.name
  kind_eq : Kind.ofId raw.typeId = member.kind
  shape_eq : raw.shape = member.shape
  nested_eq :
    (if member.kind = .message then raw.nested else none) = member.nested

namespace RawMessage

theorem membersFrom_eq_ok_iff (message : String) (index : Nat)
    (raws : List (RawMember η)) (members : List (Member Kind η)) :
    membersFrom message index raws = .ok members ↔
      List.Forall₂ RawMember.Reads raws members := by
  induction raws generalizing index members with
  | nil =>
      rw [membersFrom, List.forall₂_nil_left_iff, Except.ok.injEq]
      exact eq_comm
  | cons raw raws ih =>
      rw [membersFrom, List.forall₂_cons_left_iff]
      constructor
      · intro succeeds
        split at succeeds
        case h_1 => contradiction
        case h_2 bytes named =>
          cases decoded : RawText.decode (some bytes) with
          | error fault =>
              rw [decoded] at succeeds
              contradiction
          | ok name =>
              rw [decoded] at succeeds
              cases rest : membersFrom message (index + 1) raws with
              | error fault =>
                  simp only [rest] at succeeds
                  contradiction
              | ok others =>
                  simp only [rest] at succeeds
                  refine ⟨_, others, ⟨?_, ?_, rfl, rfl, rfl⟩,
                    (ih (index + 1) others).mp rest,
                    (Except.ok.inj succeeds).symm⟩
                  · simp [named]
                  · rw [named]
                    exact decoded
      · rintro ⟨member, others, reads, readsOthers, rfl⟩
        obtain ⟨bytes, named⟩ := Option.ne_none_iff_exists'.mp reads.named
        have decoded := reads.name_eq
        have rest := (ih (index + 1) others).mpr readsOthers
        rw [named] at decoded
        simp only [named, decoded, rest, reads.kind_eq, reads.shape_eq,
          reads.nested_eq]
        rfl

theorem members_eq_ok_iff (message : RawMessage η) (name : String)
    (members : List (Member Kind η)) :
    message.members name = .ok members ↔
      (message.count ≠ 0 → message.table ≠ none) ∧
        List.Forall₂ RawMember.Reads message.declared members := by
  unfold RawMessage.members declared
  by_cases empty : message.count = 0
  · rw [if_pos empty, empty, List.take_zero, List.forall₂_nil_left_iff,
      Except.ok.injEq]
    exact ⟨fun same => ⟨fun wrong => absurd rfl wrong, same.symm⟩,
      fun found => found.2.symm⟩
  · rw [if_neg empty]
    cases message.table with
    | none => simp [empty]
    | some table => simp [membersFrom_eq_ok_iff]

/-- When a raw message has a layout, and which. -/
theorem layout_eq_ok_iff (message : RawMessage η) (layout : Layout Kind η) :
    message.layout = .ok layout ↔
      message.scope.decode = .ok layout.type.scope ∧
        message.name.decode = .ok layout.type.name ∧
        (message.count ≠ 0 → message.table ≠ none) ∧
        List.Forall₂ RawMember.Reads message.declared layout.members := by
  obtain ⟨⟨scope, name⟩, members⟩ := layout
  rw [RawMessage.layout, ← members_eq_ok_iff message name]
  cases message.scope.decode with
  | error fault => simp [bind, Except.bind]
  | ok scope' =>
      cases message.name.decode with
      | error fault => simp [bind, Except.bind]
      | ok name' =>
          cases found : message.members name' with
          | error fault =>
              simp only [bind, Except.bind, found]
              constructor
              · intro succeeds
                contradiction
              · rintro ⟨-, sameName, succeeds⟩
                obtain rfl := Except.ok.inj sameName
                rw [found] at succeeds
                contradiction
          | ok members' =>
              simp only [bind, Except.bind, found, pure, Except.pure,
                Except.ok.injEq, Layout.mk.injEq, ScopedName.mk.injEq]
              constructor
              · rintro ⟨⟨rfl, rfl⟩, rfl⟩
                exact ⟨rfl, rfl, found⟩
              · rintro ⟨rfl, rfl, found'⟩
                rw [found, Except.ok.injEq] at found'
                exact ⟨⟨rfl, rfl⟩, found'⟩

end RawMessage

section Refusals

variable (qualified : String)

theorem RawText.decode_ne_recursive (text : RawText) :
    text.decode ≠ .error (.recursiveType qualified) := by
  cases text with
  | none => exact nofun
  | some bytes =>
      rw [RawText.decode]
      cases Utf8.decode (bytes.takeWhile (· ≠ 0)) with
      | error fault => exact fun refused => nomatch Except.error.inj refused
      | ok text => exact nofun

theorem RawMessage.membersFrom_ne_recursive (message : String) (index : Nat)
    (raws : List (RawMember η)) :
    membersFrom message index raws ≠ .error (.recursiveType qualified) := by
  induction raws generalizing index with
  | nil => exact nofun
  | cons raw raws ih =>
      rw [membersFrom]
      cases raw.name with
      | none => exact fun refused => nomatch Except.error.inj refused
      | some bytes =>
          refine bind_ne_error (RawText.decode_ne_recursive qualified _)
            fun name => bind_ne_error (ih (index + 1)) fun others => ?_
          exact nofun

theorem RawMessage.members_ne_recursive (message : RawMessage η)
    (name : String) :
    message.members name ≠ .error (.recursiveType qualified) := by
  unfold RawMessage.members
  split
  case isTrue => exact nofun
  case isFalse =>
    cases message.table with
    | none => exact fun refused => nomatch Except.error.inj refused
    | some table => exact membersFrom_ne_recursive qualified name 0 _

theorem RawMessage.layout_ne_recursive (message : RawMessage η) :
    message.layout ≠ .error (.recursiveType qualified) := by
  refine bind_ne_error (RawText.decode_ne_recursive qualified _) fun scope =>
    bind_ne_error (RawText.decode_ne_recursive qualified _) fun name =>
      bind_ne_error (message.members_ne_recursive qualified name)
        fun members => ?_
  exact nofun

end Refusals

end Metastring
