import Mathlib.Data.Prod.Lex
import Metastring.Proofs.FirstFault
import Metastring.Proofs.LayoutReading
import Metastring.Proofs.RootResolution

/-!
# The faults of raw metadata and their order

Raw metadata can be at fault in many places at once: handles and messages may be
null, texts may not be UTF-8, tables and names may be missing, kinds may be
unknown, and types may be nested in themselves.  This file lists all faults of
the unfolding below a root, which may be infinite, each with the place where it
is found, and says when one place comes before another.

At a message, everything the message itself says comes first, the names of all
its members included; then the repetition of a name around it; and only then its
members one by one.  At a member the kind comes first, then what its handle
says, then the nested message.

A message read by itself, one level deep, tells the first of its own faults.
-/

namespace Metastring

/-- What is looked at inside a message or on the way to it. -/
inductive Check where
  /-- The kind of a member. -/
  | kind
  /-- Whether there is a handle. -/
  | handle
  /-- The identifier of the handle. -/
  | identifier
  /-- Whether the handle leads to one of a flavor that can be used. -/
  | flavor
  /-- Whether there is a message. -/
  | data
  | scope
  | name
  /-- Whether there is a member table, if there are members. -/
  | table
  | memberName (index : Nat)
  /-- Whether a message around this one has the same qualified name. -/
  | repetition
  /-- What is found at a member. -/
  | member (index : Nat)
deriving DecidableEq

namespace Check

/-- Checks are made in this order, and by index among members. -/
@[simp]
def rank : Check → ℕ ×ₗ ℕ
  | kind => toLex (0, 0)
  | handle => toLex (1, 0)
  | identifier => toLex (2, 0)
  | flavor => toLex (3, 0)
  | data => toLex (4, 0)
  | scope => toLex (5, 0)
  | name => toLex (6, 0)
  | table => toLex (7, 0)
  | memberName index => toLex (8, index)
  | repetition => toLex (9, 0)
  | member index => toLex (10, index)

theorem rank_injective : Function.Injective rank := by
  intro first second same
  cases first <;> cases second <;> simp_all [rank]

instance : LinearOrder Check :=
  LinearOrder.lift' rank rank_injective

@[simp]
theorem lt_iff (first second : Check) :
    first < second ↔ (ofLex first.rank).1 < (ofLex second.rank).1 ∨
      (ofLex first.rank).1 = (ofLex second.rank).1 ∧
        (ofLex first.rank).2 < (ofLex second.rank).2 :=
  Prod.Lex.lt_iff

@[simp]
theorem le_iff (first second : Check) :
    first ≤ second ↔ (ofLex first.rank).1 < (ofLex second.rank).1 ∨
      (ofLex first.rank).1 = (ofLex second.rank).1 ∧
        (ofLex first.rank).2 ≤ (ofLex second.rank).2 :=
  Prod.Lex.le_iff

end Check

section Declarations

variable {η μ : Type}

/-- The texts of a message give it a scoped name. -/
def RawMessage.HasType (message : RawMessage η) (type : ScopedName) : Prop :=
  message.scope.decode = .ok type.scope ∧ message.name.decode = .ok type.name

/-- A message is at fault by itself, wherever it is found. -/
inductive RawMessage.FaultAt (message : RawMessage η) :
    Check → CompileError → Prop
  | scope {fault : CompileError}
      (undecodable : message.scope.decode = .error fault) :
      FaultAt message .scope fault
  | name {fault : CompileError}
      (undecodable : message.name.decode = .error fault) :
      FaultAt message .name fault
  | noTable {name : String} (named : message.name.decode = .ok name)
      (counted : message.count ≠ 0) (absent : message.table = none) :
      FaultAt message .table (.nullMembers name message.count)
  | noMemberName {name : String} {index : Nat} {raw : RawMember η}
      (named : message.name.decode = .ok name)
      (found : message.declared[index]? = some raw)
      (absent : raw.name = none) :
      FaultAt message (.memberName index) (.nullMemberName name index)
  | memberName {index : Nat} {raw : RawMember η} {fault : CompileError}
      (found : message.declared[index]? = some raw)
      (undecodable : raw.name.decode = .error fault) :
      FaultAt message (.memberName index) fault

/-- A handle does not lead to one of the given flavor. -/
inductive Handle.FaultAt (flavor : Flavor) (handle : Handle η μ) :
    Check → CompileError → Prop
  | identifier {fault : CompileError}
      (undecodable : handle.identifier.decode = .error fault) :
      FaultAt flavor handle .identifier fault
  | flavor {identifier : String}
      (identified : handle.identifier.decode = .ok identifier)
      (other : identifier ≠ flavor.identifier)
      (unanswered : handle.lookup flavor = none) :
      FaultAt flavor handle .flavor (.unknownFlavor identifier)

end Declarations

namespace Introspection

variable {handles messages : Nat} (metadata : Introspection handles messages)

section Unfolding

variable (flavor : Flavor)

/-- A handle leads to itself if it is of the flavor, and otherwise to what its
lookup returns for it. -/
inductive HandleLeadsTo (handle : Fin handles) : Fin handles → Prop
  | own (identified : (metadata.handle handle).identifier.decode =
      .ok flavor.identifier) : HandleLeadsTo handle handle
  | lookup {identifier : String} {found : Fin handles}
      (identified :
        (metadata.handle handle).identifier.decode = .ok identifier)
      (other : identifier ≠ flavor.identifier)
      (answered : (metadata.handle handle).lookup flavor = some found) :
      HandleLeadsTo handle found

mutual

/-- A fault is found at a message, which may be null, inside the given ones. -/
inductive MessageFaultAt : List (Fin messages) → Option (Fin messages) →
    List Check → CompileError → Prop
  | data {around : List (Fin messages)} :
      MessageFaultAt around none [.data] .nullHandle
  | own {around : List (Fin messages)} {message : Fin messages} {check : Check}
      {fault : CompileError}
      (faulty : (metadata.message message).FaultAt check fault) :
      MessageFaultAt around (some message) [check] fault
  | repetition {around : List (Fin messages)} {message outer : Fin messages}
      {type outerType : ScopedName}
      (typed : (metadata.message message).HasType type)
      (isAround : outer ∈ around)
      (outerTyped : (metadata.message outer).HasType outerType)
      (same : outerType.qualified = type.qualified) :
      MessageFaultAt around (some message) [.repetition]
        (.recursiveType type.qualified)
  | member {around : List (Fin messages)} {message : Fin messages}
      {index : Nat} {raw : RawMember (Fin handles)} {place : List Check}
      {fault : CompileError}
      (found : (metadata.message message).declared[index]? = some raw)
      (faulty : MemberFaultAt (message :: around) raw place fault) :
      MessageFaultAt around (some message) (.member index :: place) fault

/-- A fault is found at a member, inside the given messages. -/
inductive MemberFaultAt : List (Fin messages) → RawMember (Fin handles) →
    List Check → CompileError → Prop
  | unsupportedType {around : List (Fin messages)}
      {raw : RawMember (Fin handles)} {name : String} {id : UInt8}
      (named : raw.name.decode = .ok name)
      (unknown : Kind.ofId raw.typeId = .unknown id) :
      MemberFaultAt around raw [.kind] (.unsupportedType name id)
  | missingNested {around : List (Fin messages)}
      {raw : RawMember (Fin handles)} {name : String}
      (named : raw.name.decode = .ok name)
      (isMessage : Kind.ofId raw.typeId = .message)
      (absent : raw.nested = none) :
      MemberFaultAt around raw [.handle] (.missingNested name)
  | handle {around : List (Fin messages)} {raw : RawMember (Fin handles)}
      {handle : Fin handles} {check : Check} {fault : CompileError}
      (isMessage : Kind.ofId raw.typeId = .message)
      (refers : raw.nested = some handle)
      (faulty : (metadata.handle handle).FaultAt flavor check fault) :
      MemberFaultAt around raw [check] fault
  | nested {around : List (Fin messages)} {raw : RawMember (Fin handles)}
      {handle resolved : Fin handles} {place : List Check}
      {fault : CompileError}
      (isMessage : Kind.ofId raw.typeId = .message)
      (refers : raw.nested = some handle)
      (leads : metadata.HandleLeadsTo flavor handle resolved)
      (faulty :
        MessageFaultAt around (metadata.handle resolved).data place fault) :
      MemberFaultAt around raw place fault

end

end Unfolding

/-- A fault is found at a root, or below the message it leads to. -/
inductive RootFaultAt : Root handles messages → List Check → CompileError →
    Prop
  | handle : RootFaultAt (.handle none) [.handle] .nullHandle
  | identifier {handle : Fin handles} {fault : CompileError}
      (undecodable :
        (metadata.handle handle).identifier.decode = .error fault) :
      RootFaultAt (.handle (some handle)) [.identifier] fault
  | flavor {handle : Fin handles} {identifier : String}
      (identified :
        (metadata.handle handle).identifier.decode = .ok identifier)
      (other : ∀ flavor : Flavor, identifier ≠ flavor.identifier)
      (unanswered : ∀ flavor, (metadata.handle handle).lookup flavor = none) :
      RootFaultAt (.handle (some handle)) [.flavor] (.unknownFlavor identifier)
  | message {root : Root handles messages} {message : Option (Fin messages)}
      {flavor : Flavor} {place : List Check} {fault : CompileError}
      (resolved : metadata.resolve root = .ok (message, flavor))
      (faulty : metadata.MessageFaultAt flavor [] message place fault) :
      RootFaultAt root place fault

end Introspection

section Layouts

variable {η : Type}

/-- The name of a declared member is missing or cannot be read. -/
def RawMember.NameFault (message : String) (index : Nat) (raw : RawMember η)
    (fault : CompileError) : Prop :=
  raw.name = none ∧ fault = .nullMemberName message index ∨
    raw.name.decode = .error fault

theorem RawMessage.tellsFirst_membersFrom (message : String) (start : Nat)
    (raws : List (RawMember η)) :
    TellsFirst (fun check fault => ∃ index raw, raws[index]? = some raw ∧
        check = Check.memberName (start + index) ∧
          raw.NameFault message (start + index) fault)
      (membersFrom message start raws) := by
  -- Places count from the beginning of the table, the list from `start` on.
  induction raws generalizing start with
  | nil => exact .ok (by simp)
  | cons raw raws ih =>
      rw [membersFrom]
      cases named : raw.name with
      | none =>
          refine .error ⟨.memberName start,
            ⟨0, raw, rfl, rfl, .inl ⟨named, rfl⟩⟩, ?_⟩
          rintro _ fault ⟨index, other, found, rfl, faulty⟩
          cases index with
          | zero =>
              obtain rfl := Option.some.inj found
              rcases faulty with ⟨-, same⟩ | undecodable
              · exact .inr ⟨rfl, same.symm⟩
              · simp [named, RawText.decode] at undecodable
          | succ index =>
              left
              simp
      | some bytes =>
          refine ((TellsFirst.single (.memberName start) _).bind
            (fun name _ => (ih (start + 1)).map _) ?_).congr fun check fault => ?_
          · rintro _ fault _ fault' ⟨rfl, -⟩ ⟨index, other, -, rfl, -⟩
            have later : start < start + 1 + index := by omega
            simpa using later
          · constructor
            · rintro (⟨rfl, undecodable⟩ | ⟨index, other, found, rfl, faulty⟩)
              · exact ⟨0, raw, rfl, rfl, .inr (named ▸ undecodable)⟩
              · have shifted : start + 1 + index = start + (index + 1) := by
                  omega
                rw [shifted] at faulty ⊢
                exact ⟨index + 1, other, found, rfl, faulty⟩
            · rintro ⟨index, other, found, rfl, faulty⟩
              cases index with
              | zero =>
                  obtain rfl := Option.some.inj found
                  rcases faulty with ⟨absent, -⟩ | undecodable
                  · simp [named] at absent
                  · exact .inl ⟨rfl, named ▸ undecodable⟩
              | succ index =>
                  have shifted : start + (index + 1) = start + 1 + index := by
                    omega
                  rw [shifted] at faulty ⊢
                  exact .inr ⟨index, other, found, rfl, faulty⟩

/-- What is wrong with the table or with a name in it. -/
theorem RawMessage.faultAt_iff_of_table {message : RawMessage η} {name : String}
    (named : message.name.decode = .ok name) (check : Check)
    (fault : CompileError) :
    (.table ≤ check ∧ message.FaultAt check fault) ↔
      (check = .table ∧ message.count ≠ 0 ∧ message.table = none ∧
          fault = .nullMembers name message.count) ∨
        ∃ index raw, message.declared[index]? = some raw ∧
          check = .memberName index ∧ raw.NameFault name index fault := by
  constructor
  · rintro ⟨fromTable, faulty⟩
    cases faulty with
    | scope undecodable => simp at fromTable
    | name undecodable => simp at fromTable
    | noTable named' counted absent =>
        obtain rfl := Except.ok.inj (named.symm.trans named')
        exact .inl ⟨rfl, counted, absent, rfl⟩
    | noMemberName named' found absent =>
        obtain rfl := Except.ok.inj (named.symm.trans named')
        exact .inr ⟨_, _, found, rfl, .inl ⟨absent, rfl⟩⟩
    | memberName found undecodable =>
        exact .inr ⟨_, _, found, rfl, .inr undecodable⟩
  · rintro (⟨rfl, counted, absent, rfl⟩ | ⟨index, raw, found, rfl, faulty⟩)
    · exact ⟨le_refl _, .noTable named counted absent⟩
    · refine ⟨by simp, ?_⟩
      rcases faulty with ⟨absent, rfl⟩ | undecodable
      · exact .noMemberName named found absent
      · exact .memberName found undecodable

theorem RawMessage.tellsFirst_members {message : RawMessage η} {name : String}
    (named : message.name.decode = .ok name) :
    TellsFirst (fun check fault => .table ≤ check ∧ message.FaultAt check fault)
      (message.members name) := by
  refine TellsFirst.congr ?_ fun check fault =>
    (faultAt_iff_of_table named check fault).symm
  unfold members declared
  by_cases empty : message.count = 0
  · rw [if_pos empty]
    exact .ok (by simp [empty])
  rw [if_neg empty]
  cases message.table with
  | none =>
      refine .error ⟨.table, .inl ⟨rfl, empty, rfl, rfl⟩, ?_⟩
      rintro check fault (⟨rfl, -, -, rfl⟩ | ⟨index, raw, found, -⟩)
      · exact .inr ⟨rfl, rfl⟩
      · simp at found
  | some table =>
      refine (tellsFirst_membersFrom name 0 _).congr fun check fault => ?_
      simp

/-- The layout of a message tells the first of the faults that the message has
by itself. -/
theorem RawMessage.tellsFirst_layout (message : RawMessage η) :
    TellsFirst message.FaultAt message.layout := by
  -- Scope, name and table are read in sequence, each part with later checks than
  -- the one before.
  unfold RawMessage.layout
  refine ((TellsFirst.single .scope _).bind (fun scope _ =>
    (TellsFirst.single .name _).bind (fun name named =>
      (RawMessage.tellsFirst_members named).map _) ?_) ?_).congr ?_
  · rintro _ fault check fault' ⟨rfl, -⟩ ⟨fromTable, -⟩
    exact lt_of_lt_of_le (by simp) fromTable
  · rintro _ fault check fault' ⟨rfl, -⟩ (⟨rfl, -⟩ | ⟨fromTable, -⟩)
    · simp
    · exact lt_of_lt_of_le (by simp) fromTable
  · intro check fault
    constructor
    · rintro (⟨rfl, undecodable⟩ | ⟨rfl, undecodable⟩ | ⟨-, faulty⟩)
      · exact .scope undecodable
      · exact .name undecodable
      · exact faulty
    · intro faulty
      cases faulty with
      | scope undecodable => exact .inl ⟨rfl, undecodable⟩
      | name undecodable => exact .inr (.inl ⟨rfl, undecodable⟩)
      | noTable named counted absent =>
          exact .inr (.inr ⟨le_refl _, .noTable named counted absent⟩)
      | noMemberName named found absent =>
          exact .inr (.inr ⟨by simp, .noMemberName named found absent⟩)
      | memberName found undecodable =>
          exact .inr (.inr ⟨by simp, .memberName found undecodable⟩)

theorem RawMessage.FaultAt.bounds {message : RawMessage η} {check : Check}
    {fault : CompileError} (faulty : message.FaultAt check fault) :
    .data < check ∧ check < .repetition := by
  cases faulty <;> simp

theorem Handle.FaultAt.lt_data {μ : Type} {flavor : Flavor}
    {handle : Handle η μ} {check : Check} {fault : CompileError}
    (faulty : handle.FaultAt flavor check fault) : check < .data := by
  cases faulty <;> simp

theorem RawMessage.HasType.unique {message : RawMessage η}
    {type type' : ScopedName} (typed : message.HasType type)
    (typed' : message.HasType type') : type = type' :=
  ScopedName.ext (Except.ok.inj (typed.1.symm.trans typed'.1))
    (Except.ok.inj (typed.2.symm.trans typed'.2))

theorem RawMessage.hasType_of_layout {message : RawMessage η}
    {layout : Layout Kind η} (laidOut : message.layout = .ok layout) :
    message.HasType layout.type := by
  obtain ⟨inScope, named, -⟩ := (RawMessage.layout_eq_ok_iff _ _).mp laidOut
  exact ⟨inScope, named⟩

end Layouts

end Metastring
