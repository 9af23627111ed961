import Metastring.Compile
import Metastring.Proofs.MessageGraph

/-!
# Unfolding metadata to trees

A message of raw metadata unfolds to a descriptor when the descriptor says what
the message and everything nested in it say: the decoded texts, the kinds that
the numbers stand for, the declared members with their shapes, and below each
member of kind message the unfolding of the message its handle leads to.  A
message that is nested in several places is unfolded in each of them.

Unfoldings are unique.  A message has one when no cycle can be reached from it,
everything that can be reached has a layout, and all nested handles lead
somewhere.  If all kinds are known, the unfolding is also what a specification
says.
-/

namespace Metastring

/-- The numbers from 1 to 18 stand for kinds that can be declared. -/
theorem Kind.exists_declared {id : UInt8} (known : 1 ≤ id ∧ id ≤ 18) :
    ∃ declared : DeclaredKind, declared.kind = Kind.ofId id := by
  have atLeast : 1 ≤ id.toNat := known.1
  have atMost : id.toNat ≤ 18 := known.2
  unfold Kind.ofId
  split
  case h_18 => exact ⟨.message, rfl⟩
  case h_19 => grind
  all_goals exact ⟨.leaf _, rfl⟩

namespace Introspection

variable {handles messages : Nat}

section Relation

variable (metadata : Introspection handles messages) (flavor : Flavor)

mutual

/-- A descriptor says what a message and everything nested in it say. -/
inductive Unfolds : Fin messages → Descriptor → Prop
  | message {message : Fin messages} {type : ScopedName}
      {members : List (Member Kind Descriptor)}
      (scope_eq : (metadata.message message).scope.decode = .ok type.scope)
      (name_eq : (metadata.message message).name.decode = .ok type.name)
      (tabled : (metadata.message message).count ≠ 0 →
        (metadata.message message).table ≠ none)
      (members_unfold :
        MembersUnfold (metadata.message message).declared members) :
      Unfolds message (.mk ⟨type, members⟩)

/-- The members of a descriptor say what raw members say, one by one. -/
inductive MembersUnfold :
    List (RawMember (Fin handles)) → List (Member Kind Descriptor) → Prop
  | nil : MembersUnfold [] []
  | cons {raw : RawMember (Fin handles)} {member : Member Kind Descriptor}
      {raws : List (RawMember (Fin handles))}
      {members : List (Member Kind Descriptor)}
      (member_unfolds : MemberUnfolds raw member)
      (members_unfold : MembersUnfold raws members) :
      MembersUnfold (raw :: raws) (member :: members)

/-- A member of a descriptor says what a raw member says.  A handle beside
another kind than message is ignored. -/
inductive MemberUnfolds :
    RawMember (Fin handles) → Member Kind Descriptor → Prop
  | plain {raw : RawMember (Fin handles)} {bytes : List UInt8} {name : String}
      (named : raw.name = some bytes)
      (name_eq : RawText.decode (some bytes) = .ok name)
      (absent : Kind.ofId raw.typeId = .message → raw.nested = none) :
      MemberUnfolds raw ⟨name, Kind.ofId raw.typeId, raw.shape, none⟩
  | nesting {raw : RawMember (Fin handles)} {bytes : List UInt8}
      {name : String} {handle : Fin handles} {message : Fin messages}
      {descriptor : Descriptor}
      (named : raw.name = some bytes)
      (name_eq : RawText.decode (some bytes) = .ok name)
      (isMessage : Kind.ofId raw.typeId = .message)
      (refers : raw.nested = some handle)
      (leads : metadata.target flavor handle = some message)
      (unfolds : Unfolds message descriptor) :
      MemberUnfolds raw
        ⟨name, Kind.ofId raw.typeId, raw.shape, some descriptor⟩

end

end Relation

section Uniqueness

variable {metadata : Introspection handles messages} {flavor : Flavor}

mutual

/-- A message unfolds to at most one descriptor. -/
theorem Unfolds.unique {message : Fin messages}
    {descriptor descriptor' : Descriptor}
    (unfolds : metadata.Unfolds flavor message descriptor)
    (unfolds' : metadata.Unfolds flavor message descriptor') :
    descriptor = descriptor' := by
  match unfolds, unfolds' with
  | .message inScope named _ members, .message inScope' named' _ members' =>
    have sameScope := Except.ok.inj (inScope.symm.trans inScope')
    have sameName := Except.ok.inj (named.symm.trans named')
    rw [ScopedName.ext sameScope sameName, members.unique members']

theorem MembersUnfold.unique {raws : List (RawMember (Fin handles))}
    {members members' : List (Member Kind Descriptor)}
    (unfold : metadata.MembersUnfold flavor raws members)
    (unfold' : metadata.MembersUnfold flavor raws members') :
    members = members' := by
  match unfold, unfold' with
  | .nil, .nil => rfl
  | .cons first rest, .cons first' rest' =>
    rw [first.unique first', rest.unique rest']

theorem MemberUnfolds.unique {raw : RawMember (Fin handles)}
    {member member' : Member Kind Descriptor}
    (unfolds : metadata.MemberUnfolds flavor raw member)
    (unfolds' : metadata.MemberUnfolds flavor raw member') :
    member = member' := by
  have sameName {bytes bytes' : List UInt8} {name name' : String}
      (named : raw.name = some bytes) (named' : raw.name = some bytes')
      (decoded : RawText.decode (some bytes) = .ok name)
      (decoded' : RawText.decode (some bytes') = .ok name') : name = name' := by
    obtain rfl := Option.some.inj (named.symm.trans named')
    exact Except.ok.inj (decoded.symm.trans decoded')
  match unfolds, unfolds' with
  | .plain named decoded _, .plain named' decoded' _ =>
    rw [sameName named named' decoded decoded']
  | .plain _ _ absent, .nesting _ _ isMessage refers _ _ =>
    rw [absent isMessage] at refers
    contradiction
  | .nesting _ _ isMessage refers _ _, .plain _ _ absent =>
    rw [absent isMessage] at refers
    contradiction
  | .nesting named decoded _ refers leads unfolds,
      .nesting named' decoded' _ refers' leads' unfolds' =>
    obtain rfl := Option.some.inj (refers.symm.trans refers')
    obtain rfl := Option.some.inj (leads.symm.trans leads')
    rw [sameName named named' decoded decoded', unfolds.unique unfolds']

end

end Uniqueness

section Existence

/-- Everything that can be reached from a message can be unfolded: there is no
cycle, every message has a layout, and every handle of a member of kind message
leads to a message. -/
structure Unfoldable (metadata : Introspection handles messages)
    (flavor : Flavor) (root : Fin messages) : Prop where
  acyclic : metadata.Acyclic flavor root
  laidOut : ∀ message, metadata.Reaches flavor root message →
    ∃ layout, (metadata.message message).layout = .ok layout
  resolved : ∀ message, metadata.Reaches flavor root message →
    ∀ raw ∈ (metadata.message message).declared,
      Kind.ofId raw.typeId = .message → ∀ handle, raw.nested = some handle →
        ∃ inner, metadata.target flavor handle = some inner

/-- All members that can be reached have kinds that can be declared. -/
def Declarable (metadata : Introspection handles messages) (flavor : Flavor)
    (root : Fin messages) : Prop :=
  ∀ message, metadata.Reaches flavor root message →
    ∀ raw ∈ (metadata.message message).declared,
      1 ≤ raw.typeId ∧ raw.typeId ≤ 18

variable {metadata : Introspection handles messages} {flavor : Flavor}

theorem exists_membersUnfold {declarable : Prop}
    {raws : List (RawMember (Fin handles))}
    (each : ∀ raw ∈ raws, ∃ member, metadata.MemberUnfolds flavor raw member ∧
      (declarable → ∃ spec, memberDescriptor spec = member)) :
    ∃ members, metadata.MembersUnfold flavor raws members ∧
      (declarable → ∃ specs, memberDescriptors specs = members) := by
  induction raws with
  | nil => exact ⟨[], .nil, fun _ => ⟨[], rfl⟩⟩
  | cons raw raws ih =>
      obtain ⟨member, unfolds, specified⟩ := each raw List.mem_cons_self
      obtain ⟨members, unfold, specifiedRest⟩ :=
        ih fun other isLater => each other (List.mem_cons_of_mem raw isLater)
      refine ⟨member :: members, .cons unfolds unfold, fun all => ?_⟩
      obtain ⟨spec, rfl⟩ := specified all
      obtain ⟨specs, rfl⟩ := specifiedRest all
      exact ⟨spec :: specs, rfl⟩

/-- A member unfolds when it is read as something and, if it nests a message,
that message unfolds. -/
theorem exists_memberUnfolds {declarable : Prop}
    {raw : RawMember (Fin handles)} {read : Member Kind (Fin handles)}
    (reads : raw.Reads read)
    (known : declarable → 1 ≤ raw.typeId ∧ raw.typeId ≤ 18)
    (nested : Kind.ofId raw.typeId = .message →
      ∀ handle, raw.nested = some handle → ∃ message descriptor,
        metadata.target flavor handle = some message ∧
          metadata.Unfolds flavor message descriptor ∧
          (declarable → ∃ spec, MessageSpec.descriptor spec = descriptor)) :
    ∃ member, metadata.MemberUnfolds flavor raw member ∧
      (declarable → ∃ spec, memberDescriptor spec = member) := by
  obtain ⟨bytes, named⟩ := Option.ne_none_iff_exists'.mp reads.named
  have decoded := reads.name_eq
  rw [named] at decoded
  have plain (absent : Kind.ofId raw.typeId = .message → raw.nested = none) :
      ∃ member, metadata.MemberUnfolds flavor raw member ∧
        (declarable → ∃ spec, memberDescriptor spec = member) := by
    refine ⟨_, .plain named decoded absent, fun all => ?_⟩
    obtain ⟨kind, sameKind⟩ := Kind.exists_declared (known all)
    exact ⟨⟨read.name, kind, raw.shape, none⟩,
      by rw [memberDescriptor, sameKind]⟩
  by_cases isMessage : Kind.ofId raw.typeId = .message
  · cases refers : raw.nested with
    | none => exact plain fun _ => refers
    | some handle =>
        obtain ⟨message, descriptor, leads, unfolds, specified⟩ :=
          nested isMessage handle refers
        refine ⟨_, .nesting named decoded isMessage refers leads unfolds,
          fun all => ?_⟩
        obtain ⟨spec, rfl⟩ := specified all
        exact ⟨⟨read.name, .message, raw.shape, some spec⟩,
          by rw [memberDescriptor, isMessage, DeclaredKind.kind]⟩
  · exact plain fun isMessage' => absurd isMessage' isMessage

theorem Unfoldable.exists_unfolds {root message : Fin messages}
    (unfoldable : metadata.Unfoldable flavor root)
    (reached : metadata.Reaches flavor root message)
    (accessible :
      Acc (fun inner outer => metadata.Leads flavor outer inner) message) :
    ∃ descriptor, metadata.Unfolds flavor message descriptor ∧
      (metadata.Declarable flavor root →
        ∃ spec, MessageSpec.descriptor spec = descriptor) := by
  induction accessible with
  | intro message _ ih =>
      obtain ⟨layout, laidOut⟩ := unfoldable.laidOut message reached
      obtain ⟨inScope, named, tabled, reads⟩ :=
        (RawMessage.layout_eq_ok_iff _ _).mp laidOut
      have each (raw : RawMember (Fin handles))
          (declared : raw ∈ (metadata.message message).declared) :
          ∃ member, metadata.MemberUnfolds flavor raw member ∧
            (metadata.Declarable flavor root →
              ∃ spec, memberDescriptor spec = member) := by
        obtain ⟨read, isRead⟩ := exists_of_forall₂ reads declared
        refine exists_memberUnfolds isRead
          (fun all => all message reached raw declared)
          fun isMessage handle refers => ?_
        obtain ⟨inner, leadsTo⟩ :=
          unfoldable.resolved message reached raw declared isMessage handle
            refers
        have leads : metadata.Leads flavor message inner :=
          ⟨raw, declared, isMessage, handle, refers, leadsTo⟩
        obtain ⟨descriptor, unfolds, specified⟩ :=
          ih inner leads (reached.tail leads)
        exact ⟨inner, descriptor, leadsTo, unfolds, specified⟩
      obtain ⟨members, unfold, specified⟩ := exists_membersUnfold each
      refine ⟨.mk ⟨layout.type, members⟩,
        .message inScope named tabled unfold, fun all => ?_⟩
      obtain ⟨specs, rfl⟩ := specified all
      exact ⟨.mk ⟨layout.type, specs⟩, rfl⟩

end Existence

end Introspection

end Metastring
