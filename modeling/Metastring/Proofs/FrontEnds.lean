import Metastring.Proofs.Unfolding
import Metastring.Proofs.WalkSimulation

/-!
# All front ends compile alike

A message type can be compiled from raw metadata, from a descriptor built
beforehand, or from a specification.  The three are walked through different
references, described when the walk reaches them, and yet they have the same
outcome whenever they say the same: a message compiles like its unfolding, and
a specification compiles like the descriptor with its content.  This includes
which failure is reported, if the walk fails.
-/

namespace Metastring

namespace Introspection

variable {handles messages : Nat} {metadata : Introspection handles messages}
  {flavor : Flavor}

/-- A handle leads to a message that unfolds to a descriptor. -/
def LeadsToUnfolding (metadata : Introspection handles messages)
    (flavor : Flavor) (handle : Fin handles) (descriptor : Descriptor) : Prop :=
  ∃ message, metadata.target flavor handle = some message ∧
    metadata.Unfolds flavor message descriptor

theorem MemberUnfolds.exists_reads {raw : RawMember (Fin handles)}
    {member : Member Kind Descriptor}
    (unfolds : metadata.MemberUnfolds flavor raw member) :
    ∃ read, raw.Reads read ∧
      read.Alike (metadata.LeadsToUnfolding flavor) member := by
  cases unfolds with
  | @plain _ bytes name named decoded absent =>
      refine ⟨⟨name, Kind.ofId raw.typeId, raw.shape, none⟩,
        ⟨by simp [named], named ▸ decoded, rfl, rfl, ?_⟩,
        ⟨rfl, rfl, rfl, fun _ => .none⟩⟩
      by_cases isMessage : Kind.ofId raw.typeId = .message
      · rw [if_pos isMessage, absent isMessage]
      · rw [if_neg isMessage]
  | @nesting _ bytes name handle message descriptor named decoded isMessage
      refers leads unfolds =>
      refine ⟨⟨name, Kind.ofId raw.typeId, raw.shape, some handle⟩,
        ⟨by simp [named], named ▸ decoded, rfl, rfl, ?_⟩,
        ⟨rfl, rfl, rfl, fun _ => .some ⟨message, leads, unfolds⟩⟩⟩
      rw [if_pos isMessage, refers]

theorem MembersUnfold.exists_reads {raws : List (RawMember (Fin handles))}
    {members : List (Member Kind Descriptor)}
    (unfold : metadata.MembersUnfold flavor raws members) :
    ∃ reads, List.Forall₂ RawMember.Reads raws reads ∧
      List.Forall₂ (Member.Alike (metadata.LeadsToUnfolding flavor)) reads
        members := by
  induction raws generalizing members with
  | nil =>
      cases unfold
      exact ⟨[], .nil, .nil⟩
  | cons raw raws ih =>
      cases unfold with
      | cons unfolds rest =>
          obtain ⟨read, isRead, alike⟩ := unfolds.exists_reads
          obtain ⟨reads, areRead, allAlike⟩ := ih rest
          exact ⟨read :: reads, .cons isRead areRead, .cons alike allAlike⟩

/-- A message that unfolds has a layout that is like the one of its
unfolding. -/
theorem Unfolds.exists_layout {message : Fin messages} {descriptor : Descriptor}
    (unfolds : metadata.Unfolds flavor message descriptor) :
    ∃ layout, (metadata.message message).layout = .ok layout ∧
      layout.Alike (metadata.LeadsToUnfolding flavor) descriptor.layout := by
  obtain ⟨inScope, named, tabled, unfold⟩ := unfolds
  rename_i type members
  obtain ⟨reads, areRead, alike⟩ := unfold.exists_reads
  exact ⟨⟨type, reads⟩,
    (RawMessage.layout_eq_ok_iff _ _).mpr ⟨inScope, named, tabled, areRead⟩,
    ⟨rfl, rfl, alike⟩⟩

/-- A message compiles like its unfolding. -/
theorem Unfolds.metastringOf_eq {message : Fin messages}
    {descriptor : Descriptor}
    (unfolds : metadata.Unfolds flavor message descriptor) (options : Options) :
    metadata.metastringOf options flavor (some message) =
      (descriptor.tryCompile options).outcome := by
  have describedAlike : ∀ handle nested,
      metadata.LeadsToUnfolding flavor handle nested →
        DescribedAlike (metadata.LeadsToUnfolding flavor)
          (metadata.describe flavor handle) nested.describe := by
    rintro handle nested ⟨inner, leads, unfolds⟩
    obtain ⟨layout, laidOut, alike⟩ := unfolds.exists_layout
    rw [describe_of_target leads, laidOut]
    exact .ok alike
  obtain ⟨layout, laidOut, alike⟩ := unfolds.exists_layout
  calc
    metadata.metastringOf options flavor (some message) =
        metastring options (metadata.describe flavor) metadata.names.length
          layout := by
      simp only [metastringOf, layoutOf, laidOut]
      rfl
    _ = metastring options Descriptor.describe descriptor.height
        descriptor.layout :=
      metastring_eq_of_alike options describedAlike (names_suffice laidOut)
        (Descriptor.budgetSuffices (Nat.le_refl _)) alike
    _ = (descriptor.tryCompile options).outcome :=
      (Report.ofLayout_outcome _ _ _ _).symm

end Introspection

section Specifications

/-- A specification has the content of a descriptor. -/
def MessageSpec.Specifies (spec : MessageSpec) (descriptor : Descriptor) :
    Prop :=
  spec.descriptor = descriptor

theorem memberDescriptors_alike (specs : List MemberSpec) :
    List.Forall₂ (Member.Alike MessageSpec.Specifies)
      (specs.map fun member =>
        ⟨member.name, member.kind.kind, member.shape, member.nested⟩)
      (memberDescriptors specs) := by
  induction specs with
  | nil => exact .nil
  | cons spec specs ih =>
      refine .cons ?_ ih
      obtain ⟨name, kind, shape, nested⟩ := spec
      cases nested with
      | none => exact ⟨rfl, rfl, rfl, fun _ => .none⟩
      | some nested => exact ⟨rfl, rfl, rfl, fun _ => .some rfl⟩

theorem MessageSpec.alike_descriptor (spec : MessageSpec) :
    spec.description.Alike MessageSpec.Specifies spec.descriptor.layout := by
  obtain ⟨⟨type, members⟩⟩ := spec
  exact ⟨rfl, rfl, memberDescriptors_alike members⟩

/-- A specification compiles like the descriptor with its content, and the same
is logged. -/
theorem MessageSpec.tryCompile_eq (spec : MessageSpec) (options : Options) :
    spec.tryCompile options = spec.descriptor.tryCompile options := by
  have describedAlike : ∀ (nested : MessageSpec) (descriptor : Descriptor),
      nested.Specifies descriptor →
        DescribedAlike MessageSpec.Specifies (.ok nested.description)
          descriptor.describe := by
    rintro nested _ rfl
    exact .ok nested.alike_descriptor
  have sameType : spec.description.type = spec.descriptor.layout.type := by
    obtain ⟨⟨type, members⟩⟩ := spec
    rfl
  have same : metastring options
      (fun nested : MessageSpec => .ok nested.description) spec.levels
        spec.description =
      metastring options (fun nested : Descriptor => .ok nested.layout)
        spec.descriptor.height spec.descriptor.layout :=
    congrArg (Except.map (formatVersion ++ ·))
      (walk_eq_of_alike options describedAlike _ [] none spec.alike_descriptor)
  unfold tryCompile Descriptor.tryCompile Report.ofLayout
  rw [same, sameType]

end Specifications

namespace Introspection

variable {handles messages : Nat}

/-- Where a handle is resolved to a message that can be unfolded, the handle
and the message compile like the unfolding, which is unique.  If all kinds are
known, there is a specification with the same content, and every such
specification compiles like them too. -/
theorem front_ends_agree (metadata : Introspection handles messages)
    {handle : Fin handles} {message : Fin messages} {flavor : Flavor}
    (resolved :
      metadata.resolve (.handle (some handle)) = .ok (some message, flavor))
    (unfoldable : metadata.Unfoldable flavor message) :
    ∃ descriptor, metadata.Unfolds flavor message descriptor ∧
      (∀ descriptor', metadata.Unfolds flavor message descriptor' →
        descriptor' = descriptor) ∧
      (∀ options,
        (metadata.tryCompileHandle options (some handle)).outcome =
            (descriptor.tryCompile options).outcome ∧
          (metadata.tryCompileMessage options (some message)
              flavor.identifier).outcome =
            (descriptor.tryCompile options).outcome) ∧
      (metadata.Declarable flavor message →
        (∃ spec : MessageSpec, spec.descriptor = descriptor) ∧
          ∀ spec : MessageSpec, spec.descriptor = descriptor → ∀ options,
            (spec.tryCompile options).outcome =
              (descriptor.tryCompile options).outcome) := by
  obtain ⟨descriptor, unfolds, specified⟩ :=
    unfoldable.exists_unfolds .refl unfoldable.acyclic.acc
  refine ⟨descriptor, unfolds, fun _ unfolds' => unfolds'.unique unfolds, ?_,
    fun declarable => ⟨specified declarable, ?_⟩⟩
  · intro options
    have outcome := metadata.tryCompile_outcome options (.handle (some handle))
    rw [resolved] at outcome
    have walked := unfolds.metastringOf_eq options
    exact ⟨outcome.trans walked,
      (metadata.tryCompileMessage_outcome options _ flavor).trans walked⟩
  · rintro spec rfl options
    rw [spec.tryCompile_eq]

theorem sharing_unfoldable : sharing.Unfoldable .c 0 where
  acyclic := sharing_acyclic 0
  laidOut message _ := by
    fin_cases message
    · exact ⟨⟨⟨"a___b", "A"⟩, [⟨"x", .message, {}, some 2⟩,
        ⟨"y", .message, {}, some 2⟩]⟩, by cbv⟩
    · exact ⟨⟨⟨"", "B"⟩, [⟨"z", .leaf .float, {}, none⟩]⟩, by cbv⟩
  resolved message _ raw declared isMessage handle refers := by
    obtain ⟨-, rfl⟩ := sharing_nested declared refers
    exact ⟨1, sharing_target⟩

theorem sharing_declarable : sharing.Declarable .c 0 := by
  intro message _
  fin_cases message <;> decide

theorem front_ends_agree_sharing :
    ∃ descriptor, sharing.Unfolds .c 0 descriptor ∧
      (sharing.tryCompileHandle {} (some 0)).outcome =
          (descriptor.tryCompile {}).outcome ∧
        ∃ spec : MessageSpec, spec.descriptor = descriptor ∧
          (spec.tryCompile {}).outcome =
            (descriptor.tryCompile {}).outcome := by
  have resolved : sharing.resolve (.handle (some 0)) = .ok (some 0, .c) := rfl
  obtain ⟨descriptor, unfolds, -, alike, specified⟩ :=
    front_ends_agree sharing resolved sharing_unfoldable
  obtain ⟨⟨spec, sameContent⟩, alikeSpec⟩ := specified sharing_declarable
  exact ⟨descriptor, unfolds, (alike {}).1, spec, sameContent,
    alikeSpec spec sameContent {}⟩

end Introspection

end Metastring
