import Metastring.Proofs.Composition
import Metastring.Proofs.FaultyPosition
import Metastring.Proofs.WalkSimulation

/-!
# The maximum for unbounded sequences is substituted

A sequence that is declared without a bound is shown with the maximum of the
options.  It is shown like a sequence that is declared with this maximum for its
bound, so compiling under a maximum and writing the maximum into the descriptor
come to the same.

The maximum is shown and nothing else is done with it.  It has no influence on
whether a compilation fails and how, and where no sequence without a bound is
reached, the metastring does not depend on it either.
-/

namespace Metastring

section Bounds

/-- The container with a bound in place of none. -/
def Container.bounded (maximum : UInt64) : Container → Container
  | .unboundedSequence => .boundedSequence maximum
  | container => container

/-- The shape with a bound, if it is that of a sequence without one. -/
def Shape.bounded (maximum : UInt64) (shape : Shape) : Shape :=
  if shape.container = .unboundedSequence then .sequence (some maximum)
  else shape

mutual

/-- The descriptor with a bound for all sequences without one, at every
depth. -/
def Descriptor.bounded (maximum : UInt64) : Descriptor → Descriptor
  | .mk ⟨type, members⟩ => .mk ⟨type, membersBounded maximum members⟩
termination_by structural descriptor => descriptor

def membersBounded (maximum : UInt64) :
    List (Member Kind Descriptor) → List (Member Kind Descriptor)
  | [] => []
  | member :: rest =>
    memberBounded maximum member :: membersBounded maximum rest
termination_by structural members => members

def memberBounded (maximum : UInt64) :
    Member Kind Descriptor → Member Kind Descriptor
  | ⟨name, kind, shape, none⟩ => ⟨name, kind, shape.bounded maximum, none⟩
  | ⟨name, kind, shape, some nested⟩ =>
    ⟨name, kind, shape.bounded maximum, some (nested.bounded maximum)⟩
termination_by structural member => member

end

theorem Shape.container_bounded {maximum : UInt64} (positive : 0 < maximum)
    (shape : Shape) :
    (shape.bounded maximum).container = shape.container.bounded maximum := by
  have nonzero : maximum ≠ 0 := by
    rintro rfl
    exact absurd positive (by decide)
  unfold bounded
  split
  case isTrue isUnbounded =>
    rw [isUnbounded]
    simp [sequence, container, nonzero, Container.bounded]
  case isFalse isOther =>
    cases isContainer : shape.container with
    | unboundedSequence => exact absurd isContainer isOther
    | single | array size | boundedSequence size => rfl

theorem Container.token_bounded (maximum : UInt64) (options : Options)
    (name : String) (container : Container) :
    (container.bounded maximum).token options name =
      container.token ⟨maximum⟩ name := by
  cases container <;> rfl

theorem Container.bounded_eq_single_iff (maximum : UInt64)
    (container : Container) :
    container.bounded maximum = .single ↔ container = .single := by
  cases container <;> simp [bounded]

end Bounds

section Showing

variable {options options' : Options}
  {related : Descriptor → Descriptor → Prop}

/-- Two members are shown alike under different options, if the messages they
nest are. -/
structure Member.ShownAlike (options options' : Options)
    (related : Descriptor → Descriptor → Prop)
    (member member' : Member Kind Descriptor) : Prop where
  name_eq : member.name = member'.name
  kind_eq : member.kind = member'.kind
  label_eq : member.label = member'.label
  token_eq : member.shape.container.token options member.name =
    member'.shape.container.token options' member'.name
  nested_rel : member.kind = .message →
    Option.Rel related member.nested member'.nested

theorem Member.ShownAlike.segment_eq {member member' : Member Kind Descriptor}
    {nested nested' : Option String → Descriptor → Except CompileError String}
    (alike : member.ShownAlike options options' related member')
    (sameNested : ∀ label inner inner', related inner inner' →
      nested label inner = nested' label inner') :
    member.segment options nested = member'.segment options' nested' := by
  unfold Member.segment
  rw [alike.token_eq, ← alike.kind_eq, ← alike.label_eq, ← alike.name_eq]
  cases isKind : member.kind with
  | leaf leaf => rfl
  | unknown id => rfl
  | message =>
      have nestedRel := alike.nested_rel isKind
      generalize member.nested = inner at nestedRel ⊢
      generalize member'.nested = inner' at nestedRel ⊢
      cases nestedRel with
      | none => rfl
      | some areRelated => simp only [sameNested _ _ _ areRelated]

/-- Related descriptors have the same name, and members that are shown alike and
nest related descriptors. -/
def ShownAlike (options options' : Options)
    (related : Descriptor → Descriptor → Prop) : Prop :=
  ∀ descriptor descriptor', related descriptor descriptor' →
    descriptor.layout.type = descriptor'.layout.type ∧
      List.Forall₂ (Member.ShownAlike options options' related)
        descriptor.layout.members descriptor'.layout.members

theorem walk_eq_of_shownAlike (alike : ShownAlike options options' related)
    (budget : Nat) (opened : List String) (label : Option String)
    {descriptor descriptor' : Descriptor}
    (areRelated : related descriptor descriptor') :
    walk options Descriptor.describe budget opened label descriptor.layout =
      walk options' Descriptor.describe budget opened label
        descriptor'.layout := by
  obtain ⟨sameType, pairs⟩ := alike descriptor descriptor' areRelated
  induction budget generalizing opened label descriptor descriptor' with
  | zero => simp only [walk, sameType]
  | succ budget ih =>
      by_cases isOpen : descriptor.layout.type.qualified ∈ opened
      · have isOpen' : descriptor'.layout.type.qualified ∈ opened :=
          sameType ▸ isOpen
        rw [walk_of_opened options _ _ label isOpen,
          walk_of_opened options' _ _ label isOpen', sameType]
      have fresh' : descriptor'.layout.type.qualified ∉ opened :=
        sameType ▸ isOpen
      have sameToken : descriptor.layout.token label =
          descriptor'.layout.token label := by
        simp only [Layout.token, sameType, pairs.length_eq]
      rw [walk_of_fresh options _ budget label isOpen,
        walk_of_fresh options' _ budget label fresh', sameToken]
      congr 1
      apply mapM_eq_of_forall₂
      refine pairs.imp fun member member' memberAlike => ?_
      refine memberAlike.segment_eq fun nestedLabel inner inner' nestedRel => ?_
      rw [sameType]
      obtain ⟨sameInner, innerPairs⟩ := alike inner inner' nestedRel
      exact ih _ nestedLabel nestedRel sameInner innerPairs

theorem outcome_eq_of_shownAlike (alike : ShownAlike options options' related)
    {descriptor descriptor' : Descriptor}
    (areRelated : related descriptor descriptor') :
    (descriptor.tryCompile options).outcome =
      (descriptor'.tryCompile options').outcome := by
  rw [Descriptor.outcome_eq_walk (Nat.le_max_left _ descriptor'.height),
    Descriptor.outcome_eq_walk (Nat.le_max_right descriptor.height _),
    walk_eq_of_shownAlike alike _ [] none areRelated]

end Showing

section Substitution

variable {maximum : UInt64} (positive : 0 < maximum) (options : Options)
include positive

theorem memberBounded_shownAlike (member : Member Kind Descriptor) :
    Member.ShownAlike ⟨maximum⟩ options
      (fun inner inner' => inner' = inner.bounded maximum) member
      (memberBounded maximum member) := by
  obtain ⟨name, kind, shape, nested⟩ := member
  have sameToken : shape.container.token ⟨maximum⟩ name =
      (shape.bounded maximum).container.token options name := by
    rw [Shape.container_bounded positive, Container.token_bounded]
  have sameLabel (nested' : Option Descriptor) :
      (Member.mk name kind shape nested).label =
        (Member.mk name kind (shape.bounded maximum) nested').label := by
    simp only [Member.label, Shape.container_bounded positive,
      Container.bounded_eq_single_iff]
  cases nested with
  | none => exact ⟨rfl, rfl, sameLabel none, sameToken, fun _ => .none⟩
  | some nested =>
      exact ⟨rfl, rfl, sameLabel (some (nested.bounded maximum)), sameToken,
        fun _ => .some rfl⟩

theorem shownAlike_bounded :
    ShownAlike ⟨maximum⟩ options
      (fun inner inner' => inner' = inner.bounded maximum) := by
  rintro ⟨⟨type, members⟩⟩ _ rfl
  refine ⟨rfl, ?_⟩
  dsimp only [Descriptor.bounded, Descriptor.layout]
  induction members with
  | nil => exact .nil
  | cons member members ih =>
      exact .cons (memberBounded_shownAlike positive options member) ih

end Substitution

section Reached

/-- The walk of a descriptor below the given names gets to a member, of the
descriptor itself or of a message nested in it. -/
inductive Descriptor.Visits (options : Options) :
    List String → Descriptor → Member Kind Descriptor → Prop
  | here {opened : List String} {descriptor : Descriptor}
      {member : Member Kind Descriptor}
      (getsTo :
        GetsTo options Descriptor.describe opened descriptor.layout member) :
      Visits options opened descriptor member
  | inside {opened : List String} {descriptor inner : Descriptor}
      {member deeper : Member Kind Descriptor}
      (getsTo :
        GetsTo options Descriptor.describe opened descriptor.layout member)
      (isMessage : member.kind = .message) (refers : member.nested = some inner)
      (visits :
        Visits options (descriptor.layout.type.qualified :: opened) inner
          deeper) :
      Visits options opened descriptor deeper

variable {options : Options}

theorem GetsTo.mem {opened : List String} {layout : Layout Kind Descriptor}
    {member : Member Kind Descriptor}
    (getsTo : GetsTo options Descriptor.describe opened layout member) :
    member ∈ layout.members := by
  obtain ⟨-, before, after, split, -⟩ := getsTo
  simp [split]

/-- A walk that succeeds has got to every member. -/
theorem getsTo_of_walk {budget : Nat} {opened : List String}
    {label : Option String} {descriptor : Descriptor} {text : String}
    (succeeds : walk options Descriptor.describe (budget + 1) opened label
      descriptor.layout = .ok text)
    {member : Member Kind Descriptor}
    (isMember : member ∈ descriptor.layout.members) :
    GetsTo options Descriptor.describe opened descriptor.layout member := by
  refine ⟨Descriptor.not_mem_of_walk_ok succeeds .self, ?_⟩
  obtain ⟨segments, visited, -⟩ := exists_segments_of_walk succeeds
  obtain ⟨before, after, split⟩ := List.append_of_mem isMember
  refine ⟨before, after, split, fun other isBefore => ?_⟩
  have isOther : other ∈ descriptor.layout.members := by
    rw [split]
    exact List.mem_append_left _ isBefore
  obtain ⟨segment, walked⟩ := exists_of_forall₂ visited isOther
  exact ⟨budget, segment, walked⟩

theorem Descriptor.Contains.visits_of_walk {descriptor inner : Descriptor}
    (contains : descriptor.Contains inner) {budget : Nat}
    {opened : List String} {label : Option String} {text : String}
    (succeeds : walk options Descriptor.describe budget opened label
      descriptor.layout = .ok text)
    {member : Member Kind Descriptor} (isMember : member ∈ inner.layout.members) :
    descriptor.Visits options opened member := by
  induction contains generalizing budget opened label text with
  | self =>
      cases budget with
      | zero => simp [walk] at succeeds
      | succ budget => exact .here (getsTo_of_walk succeeds isMember)
  | nested isOuter isMessage refers _ ih =>
      obtain ⟨budget, text', rfl, walked⟩ :=
        Descriptor.walk_nested succeeds isOuter isMessage refers
      have getsTo := getsTo_of_walk succeeds isOuter
      exact .inside getsTo isMessage refers (ih walked isMember)

/-- A descriptor without sequences that lack a bound is shown in the same way
under all options. -/
theorem shownAlike_of_bounded (options options' : Options) :
    ShownAlike options options' fun descriptor descriptor' =>
      descriptor' = descriptor ∧ ∀ inner, descriptor.Contains inner →
        ∀ member ∈ inner.layout.members,
          member.shape.container ≠ .unboundedSequence := by
  rintro descriptor _ ⟨rfl, areBounded⟩
  refine ⟨rfl, List.forall₂_same.mpr fun member isMember => ?_⟩
  refine ⟨rfl, rfl, rfl, ?_, fun isMessage => ?_⟩
  · have isBounded := areBounded _ .self member isMember
    cases isContainer : member.shape.container with
    | unboundedSequence => exact absurd isContainer isBounded
    | single | array size | boundedSequence size => rfl
  · cases refers : member.nested with
    | none => exact .none
    | some inner =>
        refine .some ⟨rfl, fun deeper contains => ?_⟩
        exact areBounded deeper (.nested isMember isMessage refers contains)

end Reached

/-- Under all options a descriptor fails to compile for the same reason. -/
theorem Descriptor.error_iff_error (descriptor : Descriptor)
    (options options' : Options) (fault : CompileError) :
    (descriptor.tryCompile options).outcome = .error fault ↔
      (descriptor.tryCompile options').outcome = .error fault := by
  -- The first faulty position has nothing to do with options.
  rw [(descriptor.tellsFirst_tryCompile options).error_iff,
    (descriptor.tellsFirst_tryCompile options').error_iff]

theorem Descriptor.outcome_eq_of_visits {descriptor : Descriptor}
    {options : Options}
    (bounded : ∀ member, descriptor.Visits options [] member →
      member.shape.container ≠ .unboundedSequence) (options' : Options) :
    (descriptor.tryCompile options).outcome =
      (descriptor.tryCompile options').outcome := by
  cases compiled : (descriptor.tryCompile options).outcome with
  | error fault =>
      exact ((descriptor.error_iff_error options options' fault).mp
        compiled).symm
  | ok text =>
      rw [← compiled]
      rw [Descriptor.outcome_eq_walk (Nat.le_refl _)] at compiled
      cases walked : walk options Descriptor.describe descriptor.height [] none
          descriptor.layout with
      | error fault => simp [walked, Except.map] at compiled
      | ok body =>
          have areBounded (inner : Descriptor)
              (contains : descriptor.Contains inner)
              (member : Member Kind Descriptor)
              (isMember : member ∈ inner.layout.members) :
              member.shape.container ≠ .unboundedSequence :=
            bounded member (contains.visits_of_walk walked isMember)
          exact outcome_eq_of_shownAlike (shownAlike_of_bounded options options')
            ⟨rfl, areBounded⟩

/-- Compiling under a positive maximum has the outcome of compiling, under any
options, the descriptor with this maximum written into it.  Two maxima, zero
included, both give a metastring or both fail for the same reason; and where the
walk gets to no sequence without a bound, they give the same metastring. -/
theorem unbounded_maximum_is_substituted (descriptor : Descriptor) :
    (∀ (maximum : UInt64) (options : Options), 0 < maximum →
      (descriptor.tryCompile ⟨maximum⟩).outcome =
        ((descriptor.bounded maximum).tryCompile options).outcome) ∧
    (∀ options options' : Options,
      (∃ text text', (descriptor.tryCompile options).outcome = .ok text ∧
          (descriptor.tryCompile options').outcome = .ok text') ∨
        ∃ fault, (descriptor.tryCompile options).outcome = .error fault ∧
          (descriptor.tryCompile options').outcome = .error fault) ∧
    ∀ options : Options,
      (∀ member, descriptor.Visits options [] member →
        member.shape.container ≠ .unboundedSequence) →
          ∀ options', (descriptor.tryCompile options).outcome =
            (descriptor.tryCompile options').outcome := by
  refine ⟨fun maximum options positive => ?_, fun options options' => ?_,
    fun options bounded options' => ?_⟩
  · exact outcome_eq_of_shownAlike (shownAlike_bounded positive options) rfl
  · have sameFaults := descriptor.error_iff_error options options'
    cases compiled : (descriptor.tryCompile options).outcome with
    | error fault =>
        exact .inr ⟨fault, rfl, (sameFaults fault).mp compiled⟩
    | ok text =>
        cases compiled' : (descriptor.tryCompile options').outcome with
        | ok text' => exact .inl ⟨text, text', rfl, rfl⟩
        | error fault =>
            have failed := (sameFaults fault).mpr compiled'
            exact nomatch compiled.symm.trans failed
  · exact Descriptor.outcome_eq_of_visits bounded options'

section Example

/-- A message with a sequence that has no bound. -/
def blob : Descriptor :=
  .mk ⟨⟨"", "Blob"⟩, [⟨"data", .leaf .uint8, .sequence none, none⟩]⟩

/-- A message without such a sequence. -/
def pixel : Descriptor :=
  .mk ⟨⟨"", "Pixel"⟩, [⟨"color", .leaf .uint8, .array 3, none⟩]⟩

theorem pixel_visits (member : Member Kind Descriptor)
    (visits : pixel.Visits {} [] member) :
    member.shape.container ≠ .unboundedSequence := by
  cases visits with
  | here getsTo =>
      obtain rfl := List.mem_singleton.mp getsTo.mem
      decide
  | inside getsTo isMessage _ _ =>
      obtain rfl := List.mem_singleton.mp getsTo.mem
      contradiction

theorem unbounded_maximum_is_substituted_blob_pixel :
    (0 : UInt64) < 16 ∧
      ((blob.bounded 16).tryCompile {}).outcome =
          .ok ("v1\x7b(type=dds_::Blob_,member=1)" ++
            "<(name=data_,maximum=16)B()") ∧
        (∀ member, pixel.Visits {} [] member →
          member.shape.container ≠ .unboundedSequence) ∧
        ∀ options, (pixel.tryCompile {}).outcome =
          (pixel.tryCompile options).outcome := by
  have positive : (0 : UInt64) < 16 := by decide
  have substituted :=
    (unbounded_maximum_is_substituted blob).1 16 {} positive
  refine ⟨positive, substituted.symm.trans ?_, pixel_visits,
    (unbounded_maximum_is_substituted pixel).2.2 {} pixel_visits⟩
  cbv

end Example

end Metastring
