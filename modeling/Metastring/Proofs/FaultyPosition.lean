import Metastring.Proofs.FirstFault
import Metastring.Proofs.FrontEnds

/-!
# The faulty positions of a descriptor

A position in a descriptor is a list of member indices, each of which but the
last is that of a member of kind message and leads on into its nested message.
A position is faulty if the member there has an unknown kind, if it is of kind
message and nests nothing, or if the message it nests has the qualified name of
a message around it.  Positions are ordered depth first, so a position comes
before all those it leads to.

A descriptor compiles exactly if it has no faulty position, and otherwise the
first one is told.  What is nested in a member of another kind than message is
not looked at.  Specifications have no unknown kinds, so only the other two
faults are left to them.
-/

namespace Metastring

namespace Descriptor

mutual

/-- A position in a descriptor nested in messages with the given names is
faulty. -/
inductive FaultAt :
    List String → Descriptor → List Nat → CompileError → Prop
  | member {enclosing : List String} {descriptor : Descriptor} {index : Nat}
      {member : Member Kind Descriptor} {position : List Nat}
      {fault : CompileError}
      (found : descriptor.layout.members[index]? = some member)
      (faulty : MemberFaultAt (descriptor.layout.type.qualified :: enclosing)
        member position fault) :
      FaultAt enclosing descriptor (index :: position) fault

/-- A member, or a position in what it nests, is faulty.  The names are those of
the messages around the member, its own message included. -/
inductive MemberFaultAt :
    List String → Member Kind Descriptor → List Nat → CompileError → Prop
  | unsupportedType {enclosing : List String} {member : Member Kind Descriptor}
      {id : UInt8} (unknown : member.kind = .unknown id) :
      MemberFaultAt enclosing member [] (.unsupportedType member.name id)
  | missingNested {enclosing : List String} {member : Member Kind Descriptor}
      (isMessage : member.kind = .message) (absent : member.nested = none) :
      MemberFaultAt enclosing member [] (.missingNested member.name)
  | recursiveType {enclosing : List String} {member : Member Kind Descriptor}
      {inner : Descriptor} (isMessage : member.kind = .message)
      (refers : member.nested = some inner)
      (repeated : inner.layout.type.qualified ∈ enclosing) :
      MemberFaultAt enclosing member []
        (.recursiveType inner.layout.type.qualified)
  | nested {enclosing : List String} {member : Member Kind Descriptor}
      {inner : Descriptor} {position : List Nat} {fault : CompileError}
      (isMessage : member.kind = .message)
      (refers : member.nested = some inner)
      (faulty : FaultAt enclosing inner position fault) :
      MemberFaultAt enclosing member position fault

end

section Walks

variable {options : Options} {enclosing : List String}

/-- A descriptor that is about to be nested repeats a name, or has a faulty
position. -/
def FaultInside (enclosing : List String) (descriptor : Descriptor)
    (position : List Nat) (fault : CompileError) : Prop :=
  (position = [] ∧ descriptor.layout.type.qualified ∈ enclosing ∧
      fault = .recursiveType descriptor.layout.type.qualified) ∨
    descriptor.FaultAt enclosing position fault

theorem FaultAt.nil_lt {descriptor : Descriptor} {position : List Nat}
    {fault : CompileError} (faulty : descriptor.FaultAt enclosing position fault) :
    [] < position := by
  cases faulty
  exact .nil

theorem memberFaultAt_iff_inside {member : Member Kind Descriptor}
    {inner : Descriptor} (isMessage : member.kind = .message)
    (refers : member.nested = some inner) (position : List Nat)
    (fault : CompileError) :
    MemberFaultAt enclosing member position fault ↔
      inner.FaultInside enclosing position fault := by
  constructor
  · intro faulty
    cases faulty with
    | unsupportedType unknown => simp [isMessage] at unknown
    | missingNested _ absent => simp [refers] at absent
    | recursiveType _ refers' repeated =>
        obtain rfl := Option.some.inj (refers.symm.trans refers')
        exact .inl ⟨rfl, repeated, rfl⟩
    | nested _ refers' faulty =>
        obtain rfl := Option.some.inj (refers.symm.trans refers')
        exact .inr faulty
  · rintro (⟨rfl, repeated, rfl⟩ | faulty)
    · exact .recursiveType isMessage refers repeated
    · exact .nested isMessage refers faulty

theorem tellsFirst_member
    {nested : Option String → Descriptor → Except CompileError String}
    {member : Member Kind Descriptor}
    (tells : ∀ inner, member.kind = .message → member.nested = some inner →
      TellsFirst (inner.FaultInside enclosing) (nested member.label inner)) :
    TellsFirst (MemberFaultAt enclosing member)
      (member.segment options nested) := by
  refine Member.tellsFirst_segment ?_ ?_ ?_ ?_
  · intro leaf isLeaf position fault faulty
    cases faulty <;> simp_all
  · intro id isUnknown
    refine .of_only (.unsupportedType isUnknown) fun position fault faulty => ?_
    cases faulty <;> simp_all
  · intro isMessage absent
    refine .of_only (.missingNested isMessage absent)
      fun position fault faulty => ?_
    cases faulty <;> simp_all
  · intro inner isMessage refers
    exact (tells inner isMessage refers).congr fun position fault =>
      (memberFaultAt_iff_inside isMessage refers position fault).symm

/-- A name that is open is told before anything further inside. -/
theorem tellsFirst_of_opened (budget : Nat) {opened : List String}
    (label : Option String) {descriptor : Descriptor}
    (isOpen : descriptor.layout.type.qualified ∈ opened) :
    TellsFirst (descriptor.FaultInside opened)
      (walk options Descriptor.describe budget opened label
        descriptor.layout) := by
  rw [walk_of_opened options _ budget label isOpen]
  refine .error ⟨[], .inl ⟨rfl, isOpen, rfl⟩, ?_⟩
  rintro position fault (⟨rfl, -, rfl⟩ | faulty)
  · exact .inr ⟨rfl, rfl⟩
  · exact .inl faulty.nil_lt

theorem faultInside_iff_of_fresh {descriptor : Descriptor}
    (fresh : descriptor.layout.type.qualified ∉ enclosing)
    (position : List Nat) (fault : CompileError) :
    descriptor.FaultInside enclosing position fault ↔
      ∃ index below, index < descriptor.layout.members.length ∧
        position = index :: below ∧
          ∃ member, descriptor.layout.members[index]? = some member ∧
            MemberFaultAt (descriptor.layout.type.qualified :: enclosing) member
              below fault := by
  constructor
  · rintro (⟨-, isOpen, -⟩ | faulty)
    · exact absurd isOpen fresh
    · obtain ⟨found, faulty⟩ := faulty
      exact ⟨_, _, (List.getElem?_eq_some_iff.mp found).1, rfl, _, found, faulty⟩
  · rintro ⟨index, below, -, rfl, member, found, faulty⟩
    exact .inr (.member found faulty)

/-- The walk of a descriptor tells its first fault inside the messages that are
open. -/
theorem tellsFirst_walk {budget : Nat} {opened : List String}
    (label : Option String) {descriptor : Descriptor}
    (sufficient :
      BudgetSuffices Descriptor.describe budget opened descriptor.layout) :
    TellsFirst (descriptor.FaultInside opened)
      (walk options Descriptor.describe budget opened label
        descriptor.layout) := by
  -- Induction on the budget, which suffices at every level: where it is used
  -- up, the name of the descriptor is open.
  induction budget generalizing opened label descriptor with
  | zero => exact tellsFirst_of_opened 0 label sufficient
  | succ budget ih =>
      by_cases isOpen : descriptor.layout.type.qualified ∈ opened
      · exact tellsFirst_of_opened (budget + 1) label isOpen
      refine (tellsFirst_walk_of_fresh label isOpen id
        (fun _ _ before => before) _ fun index member found => ?_).congr
        fun position fault =>
          (faultInside_iff_of_fresh isOpen position fault).symm
      have told : TellsFirst
          (MemberFaultAt (descriptor.layout.type.qualified :: opened) member)
          (member.segment options (walkReference options Descriptor.describe
            budget (descriptor.layout.type.qualified :: opened))) := by
        refine tellsFirst_member fun inner isMessage refers => ?_
        have nests : descriptor.layout.Nests Descriptor.describe inner.layout :=
          ⟨member, List.mem_of_getElem? found, isMessage, inner, refers, rfl⟩
        exact ih member.label (sufficient isOpen inner.layout nests)
      refine told.congr fun below fault => ?_
      simp [found]

theorem tellsFirst_tryCompile (descriptor : Descriptor) (options : Options) :
    TellsFirst (descriptor.FaultAt []) (descriptor.tryCompile options).outcome := by
  have told : TellsFirst (descriptor.FaultInside [])
      (walk options Descriptor.describe descriptor.height [] none
        descriptor.layout) :=
    tellsFirst_walk none (Descriptor.budgetSuffices (Nat.le_refl _))
  -- Nothing is open around the descriptor, so its own name is no repetition.
  rw [tryCompile, Report.ofLayout_outcome]
  refine (told.map (formatVersion ++ ·)).congr fun position fault => ?_
  simp [FaultInside]

end Walks

end Descriptor

section Specifications

theorem exists_spec_of_memberDescriptors {specs : List MemberSpec} {index : Nat}
    {member : Member Kind Descriptor}
    (found : (memberDescriptors specs)[index]? = some member) :
    ∃ spec, memberDescriptor spec = member := by
  induction specs generalizing index with
  | nil => simp [memberDescriptors] at found
  | cons spec specs ih =>
      cases index with
      | zero => exact ⟨spec, Option.some.inj found⟩
      | succ index => exact ih found

theorem MessageSpec.exists_spec_of_member (spec : MessageSpec) {index : Nat}
    {member : Member Kind Descriptor}
    (found : spec.descriptor.layout.members[index]? = some member) :
    ∃ memberSpec, memberDescriptor memberSpec = member := by
  obtain ⟨⟨type, members⟩⟩ := spec
  exact exists_spec_of_memberDescriptors found

theorem exists_declared_of_memberDescriptor (spec : MemberSpec) :
    (∃ declared : DeclaredKind, (memberDescriptor spec).kind = declared.kind) ∧
      ∀ inner, (memberDescriptor spec).nested = some inner →
        ∃ nested : MessageSpec, nested.descriptor = inner := by
  obtain ⟨name, kind, shape, nested⟩ := spec
  cases nested with
  | none =>
    refine ⟨⟨kind, rfl⟩, fun inner refers => ?_⟩
    cases refers
  | some nested =>
    exact ⟨⟨kind, rfl⟩, fun inner refers => ⟨nested, Option.some.inj refers⟩⟩

mutual

/-- What a specification says is faulty only where a nested message is missing
or recursive: its kinds are known. -/
theorem Descriptor.FaultAt.of_specified {enclosing : List String}
    {descriptor : Descriptor} {position : List Nat} {fault : CompileError}
    (faulty : descriptor.FaultAt enclosing position fault)
    {spec : MessageSpec} (specified : spec.descriptor = descriptor) :
    (∃ member, fault = .missingNested member) ∨
      ∃ qualified, fault = .recursiveType qualified := by
  match faulty with
  | .member found faulty =>
    rw [← specified] at found
    obtain ⟨memberSpec, isMember⟩ := spec.exists_spec_of_member found
    exact faulty.of_specified isMember
termination_by structural faulty

theorem Descriptor.MemberFaultAt.of_specified {enclosing : List String}
    {member : Member Kind Descriptor} {position : List Nat}
    {fault : CompileError}
    (faulty : Descriptor.MemberFaultAt enclosing member position fault)
    {spec : MemberSpec} (specified : memberDescriptor spec = member) :
    (∃ member, fault = .missingNested member) ∨
      ∃ qualified, fault = .recursiveType qualified := by
  obtain ⟨⟨declared, sameKind⟩, nestedSpecified⟩ :=
    specified ▸ exists_declared_of_memberDescriptor spec
  match faulty with
  | .unsupportedType unknown =>
    rw [unknown] at sameKind
    cases declared <;> contradiction
  | .missingNested _ _ => exact .inl ⟨_, rfl⟩
  | .recursiveType _ _ _ => exact .inr ⟨_, rfl⟩
  | .nested _ refers faulty =>
    obtain ⟨nested, isNested⟩ := nestedSpecified _ refers
    exact faulty.of_specified isNested
termination_by structural faulty

end

end Specifications

/-- A descriptor fails to compile exactly if it has a faulty position, and the
failure is that of the first one, depth first.  So a specification, whatever it
says, fails only where a nested message is missing or recursive. -/
theorem compile_tells_first_faulty_position (options : Options) :
    (∀ descriptor : Descriptor,
      ((∃ fault, (descriptor.tryCompile options).outcome = .error fault) ↔
          ∃ position fault, descriptor.FaultAt [] position fault) ∧
        ∀ fault, (descriptor.tryCompile options).outcome = .error fault ↔
          FirstFault (descriptor.FaultAt []) fault) ∧
      ∀ (spec : MessageSpec) (fault : CompileError),
        (spec.tryCompile options).outcome = .error fault →
          (∃ member, fault = .missingNested member) ∨
            ∃ qualified, fault = .recursiveType qualified := by
  refine ⟨fun descriptor => ?_, fun spec fault fails => ?_⟩
  · have told := descriptor.tellsFirst_tryCompile options
    exact ⟨told.fails_iff, told.error_iff⟩
  · rw [spec.tryCompile_eq] at fails
    obtain ⟨position, faulty, -⟩ :=
      ((spec.descriptor.tellsFirst_tryCompile options).error_iff fault).mp fails
    exact faulty.of_specified rfl

end Metastring
