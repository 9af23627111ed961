import Metastring.MemberTree
import Metastring.Proofs.Listing
import Metastring.Proofs.WalkMachine
import Metastring.Proofs.WrittenLevels

/-!
# How deep a loaded file is walked and shown

Both the walk of a specification and the rendering of its tree go into a nested
message while the messages around it are still being worked on.  Neither ever
works on more messages at once than the specification has levels, so on a file
that was loaded neither goes deeper than 43 messages.
-/

namespace Metastring

section Walks

variable {ρ : Type}

/-- References have heights: what is described by a reference refers to lower
ones only. -/
def Descends (describe : ρ → Except CompileError (Layout Kind ρ))
    (height : ρ → Nat) : Prop :=
  ∀ reference layout, describe reference = .ok layout →
    0 < height reference ∧ ∀ member ∈ layout.members, ∀ inner,
      member.nested = some inner → height inner < height reference

/-- What members refer to can be opened below some number of open messages. -/
def Fits (height : ρ → Nat) (bound opened : Nat)
    (members : List (Member Kind ρ)) : Prop :=
  ∀ member ∈ members, ∀ inner, member.nested = some inner →
    opened + height inner ≤ bound

/-- The members that are still to be walked fit into the bound, each below the
messages that are open around it. -/
def EnclosingFits (height : ρ → Nat) (bound : Nat) :
    List (OpenMessage ρ) → Prop
  | [] => True
  | message :: enclosing =>
    Fits height bound (enclosing.length + 1) message.members ∧
      EnclosingFits height bound enclosing

namespace WalkState

/-- No more messages are open than the bound allows, and none will be. -/
def Bounded (height : ρ → Nat) (bound : Nat) : WalkState ρ → Prop
  | entering _ enclosing _ layout =>
    enclosing.length < bound ∧ EnclosingFits height bound enclosing ∧
      Fits height bound (enclosing.length + 1) layout.members
  | inside _ enclosing =>
    enclosing.length ≤ bound ∧ EnclosingFits height bound enclosing
  | halted _ => True

variable {options : Options}
  {describe : ρ → Except CompileError (Layout Kind ρ)} {height : ρ → Nat}
  {bound : Nat}

theorem openWalks_le_of_bounded {state : WalkState ρ}
    (bounded : state.Bounded height bound) : state.openWalks ≤ bound := by
  match state with
  | entering written enclosing label layout => exact bounded.1
  | inside written enclosing => exact bounded.1
  | halted outcome => exact Nat.zero_le _

variable (descends : Descends describe height)
include descends

theorem bounded_visit (written : String) {member : Member Kind ρ}
    {enclosing : List (OpenMessage ρ)} (shallow : enclosing.length ≤ bound)
    (enclosingFits : EnclosingFits height bound enclosing)
    (memberFits : Fits height bound enclosing.length [member]) :
    (visit options describe written member enclosing).Bounded height bound := by
  unfold visit
  cases member.kind with
  | leaf leaf => exact ⟨shallow, enclosingFits⟩
  | unknown id => trivial
  | message =>
      cases refers : member.nested with
      | none => trivial
      | some reference =>
          cases described : describe reference with
          | error fault => simp only [described]; trivial
          | ok layout =>
              simp only [described]
              obtain ⟨positive, lower⟩ := descends reference layout described
              have below := memberFits member (List.mem_singleton_self _)
                reference refers
              refine ⟨by omega, enclosingFits, ?_⟩
              intro inner isMember deeper refersDeeper
              have isLower := lower inner isMember deeper refersDeeper
              omega

theorem bounded_step {state : WalkState ρ}
    (bounded : state.Bounded height bound) :
    (step options describe state).Bounded height bound := by
  match state with
  | entering written enclosing label layout =>
    obtain ⟨shallow, enclosingFits, layoutFits⟩ := bounded
    dsimp only [step]
    split
    · trivial
    · exact ⟨shallow, layoutFits, enclosingFits⟩
  | inside written [] => trivial
  | inside written (⟨_, []⟩ :: enclosing) =>
    obtain ⟨shallow, -, enclosingFits⟩ := bounded
    exact ⟨Nat.le_of_succ_le shallow, enclosingFits⟩
  | inside written (⟨qualified, member :: members⟩ :: enclosing) =>
    obtain ⟨shallow, fits, enclosingFits⟩ := bounded
    obtain ⟨memberFits, membersFit⟩ := List.forall_mem_cons.mp fits
    exact bounded_visit descends written shallow ⟨membersFit, enclosingFits⟩
      (List.forall_mem_singleton.mpr memberFits)
  | halted outcome => trivial

theorem bounded_run {state : WalkState ρ}
    (bounded : state.Bounded height bound) (steps : Nat) :
    ((step options describe)^[steps] state).Bounded height bound := by
  induction steps with
  | zero => exact bounded
  | succ steps ih =>
      rw [Function.iterate_succ_apply']
      exact bounded_step descends ih

end WalkState

end Walks

section Specifications

/-- The blocks inside a specification are described as they are reached. -/
def MessageSpec.describe (spec : MessageSpec) :
    Except CompileError (Layout Kind MessageSpec) :=
  .ok spec.description

/-- The state of the walk of a specification after some steps. -/
def MessageSpec.stateAfter (spec : MessageSpec) (options : Options)
    (steps : Nat) : WalkState MessageSpec :=
  (WalkState.step options MessageSpec.describe)^[steps]
    (.entering formatVersion [] none spec.description)

theorem MessageSpec.levels_positive (spec : MessageSpec) : 0 < spec.levels := by
  obtain ⟨⟨type, members⟩⟩ := spec
  exact Nat.succ_pos _

theorem MessageSpec.levels_lt_of_nested {spec block : MessageSpec}
    {member : Member Kind MessageSpec}
    (isMember : member ∈ spec.description.members)
    (refers : member.nested = some block) : block.levels < spec.levels := by
  obtain ⟨specified, isSpecified, rfl⟩ := List.mem_map.mp isMember
  have positive := spec.levels_positive
  have bounded := (spec.levels_le_iff (spec.levels - 1)).mp (by omega)
    specified isSpecified block refers
  omega

theorem MessageSpec.descends : Descends MessageSpec.describe levels := by
  rintro spec _ ⟨⟩
  exact ⟨spec.levels_positive, fun member isMember block refers =>
    levels_lt_of_nested isMember refers⟩

theorem MessageSpec.openWalks_stateAfter_le (spec : MessageSpec)
    (options : Options) (steps : Nat) :
    (spec.stateAfter options steps).openWalks ≤ spec.levels := by
  have start : WalkState.Bounded levels spec.levels
      (.entering formatVersion [] none spec.description) := by
    refine ⟨spec.levels_positive, trivial, ?_⟩
    intro member isMember block refers
    have lower := levels_lt_of_nested isMember refers
    rw [List.length_nil]
    omega
  exact WalkState.openWalks_le_of_bounded
    (WalkState.bounded_run descends start steps)

theorem MessageSpec.budgetSuffices {budget : Nat} {opened : List String}
    {spec : MessageSpec} (enough : spec.levels ≤ budget) :
    BudgetSuffices MessageSpec.describe budget opened spec.description := by
  induction budget generalizing opened spec with
  | zero => exact absurd spec.levels_positive (by omega)
  | succ budget ih =>
      rintro - inner ⟨member, isMember, -, block, refers, described⟩
      obtain rfl := Except.ok.inj described
      have lower := levels_lt_of_nested isMember refers
      exact ih (by omega)

/-- The walk of a specification comes to an end, which is the outcome of the
compilation. -/
theorem MessageSpec.exists_stateAfter_eq_halted (spec : MessageSpec)
    (options : Options) :
    ∃ steps, spec.stateAfter options steps =
      .halted (spec.tryCompile options).outcome := by
  have sufficient : BudgetSuffices MessageSpec.describe spec.levels []
      spec.description :=
    budgetSuffices (Nat.le_refl _)
  rw [tryCompile, Report.ofLayout_outcome]
  exact WalkState.leadsTo_metastring sufficient

end Specifications

theorem exists_text_of_loadSpec {path : Path}
    {content : Except FileFault (List UInt8)} {spec : MessageSpec}
    (loaded : loadSpec path content = .ok spec) :
    ∃ text, (FileForm.ofPath path).readSpec text = .ok spec := by
  unfold loadSpec at loaded
  split at loaded
  · contradiction
  split at loaded
  · contradiction
  case h_2 text decoded =>
    refine ⟨text, ?_⟩
    cases read : (FileForm.ofPath path).readSpec text with
    | error error => simp [read, Except.mapError] at loaded
    | ok spec' =>
        rw [read] at loaded
        exact congrArg Except.ok (Except.ok.inj loaded)

section Trees

/-- The lines of a member and of what it nests, which is rendered with what is
left. -/
def Member.treeWithin
    (nested : Descriptor → ExceptT CompileError Option String) (depth : Nat)
    (member : Member Kind Descriptor) : ExceptT CompileError Option String :=
  match member.kind, member.nested with
  | .message, some inner => (member.treeLine depth ++ ·) <$> nested inner
  | .message, none => throw (.missingNested member.name)
  | .leaf _, _ | .unknown _, _ => return member.treeLine depth

/-- The tree of a descriptor at the given depth, rendered while at most `frames`
messages may be open at once.  A rendering that opens more gives nothing. -/
def Descriptor.treeWithin :
    (frames depth : Nat) → Descriptor → ExceptT CompileError Option String
  | 0, _, _ => .mk none
  | frames + 1, depth, descriptor => do
    let trees ← descriptor.layout.members.mapM
      (Member.treeWithin (treeWithin frames (depth + 2)) depth)
    return descriptor.openingLine depth ++ String.join trees

/-- Visits that all come about give the same as a traversal of the outcomes. -/
theorem mapM_eq_some {ε α β : Type} {visit : α → ExceptT ε Option β}
    {visit' : α → Except ε β} {elements : List α}
    (same : ∀ element ∈ elements, visit element = .mk (some (visit' element))) :
    elements.mapM visit = .mk (some (elements.mapM visit')) := by
  induction elements with
  | nil => rfl
  | cons element elements ih =>
      obtain ⟨first, others⟩ := List.forall_mem_cons.mp same
      rw [List.mapM_cons, List.mapM_cons, first, ih others]
      cases visit' element with
      | error fault => rfl
      | ok result => cases elements.mapM visit' <;> rfl

theorem Member.treeWithin_eq {member : Member Kind Descriptor} {depth : Nat}
    {nested : Descriptor → ExceptT CompileError Option String}
    (sameNested : ∀ inner, member.nested = some inner →
      nested inner = .mk (some (inner.treeAt (depth + 2)))) :
    member.treeWithin nested depth = .mk (some (member.treeAt depth)) := by
  obtain ⟨name, kind, shape, reference⟩ := member
  cases kind with
  | leaf leaf | unknown id =>
      simp [treeWithin, treeAt, nestedTree, Except.map]
      rfl
  | message =>
      cases reference with
      | none => rfl
      | some inner =>
          simp only [treeWithin, treeAt, nestedTree, sameNested inner rfl]
          cases inner.treeAt (depth + 2) <;> rfl

/-- As many frames as a descriptor has levels are enough to render its tree. -/
theorem Descriptor.treeWithin_eq {frames : Nat} {descriptor : Descriptor}
    (enough : descriptor.height ≤ frames) (depth : Nat) :
    descriptor.treeWithin frames depth =
      .mk (some (descriptor.treeAt depth)) := by
  induction frames generalizing descriptor depth with
  | zero =>
      obtain ⟨⟨type, members⟩⟩ := descriptor
      simp [Descriptor.height] at enough
  | succ frames ih =>
      have visits (member : Member Kind Descriptor)
          (isMember : member ∈ descriptor.layout.members) :
          member.treeWithin (treeWithin frames (depth + 2)) depth =
            .mk (some (member.treeAt depth)) := by
        refine Member.treeWithin_eq fun inner refers => ?_
        have lower := height_lt_of_nested isMember refers
        exact ih (by omega) (depth + 2)
      rw [treeWithin, mapM_eq_some visits, treeAt_eq]
      cases descriptor.layout.members.mapM (Member.treeAt · depth) <;> rfl

/-- A frame less than there are levels is not enough. -/
example : (Json.chain 1).descriptor.treeWithin 1 0 = .mk none := by
  rfl

end Trees

/-- However its text is written, a descriptor file nests blocks to at most 43
levels, and neither the walk of a loaded file nor the rendering of its tree has
more than 43 messages open at once.  In JSON there are files with 43 levels; yet
of no specification with 43 levels or more can the written text be read. -/
theorem file_nesting_is_bounded :
    (∀ (form : FileForm) (text : String) (spec : MessageSpec),
      form.readSpec text = .ok spec → spec.levels ≤ 43) ∧
    (∀ (path : Path) (content : Except FileFault (List UInt8))
      (spec : MessageSpec), loadSpec path content = .ok spec →
        (∀ options,
          (∀ steps, (spec.stateAfter options steps).openWalks ≤ 43) ∧
            ∃ steps, spec.stateAfter options steps =
              .halted (spec.tryCompile options).outcome) ∧
        spec.descriptor.treeWithin 43 0 = .mk (some spec.descriptor.tree)) ∧
    (∃ text spec, Json.readSpec text = .ok spec ∧ spec.levels = 43) ∧
    ∀ spec : MessageSpec, 43 ≤ spec.levels →
      ∀ spec', Json.readSpec (Json.writeSpec spec) ≠ .ok spec' := by
  have bounded (form : FileForm) (text : String) (spec : MessageSpec)
      (read : form.readSpec text = .ok spec) : spec.levels ≤ 43 :=
    form.levels_le_of_readSpec text spec read
  refine ⟨bounded, fun path content spec loaded => ?_,
    ⟨_, _, Json.readSpec_chainText, Json.chain_levels 42⟩,
    fun spec deep => Json.readSpec_writeSpec_ne_ok deep⟩
  obtain ⟨text, read⟩ := exists_text_of_loadSpec loaded
  have shallow := bounded _ text spec read
  refine ⟨fun options => ⟨fun steps => ?_,
    spec.exists_stateAfter_eq_halted options⟩,
    Descriptor.treeWithin_eq shallow 0⟩
  exact (spec.openWalks_stateAfter_le options steps).trans shallow

end Metastring
