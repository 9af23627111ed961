import Mathlib.Logic.Function.Iterate
import Metastring.Proofs.WalkBudget

/-!
# The walk as a machine

The walk of a message type can be run one step at a time.  A state of the run
holds the text written so far and the messages whose walks are open, innermost
first, each with its qualified name and the members still to be walked.  A step
begins the walk of a message, walks one member that nests nothing, or leaves a
message whose members are all done.  No step looks at a budget.

Run from any state that begins the walk of a message, the machine comes back to
the same open messages with the text of the walk appended, or halts with the
walk's failure.  The names of the open messages are always pairwise distinct, so
as long as all names come from a list, the list bounds how many walks are open
at once.
-/

namespace Metastring

/-- A message whose walk is open: its qualified name and the members that are
still to be walked. -/
structure OpenMessage (ρ : Type) where
  qualified : String
  members : List (Member Kind ρ)

/-- Where a walk stands. -/
inductive WalkState (ρ : Type) where
  /-- The walk of a message begins inside the open ones. -/
  | entering (written : String) (enclosing : List (OpenMessage ρ))
    (label : Option String) (layout : Layout Kind ρ)
  /-- The next member of the innermost open message is walked. -/
  | inside (written : String) (enclosing : List (OpenMessage ρ))
  /-- The walk is over. -/
  | halted (outcome : Except CompileError String)

def openNames {ρ : Type} (enclosing : List (OpenMessage ρ)) : List String :=
  enclosing.map OpenMessage.qualified

namespace WalkState

variable {ρ : Type}

/-- The number of message walks that are open at once.  A walk that begins
counts, also if it is refused. -/
def openWalks : WalkState ρ → Nat
  | entering _ enclosing _ _ => enclosing.length + 1
  | inside _ enclosing => enclosing.length
  | halted _ => 0

/-- Walk one member, with the open messages as they are behind it. -/
def visit (options : Options)
    (describe : ρ → Except CompileError (Layout Kind ρ)) (written : String)
    (member : Member Kind ρ) (enclosing : List (OpenMessage ρ)) :
    WalkState ρ :=
  let opening := member.shape.container.token options member.name
  match member.kind with
  | .leaf leaf => inside (written ++ (opening ++ leaf.token member.label)) enclosing
  | .unknown id => halted (.error (.unsupportedType member.name id))
  | .message =>
    match member.nested with
    | none => halted (.error (.missingNested member.name))
    | some reference =>
      match describe reference with
      | .error error => halted (.error error)
      | .ok layout => entering (written ++ opening) enclosing member.label layout

def step (options : Options)
    (describe : ρ → Except CompileError (Layout Kind ρ)) :
    WalkState ρ → WalkState ρ
  | entering written enclosing label layout =>
    if layout.type.qualified ∈ openNames enclosing then
      halted (.error (.recursiveType layout.type.qualified))
    else
      inside (written ++ layout.token label)
        (⟨layout.type.qualified, layout.members⟩ :: enclosing)
  | inside written [] => halted (.ok written)
  | inside written (⟨_, []⟩ :: enclosing) => inside written enclosing
  | inside written (⟨qualified, member :: members⟩ :: enclosing) =>
    visit options describe written member (⟨qualified, members⟩ :: enclosing)
  | halted outcome => halted outcome

/-- The state behind a walk with the given outcome, inside the same open
messages as before it. -/
def resume (written : String) (enclosing : List (OpenMessage ρ)) :
    Except CompileError String → WalkState ρ
  | .ok text => inside (written ++ text) enclosing
  | .error error => halted (.error error)

/-- Some number of steps leads from one state to another. -/
def LeadsTo (options : Options)
    (describe : ρ → Except CompileError (Layout Kind ρ))
    (state state' : WalkState ρ) : Prop :=
  ∃ steps, (step options describe)^[steps] state = state'

section Runs

variable {options : Options}
  {describe : ρ → Except CompileError (Layout Kind ρ)}

theorem LeadsTo.refl (state : WalkState ρ) :
    LeadsTo options describe state state :=
  ⟨0, rfl⟩

theorem LeadsTo.trans {first second third : WalkState ρ}
    (before : LeadsTo options describe first second)
    (after : LeadsTo options describe second third) :
    LeadsTo options describe first third := by
  obtain ⟨steps, rfl⟩ := before
  obtain ⟨steps', rfl⟩ := after
  exact ⟨steps' + steps, Function.iterate_add_apply _ _ _ _⟩

theorem LeadsTo.head {state state' : WalkState ρ}
    (after : LeadsTo options describe (step options describe state) state') :
    LeadsTo options describe state state' :=
  LeadsTo.trans ⟨1, rfl⟩ after

/-- Walking a member appends its segment, or halts with its failure, provided
the walk of a nested message does the like. -/
theorem leadsTo_segment {budget : Nat} {written qualified : String}
    {member : Member Kind ρ} {members : List (Member Kind ρ)}
    {enclosing : List (OpenMessage ρ)}
    (nestedLeads : ∀ written reference inner, member.kind = .message →
      member.nested = some reference → describe reference = .ok inner →
        LeadsTo options describe
          (entering written (⟨qualified, members⟩ :: enclosing) member.label
            inner)
          (resume written (⟨qualified, members⟩ :: enclosing)
            (walk options describe budget (qualified :: openNames enclosing)
              member.label inner))) :
    LeadsTo options describe
      (inside written (⟨qualified, member :: members⟩ :: enclosing))
      (resume written (⟨qualified, members⟩ :: enclosing)
        (member.segment options (walkReference options describe budget
          (qualified :: openNames enclosing)))) := by
  apply LeadsTo.head
  rw [step, visit, Member.segment]
  cases isKind : member.kind with
  | leaf leaf => exact LeadsTo.refl _
  | unknown id => exact LeadsTo.refl _
  | message =>
      cases refers : member.nested with
      | none => exact LeadsTo.refl _
      | some reference =>
          simp only [walkReference]
          cases described : describe reference with
          | error fault => exact LeadsTo.refl _
          | ok inner =>
              refine (nestedLeads _ reference inner isKind refers
                described).trans ?_
              simp only [bind, Except.bind]
              cases walk options describe budget
                (qualified :: openNames enclosing) member.label inner with
              | error fault => exact LeadsTo.refl _
              | ok text =>
                  simp only [resume, Except.map, String.append_assoc]
                  exact LeadsTo.refl _

/-- Walking the members of the innermost message appends their segments and
leaves the message. -/
theorem leadsTo_members (budget : Nat) {qualified : String}
    {enclosing : List (OpenMessage ρ)} {members : List (Member Kind ρ)}
    (nestedLeads : ∀ member ∈ members, ∀ later written reference inner,
      member.kind = .message → member.nested = some reference →
        describe reference = .ok inner →
        LeadsTo options describe
          (entering written (⟨qualified, later⟩ :: enclosing) member.label
            inner)
          (resume written (⟨qualified, later⟩ :: enclosing)
            (walk options describe budget (qualified :: openNames enclosing)
              member.label inner)))
    (written : String) :
    LeadsTo options describe
      (inside written (⟨qualified, members⟩ :: enclosing))
      (resume written enclosing
        ((members.mapM (Member.segment options (walkReference options describe
          budget (qualified :: openNames enclosing)))).map String.join)) := by
  induction members generalizing written with
  | nil =>
      refine LeadsTo.head ?_
      simp only [List.mapM_nil, pure, Except.pure, Except.map, resume,
        String.join_nil, String.append_empty]
      exact LeadsTo.refl _
  | cons member members ih =>
      refine (leadsTo_segment (nestedLeads member List.mem_cons_self
        members)).trans ?_
      rw [List.mapM_cons]
      cases member.segment options (walkReference options describe budget
          (qualified :: openNames enclosing)) with
      | error fault => exact LeadsTo.refl _
      | ok text =>
          refine (ih (fun other later => nestedLeads other
            (List.mem_cons_of_mem member later)) (written ++ text)).trans ?_
          simp only [bind, Except.bind]
          cases members.mapM (Member.segment options (walkReference options
              describe budget (qualified :: openNames enclosing))) with
          | error fault => exact LeadsTo.refl _
          | ok texts =>
              simp only [pure, Except.pure, Except.map, resume,
                String.join_cons, String.append_assoc]
              exact LeadsTo.refl _

theorem leadsTo_of_opened (budget : Nat) {enclosing : List (OpenMessage ρ)}
    {layout : Layout Kind ρ}
    (isOpen : layout.type.qualified ∈ openNames enclosing)
    (written : String) (label : Option String) :
    LeadsTo options describe (entering written enclosing label layout)
      (resume written enclosing
        (walk options describe budget (openNames enclosing) label layout)) := by
  apply LeadsTo.head
  rw [walk_of_opened options describe budget label isOpen, step, if_pos isOpen]
  exact LeadsTo.refl _

/-- The walk of a message comes back to the same open messages with its text
appended, or halts with its failure. -/
theorem leadsTo_walk {budget : Nat} {enclosing : List (OpenMessage ρ)}
    {layout : Layout Kind ρ}
    (sufficient :
      BudgetSuffices describe budget (openNames enclosing) layout)
    (written : String) (label : Option String) :
    LeadsTo options describe (entering written enclosing label layout)
      (resume written enclosing
        (walk options describe budget (openNames enclosing) label layout)) := by
  induction budget generalizing enclosing layout written label with
  | zero => exact leadsTo_of_opened 0 sufficient written label
  | succ budget ih =>
      by_cases isOpen : layout.type.qualified ∈ openNames enclosing
      · exact leadsTo_of_opened (budget + 1) isOpen written label
      apply LeadsTo.head
      rw [walk_of_fresh options describe budget label isOpen, step,
        if_neg isOpen]
      refine (leadsTo_members budget (fun member isMember later written
        reference inner isMessage refers described => ?_) _).trans ?_
      · have nests : layout.Nests describe inner :=
          ⟨member, isMember, isMessage, reference, refers, described⟩
        have enough : BudgetSuffices describe budget
            (openNames (⟨layout.type.qualified, later⟩ :: enclosing)) inner :=
          sufficient isOpen inner nests
        exact ih enough written member.label
      · cases layout.members.mapM (Member.segment options (walkReference
            options describe budget
            (layout.type.qualified :: openNames enclosing))) with
        | error fault => exact LeadsTo.refl _
        | ok texts =>
            simp only [Except.map, resume, String.append_assoc]
            exact LeadsTo.refl _

theorem leadsTo_metastring {budget : Nat} {layout : Layout Kind ρ}
    (sufficient : BudgetSuffices describe budget [] layout) :
    LeadsTo options describe (entering formatVersion [] none layout)
      (halted (metastring options describe budget layout)) := by
  have run : LeadsTo options describe (entering formatVersion [] none layout)
      (resume formatVersion []
        (walk options describe budget [] none layout)) :=
    leadsTo_walk sufficient formatVersion none
  refine run.trans ?_
  rw [metastring]
  cases walk options describe budget [] none layout with
  | error fault => exact LeadsTo.refl _
  | ok text => exact LeadsTo.head (LeadsTo.refl _)

end Runs

section Depth

/-- The names of the open messages are pairwise distinct and come from a list,
and so does the name of a message that is about to be opened. -/
def Distinct (names : List String) : WalkState ρ → Prop
  | entering _ enclosing _ layout =>
    (openNames enclosing).Nodup ∧ openNames enclosing ⊆ names ∧
      layout.type.qualified ∈ names
  | inside _ enclosing =>
    (openNames enclosing).Nodup ∧ openNames enclosing ⊆ names
  | halted _ => True

variable (options : Options)
  {describe : ρ → Except CompileError (Layout Kind ρ)} {names : List String}
  (closed : ∀ reference inner, describe reference = .ok inner →
    inner.type.qualified ∈ names)

include closed

theorem distinct_visit (written : String) (member : Member Kind ρ)
    {enclosing : List (OpenMessage ρ)}
    (distinct : (openNames enclosing).Nodup)
    (within : openNames enclosing ⊆ names) :
    (visit options describe written member enclosing).Distinct names := by
  unfold visit
  cases member.kind with
  | leaf leaf => exact ⟨distinct, within⟩
  | unknown id => trivial
  | message =>
      cases member.nested with
      | none => trivial
      | some reference =>
          cases described : describe reference with
          | error fault => simp only [described]; trivial
          | ok inner =>
              simp only [described]
              exact ⟨distinct, within, closed reference inner described⟩

theorem distinct_step {state : WalkState ρ} (distinct : state.Distinct names) :
    (step options describe state).Distinct names := by
  match state with
  | entering written enclosing label layout =>
    obtain ⟨nodup, within, named⟩ := distinct
    rw [step]
    split
    case isTrue => trivial
    case isFalse fresh =>
      exact ⟨List.nodup_cons.mpr ⟨fresh, nodup⟩,
        List.cons_subset.mpr ⟨named, within⟩⟩
  | inside written [] => trivial
  | inside written (⟨qualified, []⟩ :: enclosing) =>
    exact ⟨(List.nodup_cons.mp distinct.1).2,
      (List.cons_subset.mp distinct.2).2⟩
  | inside written (⟨qualified, member :: members⟩ :: enclosing) =>
    exact distinct_visit options closed written member distinct.1 distinct.2
  | halted outcome => trivial

theorem distinct_run {state : WalkState ρ} (distinct : state.Distinct names)
    (steps : Nat) : ((step options describe)^[steps] state).Distinct names := by
  induction steps with
  | zero => exact distinct
  | succ steps ih =>
      rw [Function.iterate_succ_apply']
      exact distinct_step options closed ih

omit closed in
/-- No more walks are open at once than there are names, and one that is about
to be refused. -/
theorem openWalks_le {state : WalkState ρ} (distinct : state.Distinct names) :
    state.openWalks ≤ names.length + 1 := by
  have bounded {enclosing : List (OpenMessage ρ)}
      (nodup : (openNames enclosing).Nodup)
      (within : openNames enclosing ⊆ names) :
      enclosing.length ≤ names.length := by
    have sub := (List.subperm_of_subset nodup within).length_le
    rwa [openNames, List.length_map] at sub
  match state with
  | entering written enclosing label layout =>
    exact Nat.succ_le_succ (bounded distinct.1 distinct.2.1)
  | inside written enclosing =>
    exact Nat.le_succ_of_le (bounded distinct.1 distinct.2)
  | halted outcome => exact Nat.zero_le _

omit closed in
/-- Where the bound is reached, the innermost walk is refused. -/
theorem step_of_openWalks_eq {state : WalkState ρ}
    (distinct : state.Distinct names)
    (atBound : state.openWalks = names.length + 1) :
    ∃ qualified ∈ names,
      step options describe state =
        halted (.error (.recursiveType qualified)) := by
  match state with
  | entering written enclosing label layout =>
    obtain ⟨nodup, within, named⟩ := distinct
    have full : names.length ≤ (openNames enclosing).length := by
      rw [openNames, List.length_map]
      exact Nat.le_of_eq (Nat.succ.inj atBound).symm
    -- All names are open, so the one about to be opened is open already.
    have exhausted :=
      (List.subperm_of_subset nodup within).perm_of_length_le full
    exact ⟨layout.type.qualified, named,
      if_pos (exhausted.mem_iff.mpr named)⟩
  | inside written enclosing =>
    have sub := (List.subperm_of_subset distinct.1 distinct.2).length_le
    rw [openNames, List.length_map] at sub
    simp only [openWalks] at atBound
    omega
  | halted outcome => simp [openWalks] at atBound

end Depth

end WalkState

end Metastring
