import Mathlib.Data.List.Perm.Subperm
import Metastring.Proofs.Traversal
import Metastring.Walk

/-!
# The budget of a walk

A walk is given the number of messages that may still be opened.  A budget
suffices when no message is reached with nothing left unless its name is open
already, so the budget never decides the outcome: all sufficient budgets give
the same one.

Two quantities suffice.  When the names of all messages come from a list, the
number of names in it that are not open is enough, whatever cycles the
references have.  In a tree, the height is enough.
-/

namespace Metastring

section Walks

variable {ρ : Type}

/-- The walk of the message that a reference leads to. -/
def walkReference (options : Options)
    (describe : ρ → Except CompileError (Layout Kind ρ)) (budget : Nat)
    (opened : List String) (label : Option String) (reference : ρ) :
    Except CompileError String := do
  walk options describe budget opened label (← describe reference)

theorem walk_of_opened (options : Options)
    (describe : ρ → Except CompileError (Layout Kind ρ)) (budget : Nat)
    {opened : List String} (label : Option String) {layout : Layout Kind ρ}
    (isOpen : layout.type.qualified ∈ opened) :
    walk options describe budget opened label layout =
      .error (.recursiveType layout.type.qualified) := by
  cases budget with
  | zero => rfl
  | succ budget => simp only [walk, if_pos isOpen]

theorem walk_of_fresh (options : Options)
    (describe : ρ → Except CompileError (Layout Kind ρ)) (budget : Nat)
    {opened : List String} (label : Option String) {layout : Layout Kind ρ}
    (fresh : layout.type.qualified ∉ opened) :
    walk options describe (budget + 1) opened label layout =
      (layout.members.mapM (Member.segment options
        (walkReference options describe budget
          (layout.type.qualified :: opened)))).map
        (fun segments => layout.token label ++ String.join segments) := by
  simp only [walk, if_neg fresh]
  rfl

/-- A walk that succeeds opens a new name and appends the segments of all
members. -/
theorem exists_segments_of_walk {options : Options}
    {describe : ρ → Except CompileError (Layout Kind ρ)} {budget : Nat}
    {opened : List String} {label : Option String} {layout : Layout Kind ρ}
    {text : String}
    (succeeds : walk options describe (budget + 1) opened label layout =
      .ok text) :
    ∃ segments,
      List.Forall₂ (fun member segment =>
        Member.segment options (walkReference options describe budget
          (layout.type.qualified :: opened)) member = .ok segment)
        layout.members segments ∧
        layout.token label ++ String.join segments = text := by
  by_cases isOpen : layout.type.qualified ∈ opened
  · rw [walk_of_opened options describe _ label isOpen] at succeeds
    contradiction
  rw [walk_of_fresh options describe budget label isOpen] at succeeds
  cases visited : layout.members.mapM (Member.segment options
      (walkReference options describe budget
        (layout.type.qualified :: opened))) with
  | error fault => simp [visited, Except.map] at succeeds
  | ok segments =>
      rw [visited] at succeeds
      exact ⟨segments, (mapM_eq_ok_iff _ _ _).mp visited,
        Except.ok.inj succeeds⟩

/-- Behind a new name, a walk only fails with one of the members. -/
theorem exists_member_of_walk_error {options : Options}
    {describe : ρ → Except CompileError (Layout Kind ρ)} {budget : Nat}
    {opened : List String} {label : Option String} {layout : Layout Kind ρ}
    {fault : CompileError} (fresh : layout.type.qualified ∉ opened)
    (fails : walk options describe (budget + 1) opened label layout =
      .error fault) :
    ∃ member ∈ layout.members,
      member.segment options (walkReference options describe budget
        (layout.type.qualified :: opened)) = .error fault := by
  rw [walk_of_fresh options describe budget label fresh] at fails
  cases visited : layout.members.mapM (Member.segment options
      (walkReference options describe budget
        (layout.type.qualified :: opened))) with
  | ok segments => simp [visited, Except.map] at fails
  | error found =>
      rw [visited] at fails
      obtain rfl : found = fault := Except.error.inj fails
      exact exists_of_mapM_eq_error visited

/-- Segments of members with the same name, kind and container agree when the
walks of their nested messages do. -/
theorem Member.segment_congr {σ : Type} (options : Options)
    {nested : Option String → ρ → Except CompileError String}
    {nested' : Option String → σ → Except CompileError String}
    {member : Member Kind ρ} {member' : Member Kind σ}
    (sameName : member.name = member'.name)
    (sameKind : member.kind = member'.kind)
    (sameContainer : member.shape.container = member'.shape.container)
    (sameNested : member.kind = .message →
      Option.Rel (fun reference reference' => ∀ label,
        nested label reference = nested' label reference')
        member.nested member'.nested) :
    member.segment options nested = member'.segment options nested' := by
  have sameLabel : member.label = member'.label := by
    simp only [Member.label, sameName, sameContainer]
  unfold Member.segment
  rw [← sameKind, ← sameLabel, ← sameName, ← sameContainer]
  cases kind : member.kind with
  | leaf leaf => rfl
  | unknown id => rfl
  | message =>
      have agree := sameNested kind
      generalize member.nested = nested at agree ⊢
      generalize member'.nested = nested' at agree ⊢
      cases agree with
      | none => rfl
      | some sameWalks => simp only [sameWalks]

/-- When a member has a segment, and which. -/
theorem Member.segment_eq_ok_iff {options : Options}
    {nested : Option String → ρ → Except CompileError String}
    {member : Member Kind ρ} {segment : String} :
    member.segment options nested = .ok segment ↔
      (∃ leaf, member.kind = .leaf leaf ∧
          member.shape.container.token options member.name ++
            leaf.token member.label = segment) ∨
        member.kind = .message ∧ ∃ reference, member.nested = some reference ∧
          ∃ text, nested member.label reference = .ok text ∧
            member.shape.container.token options member.name ++ text =
              segment := by
  unfold Member.segment
  cases isKind : member.kind with
  | leaf leaf => simp
  | unknown id => simp
  | message =>
      cases refers : member.nested with
      | none => simp
      | some reference =>
          cases walked : nested member.label reference with
          | error fault => simp [walked, Except.map]
          | ok text => simp [walked, Except.map]

/-- A member of kind message is walked only together with a nested message. -/
theorem Member.exists_nested_of_segment {options : Options}
    {nested : Option String → ρ → Except CompileError String}
    {member : Member Kind ρ} {text : String}
    (isMessage : member.kind = .message)
    (succeeds : member.segment options nested = .ok text) :
    ∃ reference text', member.nested = some reference ∧
      nested member.label reference = .ok text' := by
  rcases Member.segment_eq_ok_iff.mp succeeds with
    ⟨leaf, isLeaf, -⟩ | ⟨-, reference, refers, text', walked, -⟩
  · rw [isMessage] at isLeaf
    contradiction
  · exact ⟨reference, text', refers, walked⟩

/-- Where a walk succeeds, so do the walks of the nested messages. -/
theorem exists_nested_of_walk {options : Options}
    {describe : ρ → Except CompileError (Layout Kind ρ)} {budget : Nat}
    {opened : List String} {label : Option String} {layout : Layout Kind ρ}
    {text : String}
    (succeeds : walk options describe (budget + 1) opened label layout =
      .ok text)
    {member : Member Kind ρ} (isMember : member ∈ layout.members)
    (isMessage : member.kind = .message) :
    ∃ reference text', member.nested = some reference ∧
      walkReference options describe budget (layout.type.qualified :: opened)
        member.label reference = .ok text' := by
  obtain ⟨segments, visited, -⟩ := exists_segments_of_walk succeeds
  obtain ⟨segment, walked⟩ := exists_of_forall₂ visited isMember
  exact Member.exists_nested_of_segment isMessage walked

/-- One layout refers to another through a member of kind message. -/
def Layout.Nests (describe : ρ → Except CompileError (Layout Kind ρ))
    (outer inner : Layout Kind ρ) : Prop :=
  ∃ member ∈ outer.members, member.kind = .message ∧
    ∃ reference, member.nested = some reference ∧
      describe reference = .ok inner

/-- A budget suffices for a walk when every message reached with nothing left
repeats an open name. -/
def BudgetSuffices (describe : ρ → Except CompileError (Layout Kind ρ)) :
    (budget : Nat) → (opened : List String) → (layout : Layout Kind ρ) → Prop
  | 0, opened, layout => layout.type.qualified ∈ opened
  | budget + 1, opened, layout =>
    layout.type.qualified ∉ opened →
      ∀ inner, layout.Nests describe inner →
        BudgetSuffices describe budget (layout.type.qualified :: opened) inner

/-- All sufficient budgets give the same outcome. -/
theorem walk_budget_eq (options : Options)
    {describe : ρ → Except CompileError (Layout Kind ρ)}
    {budget budget' : Nat} {opened : List String} (label : Option String)
    {layout : Layout Kind ρ}
    (sufficient : BudgetSuffices describe budget opened layout)
    (sufficient' : BudgetSuffices describe budget' opened layout) :
    walk options describe budget opened label layout =
      walk options describe budget' opened label layout := by
  induction budget generalizing budget' opened label layout with
  | zero =>
      rw [walk_of_opened options describe 0 label sufficient,
        walk_of_opened options describe budget' label sufficient]
  | succ budget ih =>
      by_cases isOpen : layout.type.qualified ∈ opened
      · rw [walk_of_opened options describe _ label isOpen,
          walk_of_opened options describe budget' label isOpen]
      cases budget' with
      | zero => exact absurd sufficient' isOpen
      | succ budget' =>
          rw [walk_of_fresh options describe budget label isOpen,
            walk_of_fresh options describe budget' label isOpen]
          congr 1
          apply mapM_eq_of_forall₂
          rw [List.forall₂_same]
          intro member isMember
          refine Member.segment_congr options rfl rfl rfl fun isMessage => ?_
          cases refers : member.nested with
          | none => exact .none
          | some reference =>
              refine .some fun nestedLabel => ?_
              unfold walkReference
              cases described : describe reference with
              | error fault => rfl
              | ok inner =>
                  have nests : layout.Nests describe inner :=
                    ⟨member, isMember, isMessage, reference, refers, described⟩
                  exact ih nestedLabel (sufficient isOpen inner nests)
                    (sufficient' isOpen inner nests)

/-- More than enough is enough. -/
theorem BudgetSuffices.mono
    {describe : ρ → Except CompileError (Layout Kind ρ)}
    {budget budget' : Nat} (le : budget ≤ budget') {opened : List String}
    {layout : Layout Kind ρ}
    (enough : BudgetSuffices describe budget opened layout) :
    BudgetSuffices describe budget' opened layout := by
  induction budget generalizing budget' opened layout with
  | zero =>
      cases budget' with
      | zero => exact enough
      | succ budget' => exact fun fresh => absurd enough fresh
  | succ budget ih =>
      cases budget' with
      | zero => omega
      | succ budget' =>
          intro fresh inner nests
          exact ih (by omega) (enough fresh inner nests)

/-- When all messages have names from a list, it is enough to be able to open
as many as there are names that are not open. -/
theorem budgetSuffices_of_names
    {describe : ρ → Except CompileError (Layout Kind ρ)} {names : List String}
    (closed : ∀ reference inner, describe reference = .ok inner →
      inner.type.qualified ∈ names)
    {budget : Nat} {opened : List String} {layout : Layout Kind ρ}
    (distinct : opened.Nodup) (within : opened ⊆ names)
    (named : layout.type.qualified ∈ names)
    (enough : names.length ≤ opened.length + budget) :
    BudgetSuffices describe budget opened layout := by
  induction budget generalizing opened layout with
  | zero =>
      -- With nothing left, the open names are all the names there are.
      have exhausted :=
        (List.subperm_of_subset distinct within).perm_of_length_le enough
      exact exhausted.mem_iff.mpr named
  | succ budget ih =>
      rintro fresh inner ⟨member, -, -, reference, -, described⟩
      refine ih (List.nodup_cons.mpr ⟨fresh, distinct⟩) ?_
        (closed reference inner described) ?_
      · exact List.cons_subset.mpr ⟨named, within⟩
      · rw [List.length_cons]
        omega

end Walks

section Trees

/-- The layouts inside a tree describe themselves. -/
def Descriptor.describe (descriptor : Descriptor) :
    Except CompileError (Layout Kind Descriptor) :=
  .ok descriptor.layout

theorem memberHeight_le_membersHeight {member : Member Kind Descriptor}
    {members : List (Member Kind Descriptor)} (isMember : member ∈ members) :
    memberHeight member ≤ membersHeight members := by
  induction members with
  | nil => simp at isMember
  | cons first members ih =>
      rw [membersHeight]
      rcases List.mem_cons.mp isMember with rfl | later
      · exact Nat.le_max_left _ _
      · exact Nat.le_trans (ih later) (Nat.le_max_right _ _)

/-- A nested message has fewer levels than the message around it. -/
theorem Descriptor.height_lt_of_nested {outer inner : Descriptor}
    {member : Member Kind Descriptor} (isMember : member ∈ outer.layout.members)
    (refers : member.nested = some inner) : inner.height < outer.height := by
  obtain ⟨⟨type, members⟩⟩ := outer
  have below := memberHeight_le_membersHeight isMember
  obtain ⟨name, kind, shape, nested⟩ := member
  obtain rfl : nested = some inner := refers
  rw [memberHeight] at below
  rw [Descriptor.height]
  exact Nat.lt_succ_of_le below

theorem Descriptor.budgetSuffices {budget : Nat} {opened : List String}
    {descriptor : Descriptor} (enough : descriptor.height ≤ budget) :
    BudgetSuffices Descriptor.describe budget opened descriptor.layout := by
  induction budget generalizing opened descriptor with
  | zero =>
      obtain ⟨⟨type, members⟩⟩ := descriptor
      simp [Descriptor.height] at enough
  | succ budget ih =>
      rintro - inner ⟨member, isMember, -, nested, refers, described⟩
      obtain rfl : nested.layout = inner := Except.ok.inj described
      have smaller := Descriptor.height_lt_of_nested isMember refers
      exact ih (by omega)

end Trees

end Metastring
