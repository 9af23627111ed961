import Metastring.Compile
import Metastring.Proofs.WalkBudget

/-!
# Walks that agree

Two walks that see their messages through different references give the same
metastring, or fail for the same reason, when corresponding references are
described alike.  Alike means: the same mangled and the same qualified name, and
members that agree one by one on name, kind and container and, where the kind
is message, on what they refer to.  A failed description has to fail for the
same reason on both sides.  Only references that the walk asks for have to be
described alike: what stands behind a failure is not looked at.
-/

namespace Metastring

variable {ρ σ : Type}

/-- Two members are alike: what a walk reads of them agrees, and their
references correspond. -/
structure Member.Alike (related : ρ → σ → Prop) (member : Member Kind ρ)
    (member' : Member Kind σ) : Prop where
  name_eq : member.name = member'.name
  kind_eq : member.kind = member'.kind
  container_eq : member.shape.container = member'.shape.container
  nested_rel : member.kind = .message →
    Option.Rel related member.nested member'.nested

/-- Two layouts are alike: both names agree, and the members are alike one by
one. -/
structure Layout.Alike (related : ρ → σ → Prop) (layout : Layout Kind ρ)
    (layout' : Layout Kind σ) : Prop where
  mangled_eq : layout.type.mangled = layout'.type.mangled
  qualified_eq : layout.type.qualified = layout'.type.qualified
  members_rel :
    List.Forall₂ (Member.Alike related) layout.members layout'.members

/-- Two descriptions are alike: both fail for the same reason, or both succeed
with layouts that are alike. -/
inductive DescribedAlike (related : ρ → σ → Prop) :
    Except CompileError (Layout Kind ρ) →
      Except CompileError (Layout Kind σ) → Prop
  | error (fault : CompileError) :
      DescribedAlike related (.error fault) (.error fault)
  | ok {layout : Layout Kind ρ} {layout' : Layout Kind σ}
      (alike : layout.Alike related layout') :
      DescribedAlike related (.ok layout) (.ok layout')

theorem Layout.Alike.token_eq {related : ρ → σ → Prop}
    {layout : Layout Kind ρ} {layout' : Layout Kind σ}
    (alike : layout.Alike related layout') (label : Option String) :
    layout.token label = layout'.token label := by
  simp only [Layout.token, alike.mangled_eq, alike.members_rel.length_eq]

section Questions

/-- A walk gets to a member of a layout: the layout may be opened, and all
members in front of the member have segments. -/
def GetsTo (options : Options)
    (describe : ρ → Except CompileError (Layout Kind ρ)) (opened : List String)
    (layout : Layout Kind ρ) (member : Member Kind ρ) : Prop :=
  layout.type.qualified ∉ opened ∧
    ∃ before after, layout.members = before ++ member :: after ∧
      ∀ other ∈ before, ∃ budget segment,
        other.segment options (walkReference options describe budget
          (layout.type.qualified :: opened)) = .ok segment

/-- A walk asks for a description of a reference: at some depth it gets to a
member of kind message with the reference. -/
inductive Asks (options : Options)
    (describe : ρ → Except CompileError (Layout Kind ρ)) :
    List String → Layout Kind ρ → ρ → Prop
  | here {opened : List String} {layout : Layout Kind ρ} {member : Member Kind ρ}
      {reference : ρ} (getsTo : GetsTo options describe opened layout member)
      (isMessage : member.kind = .message)
      (refers : member.nested = some reference) :
      Asks options describe opened layout reference
  | inside {opened : List String} {layout inner : Layout Kind ρ}
      {member : Member Kind ρ} {reference deeper : ρ}
      (getsTo : GetsTo options describe opened layout member)
      (isMessage : member.kind = .message)
      (refers : member.nested = some reference)
      (described : describe reference = .ok inner)
      (asks : Asks options describe (layout.type.qualified :: opened) inner
        deeper) :
      Asks options describe opened layout deeper

end Questions

section Agreement

variable {related : ρ → σ → Prop} (options : Options)
  {describe : ρ → Except CompileError (Layout Kind ρ)}
  {describe' : σ → Except CompileError (Layout Kind σ)}

/-- With the same budget and the same open names, walks of layouts that are
alike have the same outcome, if what the first one asks for is described alike. -/
theorem walk_eq_of_asked (budget : Nat) (opened : List String)
    (label : Option String) {layout : Layout Kind ρ} {layout' : Layout Kind σ}
    (alike : layout.Alike related layout')
    (describedAlike : ∀ reference reference',
      Asks options describe opened layout reference →
        related reference reference' →
          DescribedAlike related (describe reference) (describe' reference')) :
    walk options describe budget opened label layout =
      walk options describe' budget opened label layout' := by
  induction budget generalizing opened label layout layout' with
  | zero => simp only [walk, alike.qualified_eq]
  | succ budget ih =>
      by_cases isOpen : layout.type.qualified ∈ opened
      · have isOpen' : layout'.type.qualified ∈ opened :=
          alike.qualified_eq ▸ isOpen
        rw [walk_of_opened options describe _ label isOpen,
          walk_of_opened options describe' _ label isOpen',
          alike.qualified_eq]
      have fresh' : layout'.type.qualified ∉ opened :=
        alike.qualified_eq ▸ isOpen
      rw [walk_of_fresh options describe budget label isOpen,
        walk_of_fresh options describe' budget label fresh',
        alike.token_eq label]
      congr 1
      refine mapM_eq_of_passed alike.members_rel
        fun before member after split passed member' memberAlike => ?_
      have getsTo : GetsTo options describe opened layout member :=
        ⟨isOpen, before, after, split, fun other isBefore =>
          ⟨budget, passed other isBefore⟩⟩
      refine Member.segment_congr options memberAlike.name_eq
        memberAlike.kind_eq memberAlike.container_eq fun isMessage => ?_
      -- Related references are described alike, so their walks agree by
      -- induction; the open names are the same on both sides.
      rw [← alike.qualified_eq]
      have nestedRel := memberAlike.nested_rel isMessage
      generalize refers : member.nested = nested at nestedRel ⊢
      generalize member'.nested = nested' at nestedRel ⊢
      cases nestedRel with
      | none => exact .none
      | @some reference reference' areRelated =>
          refine .some fun nestedLabel => ?_
          have described := describedAlike reference reference'
            (.here getsTo isMessage refers) areRelated
          unfold walkReference
          generalize isDescribed : describe reference = outcome at described ⊢
          generalize describe' reference' = outcome' at described ⊢
          cases described with
          | error fault => rfl
          | ok innerAlike =>
              exact ih _ nestedLabel innerAlike fun deeper deeper' asks =>
                describedAlike deeper deeper'
                  (.inside getsTo isMessage refers isDescribed asks)

/-- With budgets that suffice, layouts that are alike have the same metastring,
or none for the same reason, if what the first walk asks for is described
alike. -/
theorem metastring_eq_of_asked {budget budget' : Nat}
    {layout : Layout Kind ρ} {layout' : Layout Kind σ}
    (sufficient : BudgetSuffices describe budget [] layout)
    (sufficient' : BudgetSuffices describe' budget' [] layout')
    (alike : layout.Alike related layout')
    (describedAlike : ∀ reference reference',
      Asks options describe [] layout reference →
        related reference reference' →
          DescribedAlike related (describe reference) (describe' reference')) :
    metastring options describe budget layout =
      metastring options describe' budget' layout' := by
  unfold metastring
  congr 1
  calc
    walk options describe budget [] none layout =
        walk options describe (max budget budget') [] none layout :=
      walk_budget_eq options none sufficient
        (sufficient.mono (Nat.le_max_left _ _))
    _ = walk options describe' (max budget budget') [] none layout' :=
      walk_eq_of_asked options _ [] none alike describedAlike
    _ = walk options describe' budget' [] none layout' :=
      walk_budget_eq options none
        (sufficient'.mono (Nat.le_max_right _ _)) sufficient'

variable (describedAlike : ∀ reference reference', related reference reference' →
  DescribedAlike related (describe reference) (describe' reference'))

include describedAlike

/-- With the same budget and the same open names, walks of layouts that are
alike have the same outcome. -/
theorem walk_eq_of_alike (budget : Nat) (opened : List String)
    (label : Option String) {layout : Layout Kind ρ} {layout' : Layout Kind σ}
    (alike : layout.Alike related layout') :
    walk options describe budget opened label layout =
      walk options describe' budget opened label layout' :=
  walk_eq_of_asked options budget opened label alike
    fun reference reference' _ => describedAlike reference reference'

/-- With budgets that suffice, layouts that are alike have the same
metastring, or none for the same reason. -/
theorem metastring_eq_of_alike {budget budget' : Nat}
    {layout : Layout Kind ρ} {layout' : Layout Kind σ}
    (sufficient : BudgetSuffices describe budget [] layout)
    (sufficient' : BudgetSuffices describe' budget' [] layout')
    (alike : layout.Alike related layout') :
    metastring options describe budget layout =
      metastring options describe' budget' layout' :=
  metastring_eq_of_asked options sufficient sufficient' alike
    fun reference reference' _ => describedAlike reference reference'

end Agreement

end Metastring
