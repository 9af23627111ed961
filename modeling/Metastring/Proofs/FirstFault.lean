import Mathlib.Data.List.Lex
import Mathlib.Order.Defs.PartialOrder
import Metastring.Proofs.WalkBudget

/-!
# The first of several faults

What is read or walked may have many faults at once, and only one of them is
told.  Every fault has a place, places are ordered, and an outcome tells the
first fault when it is a success if there is no fault at all, and otherwise the
failure at the least place.

The faults that an outcome tells are put together like the outcome itself: what
is done in sequence tells the faults of the first part before those of the
second, and a traversal tells the faults of its elements in their order.
-/

namespace Metastring

variable {ε α β step place place' : Type}

/-- The fault before all others: any other one has a later place. -/
def FirstFault [LT place] (faults : place → ε → Prop) (fault : ε) : Prop :=
  ∃ first, faults first fault ∧
    ∀ other fault', faults other fault' →
      first < other ∨ first = other ∧ fault = fault'

/-- A success without any fault, or the failure with the first fault. -/
inductive TellsFirst [LT place] (faults : place → ε → Prop) :
    Except ε α → Prop
  | ok {value : α} (faultless : ∀ place fault, ¬ faults place fault) :
      TellsFirst faults (.ok value)
  | error {fault : ε} (first : FirstFault faults fault) :
      TellsFirst faults (.error fault)

theorem FirstFault.of_only [LT place] {faults : place → ε → Prop} {fault : ε}
    {spot : place} (isFault : faults spot fault)
    (only : ∀ place fault', faults place fault' →
      place = spot ∧ fault' = fault) : FirstFault faults fault := by
  refine ⟨spot, isFault, fun other fault' isFault' => ?_⟩
  obtain ⟨rfl, rfl⟩ := only other fault' isFault'
  exact .inr ⟨rfl, rfl⟩

theorem FirstFault.unique [Preorder place] {faults : place → ε → Prop}
    {fault fault' : ε} (first : FirstFault faults fault)
    (first' : FirstFault faults fault') : fault = fault' := by
  obtain ⟨least, isFault, others⟩ := first
  obtain ⟨least', isFault', others'⟩ := first'
  rcases others least' fault' isFault' with before | ⟨-, same⟩
  · rcases others' least fault isFault with after | ⟨-, same⟩
    · exact absurd (before.trans after) (lt_irrefl least)
    · exact same.symm
  · exact same

namespace TellsFirst

section Reading

variable [Preorder place] {faults : place → ε → Prop} {outcome : Except ε α}

theorem error_iff (tells : TellsFirst faults outcome) (fault : ε) :
    outcome = .error fault ↔ FirstFault faults fault := by
  cases tells with
  | ok faultless =>
      refine ⟨nofun, ?_⟩
      rintro ⟨first, isFault, -⟩
      exact absurd isFault (faultless first fault)
  | error first =>
      constructor
      · rintro same
        exact Except.error.inj same ▸ first
      · intro first'
        exact congrArg _ (first.unique first')

theorem fails_iff (tells : TellsFirst faults outcome) :
    (∃ fault, outcome = .error fault) ↔ ∃ place fault, faults place fault := by
  cases tells with
  | ok faultless =>
      refine ⟨nofun, ?_⟩
      rintro ⟨place, fault, isFault⟩
      exact absurd isFault (faultless place fault)
  | error first =>
      obtain ⟨least, isFault, -⟩ := first
      exact ⟨fun _ => ⟨least, _, isFault⟩, fun _ => ⟨_, rfl⟩⟩

end Reading

section Composition

variable [LT place] {faults faults' : place → ε → Prop} {outcome : Except ε α}

theorem congr (tells : TellsFirst faults outcome)
    (same : ∀ place fault, faults place fault ↔ faults' place fault) :
    TellsFirst faults' outcome := by
  obtain rfl : faults = faults' :=
    funext fun place => funext fun fault => propext (same place fault)
  exact tells

theorem map (tells : TellsFirst faults outcome) (change : α → β) :
    TellsFirst faults (outcome.map change) := by
  cases tells with
  | ok faultless => exact .ok faultless
  | error first => exact .error first

/-- A single test tells its own failure, whatever place it is given. -/
theorem single (spot : place) (test : Except ε α) :
    TellsFirst (fun place fault => place = spot ∧ test = .error fault) test := by
  cases test with
  | ok value => exact .ok (by simp)
  | error found =>
      refine .error (.of_only ⟨rfl, rfl⟩ ?_)
      rintro _ fault ⟨rfl, same⟩
      exact ⟨rfl, (Except.error.inj same).symm⟩

/-- What is done in sequence tells the faults of the first part before those of
the second. -/
theorem bind (tells : TellsFirst faults outcome) {rest : α → Except ε β}
    (tellsRest : ∀ value, outcome = .ok value →
      TellsFirst faults' (rest value))
    (before : ∀ place fault place' fault', faults place fault →
      faults' place' fault' → place < place') :
    TellsFirst (fun place fault => faults place fault ∨ faults' place fault)
      (outcome >>= rest) := by
  cases tells with
  | @ok value faultless =>
      refine (tellsRest value rfl).congr fun place fault => ?_
      simp only [faultless, false_or]
  | error first =>
      -- The rest is not reached, but its faults count: they are all later.
      obtain ⟨least, isFault, others⟩ := first
      refine .error ⟨least, .inl isFault, ?_⟩
      rintro other fault' (early | late)
      · exact others other fault' early
      · exact .inl (before least _ other fault' isFault late)

/-- Faults at places that keep their order are told alike. -/
theorem relocate [LT place'] (tells : TellsFirst faults outcome)
    (move : place → place') (mono : ∀ first second, first < second →
      move first < move second) :
    TellsFirst (fun moved fault => ∃ place, moved = move place ∧
      faults place fault) outcome := by
  cases tells with
  | ok faultless =>
      refine .ok ?_
      rintro _ fault ⟨place, rfl, isFault⟩
      exact faultless place fault isFault
  | error first =>
      obtain ⟨least, isFault, others⟩ := first
      refine .error ⟨move least, ⟨least, rfl, isFault⟩, ?_⟩
      rintro _ fault' ⟨other, rfl, isFault'⟩
      rcases others other fault' isFault' with later | ⟨rfl, same⟩
      · exact .inl (mono least other later)
      · exact .inr ⟨rfl, same⟩

end Composition

theorem mapM [LT step] {visit : α → Except ε β} {elements : List α}
    (placeOf : Nat → step)
    (ascending : ∀ first second, first < second → placeOf first < placeOf second)
    (faults : Nat → List step → ε → Prop)
    (tells : ∀ index element, elements[index]? = some element →
      TellsFirst (faults index) (visit element)) :
    TellsFirst (fun place fault => ∃ index below, index < elements.length ∧
      place = placeOf index :: below ∧ faults index below fault)
      (elements.mapM visit) := by
  -- The places of the tail are shifted by one, so the head is always at 0.
  induction elements generalizing placeOf faults with
  | nil =>
      refine .ok ?_
      rintro place fault ⟨index, below, inside, -⟩
      exact absurd inside (Nat.not_lt_zero index)
  | cons element elements ih =>
      have head := (tells 0 element rfl).relocate (placeOf 0 :: ·)
        fun first second => List.Lex.cons
      have tail := ih (fun index => placeOf (index + 1))
        (fun first second before => ascending _ _ (Nat.succ_lt_succ before))
        (fun index => faults (index + 1))
        fun index other found => tells (index + 1) other found
      rw [List.mapM_cons]
      refine (head.bind (fun result _ => tail.map (result :: ·)) ?_).congr
        fun place fault => ?_
      · rintro _ fault _ fault' ⟨below, rfl, -⟩ ⟨index, below', -, rfl, -⟩
        exact List.Lex.rel (ascending 0 (index + 1) (Nat.succ_pos index))
      · constructor
        · rintro (⟨below, rfl, isFault⟩ | ⟨index, below, inside, rfl, isFault⟩)
          · exact ⟨0, below, Nat.succ_pos _, rfl, isFault⟩
          · exact ⟨index + 1, below, Nat.succ_lt_succ inside, rfl, isFault⟩
        · rintro ⟨_ | index, below, inside, rfl, isFault⟩
          · exact .inl ⟨below, rfl, isFault⟩
          · exact .inr ⟨index, below, Nat.lt_of_succ_lt_succ inside, rfl,
              isFault⟩

end TellsFirst

section Walks

variable {ρ : Type} {options : Options}

/-- A member tells the fault that its kind and its reference make, or those of
its nested message. -/
theorem Member.tellsFirst_segment [LT place]
    {nested : Option String → ρ → Except CompileError String}
    {member : Member Kind ρ} {faults : place → CompileError → Prop}
    (ofLeaf : ∀ leaf, member.kind = .leaf leaf →
      ∀ place fault, ¬ faults place fault)
    (ofUnknown : ∀ id, member.kind = .unknown id →
      FirstFault faults (.unsupportedType member.name id))
    (ofMissing : member.kind = .message → member.nested = none →
      FirstFault faults (.missingNested member.name))
    (ofNested : ∀ reference, member.kind = .message →
      member.nested = some reference →
        TellsFirst faults (nested member.label reference)) :
    TellsFirst faults (member.segment options nested) := by
  unfold Member.segment
  cases isKind : member.kind with
  | leaf leaf => exact .ok (ofLeaf leaf isKind)
  | unknown id => exact .error (ofUnknown id isKind)
  | message =>
      cases refers : member.nested with
      | none => exact .error (ofMissing isKind refers)
      | some reference => exact (ofNested reference isKind refers).map _

/-- Behind a new name, a walk tells the faults of the members in their
order. -/
theorem tellsFirst_walk_of_fresh [LT step]
    {describe : ρ → Except CompileError (Layout Kind ρ)} {budget : Nat}
    {opened : List String} (label : Option String) {layout : Layout Kind ρ}
    (fresh : layout.type.qualified ∉ opened) (placeOf : Nat → step)
    (ascending : ∀ first second, first < second →
      placeOf first < placeOf second)
    (faults : Nat → List step → CompileError → Prop)
    (tells : ∀ index member, layout.members[index]? = some member →
      TellsFirst (faults index) (member.segment options
        (walkReference options describe budget
          (layout.type.qualified :: opened)))) :
    TellsFirst (fun place fault => ∃ index below,
        index < layout.members.length ∧ place = placeOf index :: below ∧
          faults index below fault)
      (walk options describe (budget + 1) opened label layout) := by
  rw [walk_of_fresh options describe budget label fresh]
  exact (TellsFirst.mapM placeOf ascending faults tells).map _

end Walks

end Metastring
