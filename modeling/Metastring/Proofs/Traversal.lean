import Mathlib.Data.List.Forall2

/-!
# Traversals that can fail

The members of a message are visited from the left, and the first failure ends
the visit.  This file says when such a traversal succeeds, where a failure of it
comes from, and when two traversals of different lists have the same outcome.
-/

namespace Metastring

variable {ε α β γ : Type}

theorem bind_ne_error {first : Except ε α} {rest : α → Except ε β} {fault : ε}
    (firstNot : first ≠ .error fault)
    (restNot : ∀ value, rest value ≠ .error fault) :
    first >>= rest ≠ .error fault := by
  cases first with
  | error found =>
      intro fails
      exact firstNot (congrArg _ (Except.error.inj fails))
  | ok value => exact restNot value

theorem mapM_eq_ok_iff (visit : α → Except ε β) (elements : List α)
    (results : List β) :
    elements.mapM visit = .ok results ↔
      List.Forall₂ (fun element result => visit element = .ok result)
        elements results := by
  induction elements generalizing results with
  | nil =>
      simp only [List.mapM_nil, pure, Except.pure, Except.ok.injEq,
        List.forall₂_nil_left_iff]
      exact eq_comm
  | cons element elements ih =>
      rw [List.mapM_cons, List.forall₂_cons_left_iff]
      cases visited : visit element with
      | error fault => simp [bind, Except.bind]
      | ok result =>
          cases visitedRest : elements.mapM visit with
          | error fault =>
              have none_succeeds : ∀ others, ¬ List.Forall₂
                  (fun element result => visit element = .ok result)
                  elements others := by
                intro others succeeds
                rw [← ih, visitedRest] at succeeds
                contradiction
              simp [bind, Except.bind, none_succeeds]
          | ok others =>
              have unique : ∀ found, List.Forall₂
                  (fun element result => visit element = .ok result)
                  elements found ↔ others = found := by
                intro found
                rw [← ih, visitedRest, Except.ok.injEq]
              simp only [bind, Except.bind, pure, Except.pure,
                Except.ok.injEq, unique]
              constructor
              · rintro rfl
                exact ⟨result, others, rfl, rfl, rfl⟩
              · rintro ⟨first, found, rfl, rfl, rfl⟩
                rfl

theorem exists_of_forall₂ {related : α → β → Prop} {elements : List α}
    {results : List β} (pairs : List.Forall₂ related elements results)
    {element : α} (isElement : element ∈ elements) :
    ∃ result, related element result := by
  induction pairs with
  | nil => contradiction
  | @cons first result _ _ isRelated _ ih =>
      rcases List.mem_cons.mp isElement with rfl | later
      · exact ⟨result, isRelated⟩
      · exact ih later

theorem exists_getElem?_of_forall₂ {related : α → β → Prop}
    {elements : List α} {results : List β}
    (pairs : List.Forall₂ related elements results) {index : Nat} {result : β}
    (found : results[index]? = some result) :
    ∃ element, elements[index]? = some element ∧ related element result := by
  induction pairs generalizing index with
  | nil => simp at found
  | @cons element first _ _ isRelated _ ih =>
      cases index with
      | zero => exact ⟨element, rfl, Option.some.inj found ▸ isRelated⟩
      | succ index => exact ih found

theorem exists_forall₂_of_forall_exists {related : α → β → Prop}
    {elements : List α}
    (relates : ∀ element ∈ elements, ∃ result, related element result) :
    ∃ results, List.Forall₂ related elements results := by
  induction elements with
  | nil => exact ⟨[], .nil⟩
  | cons element elements ih =>
      rw [List.forall_mem_cons] at relates
      obtain ⟨⟨result, isRelated⟩, later⟩ := relates
      obtain ⟨results, pairs⟩ := ih later
      exact ⟨result :: results, .cons isRelated pairs⟩

theorem forall₂_of_images {related : β → γ → Prop} {elements : List α}
    {first : α → β} {second : α → γ}
    (relates : ∀ element ∈ elements, related (first element) (second element)) :
    List.Forall₂ related (elements.map first) (elements.map second) := by
  rw [List.forall₂_map_left_iff, List.forall₂_map_right_iff, List.forall₂_same]
  exact relates

/-- A failure of a traversal is the failure of one of its visits. -/
theorem exists_of_mapM_eq_error {visit : α → Except ε β} {elements : List α}
    {fault : ε} (fails : elements.mapM visit = .error fault) :
    ∃ element ∈ elements, visit element = .error fault := by
  induction elements with
  | nil => simp [pure, Except.pure] at fails
  | cons element elements ih =>
      rw [List.mapM_cons] at fails
      cases visited : visit element with
      | error found =>
          rw [visited] at fails
          have same : found = fault := by
            simpa [bind, Except.bind] using fails
          exact ⟨element, List.mem_cons_self, same ▸ visited⟩
      | ok result =>
          cases visitedRest : elements.mapM visit with
          | ok others =>
              simp [visited, visitedRest, bind, Except.bind, pure,
                Except.pure] at fails
          | error found =>
              have same : found = fault := by
                simpa [visited, visitedRest, bind, Except.bind] using fails
              obtain ⟨culprit, member, faulty⟩ := ih (same ▸ visitedRest)
              exact ⟨culprit, List.mem_cons_of_mem element member, faulty⟩

/-- Lists are traversed alike, also when a visit fails, if paired elements are
visited alike wherever all visits before them succeed. -/
theorem mapM_eq_of_passed {visit : α → Except ε γ} {visit' : β → Except ε γ}
    {related : α → β → Prop} {elements : List α} {elements' : List β}
    (pairs : List.Forall₂ related elements elements')
    (alike : ∀ before element after, elements = before ++ element :: after →
      (∀ other ∈ before, ∃ result, visit other = .ok result) →
        ∀ element', related element element' →
          visit element = visit' element') :
    elements.mapM visit = elements'.mapM visit' := by
  induction pairs with
  | nil => rfl
  | @cons element element' elements elements' isRelated _ ih =>
      have first := alike [] element elements rfl nofun element' isRelated
      rw [List.mapM_cons, List.mapM_cons, ← first]
      cases visited : visit element with
      | error fault => rfl
      | ok result =>
          have rest : elements.mapM visit = elements'.mapM visit' := by
            refine ih fun before other after split passed => ?_
            refine alike (element :: before) other after
              (congrArg (element :: ·) split) ?_
            exact List.forall_mem_cons.mpr ⟨⟨result, visited⟩, passed⟩
          rw [rest]

/-- Lists whose elements are pairwise visited alike are traversed alike, also
when a visit fails. -/
theorem mapM_eq_of_forall₂ {visit : α → Except ε γ} {visit' : β → Except ε γ}
    {elements : List α} {elements' : List β}
    (alike : List.Forall₂
      (fun element element' => visit element = visit' element')
      elements elements') :
    elements.mapM visit = elements'.mapM visit' :=
  mapM_eq_of_passed alike fun _ _ _ _ _ _ same => same

end Metastring
