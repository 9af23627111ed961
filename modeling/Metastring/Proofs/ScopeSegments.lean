import Mathlib.Data.List.Infix
import Metastring.Introspection

/-!
# Joining and rewriting the segments of a scope

A scope is written as segments joined by a doubled separator.  Rewriting takes
pairs of the separator from the left, so it finds the joints only if no segment
holds a pair of its own and no segment but the last ends in the separator; a
segment may still begin with it.  Then the scope that was joined by one doubled
separator becomes the same segments joined by the other.

Cutting at the same pairs gives the segments themselves.  Every text is joined
from the segments it is cut into, whose joints can be found again, so what
rewriting does to a text is read off its cut.

The rewriting is studied over any alphabet.  Characters are one and bytes are
another, and decoding UTF-8 carries the rewriting of bytes to the rewriting of
characters: both separators are single bytes, which no longer sequence holds.
-/

namespace Metastring

section Pairs

variable {α : Type} [DecidableEq α] (old new : α)

/-- Replace every pair of `old` by a pair of `new`, from the left. -/
def replacePairs : List α → List α
  | first :: second :: rest =>
    if first = old ∧ second = old then new :: new :: replacePairs rest
    else first :: replacePairs (second :: rest)
  | [letter] => [letter]
  | [] => []

/-- Cut at every pair of the separator, from the left. -/
def cutAtPairs : List α → List (List α)
  | first :: second :: rest =>
    if first = old ∧ second = old then [] :: cutAtPairs rest
    else (cutAtPairs (second :: rest)).modifyHead (first :: ·)
  | [letter] => [[letter]]
  | [] => [[]]

/-- Segments whose joints can be found again. -/
structure Separable (segments : List (List α)) : Prop where
  no_pair : ∀ segment ∈ segments, ¬ [old, old] <:+: segment
  no_end : ∀ segment ∈ segments.dropLast, segment.getLast? ≠ some old

variable {old new}

@[simp]
theorem replacePairs_nil : replacePairs old new [] = [] :=
  rfl

@[simp]
theorem replacePairs_pair (rest : List α) :
    replacePairs old new (old :: old :: rest) =
      new :: new :: replacePairs old new rest := by
  simp [replacePairs]

theorem replacePairs_cons_cons {first second : α} (rest : List α)
    (noPair : ¬ (first = old ∧ second = old)) :
    replacePairs old new (first :: second :: rest) =
      first :: replacePairs old new (second :: rest) := by
  rw [replacePairs, if_neg noPair]

/-- A letter stays where no pair begins with it. -/
theorem replacePairs_cons {first : α} {rest : List α}
    (noPair : first = old → ∀ tail, rest ≠ old :: tail) :
    replacePairs old new (first :: rest) =
      first :: replacePairs old new rest := by
  cases rest with
  | nil => rfl
  | cons second rest =>
      refine replacePairs_cons_cons rest ?_
      rintro ⟨isOld, rfl⟩
      exact noPair isOld rest rfl

theorem replacePairs_cons_of_ne {first : α} (rest : List α)
    (differs : first ≠ old) :
    replacePairs old new (first :: rest) =
      first :: replacePairs old new rest :=
  replacePairs_cons fun isOld => absurd isOld differs

omit [DecidableEq α] in
theorem noPair_cons_cons {first second : α} {rest : List α}
    (noPair : ¬ [old, old] <:+: first :: second :: rest) :
    ¬ (first = old ∧ second = old) ∧ ¬ [old, old] <:+: second :: rest := by
  constructor
  · rintro ⟨rfl, rfl⟩
    exact noPair ⟨[], rest, rfl⟩
  · intro pair
    exact noPair (pair.trans (List.suffix_cons first _).isInfix)

omit [DecidableEq α] in
theorem noPair_cons_of_ne {first : α} {rest : List α} (differs : first ≠ old)
    (noPair : ¬ [old, old] <:+: rest) : ¬ [old, old] <:+: first :: rest := by
  intro pair
  rcases List.infix_cons_iff.mp pair with starts | later
  · exact differs (List.cons_prefix_cons.mp starts).1.symm
  · exact noPair later

omit [DecidableEq α] in
theorem noPair_cons_cons_of_ne (first : α) {second : α} {rest : List α}
    (differs : second ≠ old) (noPair : ¬ [old, old] <:+: second :: rest) :
    ¬ [old, old] <:+: first :: second :: rest := by
  intro pair
  rcases List.infix_cons_iff.mp pair with starts | later
  · have follows := (List.cons_prefix_cons.mp starts).2
    exact differs (List.cons_prefix_cons.mp follows).1.symm
  · exact noPair later

omit [DecidableEq α] in
@[simp]
theorem separable_singleton {segment : List α} :
    Separable old [segment] ↔ ¬ [old, old] <:+: segment := by
  refine ⟨fun separable => separable.no_pair segment List.mem_cons_self,
    fun noPair => ⟨?_, by simp⟩⟩
  simpa using noPair

omit [DecidableEq α] in
theorem separable_cons_cons {segment next : List α} {others : List (List α)} :
    Separable old (segment :: next :: others) ↔
      ¬ [old, old] <:+: segment ∧ segment.getLast? ≠ some old ∧
        Separable old (next :: others) := by
  constructor
  · rintro ⟨noPair, noEnd⟩
    rw [List.dropLast_cons_cons] at noEnd
    obtain ⟨noPairHere, noPairLater⟩ := List.forall_mem_cons.mp noPair
    obtain ⟨noEndHere, noEndLater⟩ := List.forall_mem_cons.mp noEnd
    exact ⟨noPairHere, noEndHere, noPairLater, noEndLater⟩
  · rintro ⟨noPairHere, noEndHere, noPairLater, noEndLater⟩
    refine ⟨List.forall_mem_cons.mpr ⟨noPairHere, noPairLater⟩, ?_⟩
    rw [List.dropLast_cons_cons]
    exact List.forall_mem_cons.mpr ⟨noEndHere, noEndLater⟩

omit [DecidableEq α] in
theorem Separable.cons_head {first : α} {segment : List α}
    {others : List (List α)} (separable : Separable old (segment :: others))
    (noPair : ¬ [old, old] <:+: first :: segment)
    (noEnd : segment = [] → first ≠ old) :
    Separable old ((first :: segment) :: others) := by
  cases others with
  | nil => exact separable_singleton.mpr noPair
  | cons next others =>
      obtain ⟨-, noEndBefore, rest⟩ := separable_cons_cons.mp separable
      refine separable_cons_cons.mpr ⟨noPair, ?_, rest⟩
      cases segment with
      | nil => simpa using noEnd rfl
      | cons second segment => rwa [List.getLast?_cons_cons]

@[simp]
theorem cutAtPairs_pair (rest : List α) :
    cutAtPairs old (old :: old :: rest) = [] :: cutAtPairs old rest := by
  simp [cutAtPairs]

theorem cutAtPairs_cons_cons {first second : α} (rest : List α)
    (noPair : ¬ (first = old ∧ second = old)) :
    cutAtPairs old (first :: second :: rest) =
      (cutAtPairs old (second :: rest)).modifyHead (first :: ·) := by
  rw [cutAtPairs, if_neg noPair]

theorem cutAtPairs_cons_of_ne {first : α} (rest : List α)
    (differs : first ≠ old) :
    cutAtPairs old (first :: rest) =
      (cutAtPairs old rest).modifyHead (first :: ·) := by
  cases rest with
  | nil => rfl
  | cons second rest =>
      exact cutAtPairs_cons_cons rest fun both => differs both.1

variable (old) in
theorem exists_cutAtPairs (letters : List α) :
    ∃ segment others, cutAtPairs old letters = segment :: others := by
  fun_induction cutAtPairs old letters with
  | case1 first second rest pair ih => exact ⟨[], _, rfl⟩
  | case2 first second rest noPair ih =>
      obtain ⟨segment, others, isCut⟩ := ih
      exact ⟨first :: segment, others, by rw [isCut, List.modifyHead_cons]⟩
  | case3 letter => exact ⟨[letter], [], rfl⟩
  | case4 => exact ⟨[], [], rfl⟩

theorem cutAtPairs_of_noPair {segment : List α}
    (noPair : ¬ [old, old] <:+: segment) :
    cutAtPairs old segment = [segment] := by
  induction segment with
  | nil => rfl
  | cons first segment ih =>
      cases segment with
      | nil => rfl
      | cons second segment =>
          obtain ⟨noPairHere, noPairLater⟩ := noPair_cons_cons noPair
          rw [cutAtPairs_cons_cons _ noPairHere, ih noPairLater,
            List.modifyHead_cons]

/-- The beginning of a list up to the first pair is its first segment. -/
theorem cutAtPairs_append {segment : List α} (rest : List α)
    (noPair : ¬ [old, old] <:+: segment)
    (noEnd : segment.getLast? ≠ some old) :
    cutAtPairs old (segment ++ old :: old :: rest) =
      segment :: cutAtPairs old rest := by
  induction segment with
  | nil => exact cutAtPairs_pair rest
  | cons first segment ih =>
      cases segment with
      | nil =>
          have differs : first ≠ old := by simpa using noEnd
          rw [List.singleton_append, cutAtPairs_cons_of_ne _ differs,
            cutAtPairs_pair, List.modifyHead_cons]
      | cons second segment =>
          obtain ⟨noPairHere, noPairLater⟩ := noPair_cons_cons noPair
          have noEndLater : (second :: segment).getLast? ≠ some old := by
            rwa [List.getLast?_cons_cons] at noEnd
          rw [List.cons_append, List.cons_append,
            cutAtPairs_cons_cons _ noPairHere, ← List.cons_append,
            ih noPairLater noEndLater, List.modifyHead_cons]

/-- Segments are found again where they were joined. -/
theorem cutAtPairs_intercalate {segments : List (List α)}
    (separable : Separable old segments) (nonempty : segments ≠ []) :
    cutAtPairs old ([old, old].intercalate segments) = segments := by
  induction segments with
  | nil => contradiction
  | cons segment segments ih =>
      cases segments with
      | nil =>
          rw [List.intercalate_singleton]
          exact cutAtPairs_of_noPair (separable_singleton.mp separable)
      | cons next segments =>
          obtain ⟨noPair, noEnd, rest⟩ := separable_cons_cons.mp separable
          rw [List.intercalate_cons_cons, List.append_assoc, List.cons_append,
            List.singleton_append, cutAtPairs_append _ noPair noEnd,
            ih rest (List.cons_ne_nil next segments)]

/-- The joints of a cut can be found again. -/
theorem separable_cutAtPairs (letters : List α) :
    Separable old (cutAtPairs old letters) := by
  fun_induction cutAtPairs old letters with
  | case1 first second rest pair ih =>
      obtain ⟨segment, others, isCut⟩ := exists_cutAtPairs old rest
      rw [isCut] at ih ⊢
      exact separable_cons_cons.mpr ⟨by simp, by simp, ih⟩
  | case2 first second rest noPair ih =>
      by_cases isOld : first = old
      · -- The second letter differs, so it is in the first segment and ends the
        -- run of separators that the first letter begins.
        have differs : second ≠ old := fun same => noPair ⟨isOld, same⟩
        obtain ⟨segment, others, isCut⟩ := exists_cutAtPairs old rest
        rw [cutAtPairs_cons_of_ne rest differs, isCut,
          List.modifyHead_cons] at ih ⊢
        have noPairLater := ih.no_pair _ List.mem_cons_self
        exact ih.cons_head (noPair_cons_cons_of_ne first differs noPairLater)
          nofun
      · obtain ⟨segment, others, isCut⟩ :=
          exists_cutAtPairs old (second :: rest)
        rw [isCut] at ih ⊢
        have noPairLater := ih.no_pair segment List.mem_cons_self
        exact ih.cons_head (noPair_cons_of_ne isOld noPairLater) fun _ => isOld
  | case3 letter => simp [List.infix_cons_iff]
  | case4 => simp

/-- Rewriting joins what cutting takes apart. -/
theorem replacePairs_eq_intercalate (letters : List α) :
    replacePairs old new letters =
      [new, new].intercalate (cutAtPairs old letters) := by
  fun_induction replacePairs old new letters with
  | case1 first second rest pair ih =>
      obtain ⟨rfl, rfl⟩ := pair
      obtain ⟨segment, others, isCut⟩ := exists_cutAtPairs second rest
      rw [ih, cutAtPairs_pair, isCut, List.intercalate_cons_cons]
      rfl
  | case2 first second rest noPair ih =>
      obtain ⟨segment, others, isCut⟩ :=
        exists_cutAtPairs old (second :: rest)
      rw [ih, cutAtPairs_cons_cons rest noPair, isCut, List.modifyHead_cons]
      cases others <;> simp
  | case3 letter => rfl
  | case4 => rfl

theorem replacePairs_of_noPair {segment : List α}
    (noPair : ¬ [old, old] <:+: segment) :
    replacePairs old new segment = segment := by
  rw [replacePairs_eq_intercalate, cutAtPairs_of_noPair noPair,
    List.intercalate_singleton]

/-- A view that does not tell the two separators apart does not see the
rewriting. -/
theorem map_replacePairs {β : Type} {view : α → β}
    (same : view new = view old) (letters : List α) :
    (replacePairs old new letters).map view = letters.map view := by
  fun_induction replacePairs old new letters with
  | case1 first second rest pair ih =>
      obtain ⟨rfl, rfl⟩ := pair
      simp [same, ih]
  | case2 first second rest noPair ih => rw [List.map_cons, ih, ← List.map_cons]
  | case3 letter => rfl
  | case4 => rfl

theorem length_replacePairs (letters : List α) :
    (replacePairs old new letters).length = letters.length := by
  have same : Function.const α () new = Function.const α () old := rfl
  simpa using congrArg List.length (map_replacePairs same letters)

/-- Letters without `new` are found again when `old` is put back for it. -/
theorem map_update_replacePairs {letters : List α} (clean : new ∉ letters) :
    (replacePairs old new letters).map (Function.update id new old) =
      letters := by
  have same :
      Function.update id new old new = Function.update id new old old := by
    simp [Function.update_apply]
  have kept : ∀ letter ∈ letters,
      Function.update id new old letter = id letter := fun letter isMember =>
    Function.update_of_ne (ne_of_mem_of_not_mem isMember clean) old id
  rw [map_replacePairs same, List.map_congr_left kept, List.map_id]

/-- Every list is joined from the segments it is cut into. -/
theorem intercalate_cutAtPairs (letters : List α) :
    [old, old].intercalate (cutAtPairs old letters) = letters := by
  have same := map_replacePairs (rfl : id old = id old) letters
  rw [← replacePairs_eq_intercalate]
  simpa using same

/-- Rewriting brings in no letter but `new`. -/
theorem mem_replacePairs {letter : α} {letters : List α}
    (isMember : letter ∈ replacePairs old new letters) :
    letter ∈ letters ∨ letter = new := by
  fun_induction replacePairs old new letters with
  | case1 first second rest _ ih => grind
  | case2 first second rest _ ih => grind
  | case3 | case4 => exact .inl isMember

/-- Rewriting segments joined by pairs of `old` joins them by pairs of
`new`. -/
theorem replacePairs_intercalate {segments : List (List α)}
    (separable : Separable old segments) :
    replacePairs old new ([old, old].intercalate segments) =
      [new, new].intercalate segments := by
  rcases eq_or_ne segments [] with rfl | nonempty
  · rfl
  · rw [replacePairs_eq_intercalate, cutAtPairs_intercalate separable nonempty]

theorem noPair_replacePairs (differ : new ≠ old) (letters : List α) :
    ¬ [old, old] <:+: replacePairs old new letters := by
  fun_induction replacePairs old new letters with
  | case1 first second rest pair ih =>
      exact noPair_cons_of_ne differ (noPair_cons_of_ne differ ih)
  | case2 first second rest noPair ih =>
      by_cases isOld : first = old
      · -- The second letter differs, so it stays and no pair arises before it.
        have differs : second ≠ old := fun same => noPair ⟨isOld, same⟩
        rw [replacePairs_cons_of_ne rest differs] at ih ⊢
        exact noPair_cons_cons_of_ne first differs ih
      · exact noPair_cons_of_ne isOld ih
  | case3 letter => simp [List.infix_cons_iff]
  | case4 => simp

/-- Rewriting leaves nothing to rewrite. -/
theorem replacePairs_replacePairs (differ : new ≠ old) (letters : List α) :
    replacePairs old new (replacePairs old new letters) =
      replacePairs old new letters :=
  replacePairs_of_noPair (noPair_replacePairs differ letters)

/-- Cutting a list off never cuts a pair that is kept in one alphabet and
dropped in the other. -/
theorem takeWhile_replacePairs {keep : α → Bool} (keepsOld : keep old = true)
    (keepsNew : keep new = true) (letters : List α) :
    (replacePairs old new letters).takeWhile keep =
      replacePairs old new (letters.takeWhile keep) := by
  fun_induction replacePairs old new letters with
  | case1 first second rest pair ih =>
      obtain ⟨rfl, rfl⟩ := pair
      simp [keepsOld, keepsNew, ih]
  | case2 first second rest noPair ih =>
      cases kept : keep first with
      | false => simp [kept]
      | true =>
          rw [List.takeWhile_cons_of_pos kept, ih,
            List.takeWhile_cons_of_pos kept]
          cases keptSecond : keep second with
          | false => simp [keptSecond, replacePairs]
          | true =>
              rw [List.takeWhile_cons_of_pos keptSecond,
                replacePairs_cons_cons _ noPair]
  | case3 letter =>
      cases kept : keep letter <;> simp [kept, replacePairs]
  | case4 => rfl

end Pairs

theorem joinScopes_eq_replacePairs (letters : List Char) :
    joinScopes letters = replacePairs '_' ':' letters := by
  fun_induction joinScopes letters with
  | case1 rest ih => rw [ih, replacePairs_pair]
  | case2 letter rest noPair ih =>
      rw [ih, replacePairs_cons fun isUnderscore tail starts =>
        noPair tail isUnderscore starts]
  | case3 => rfl

end Metastring
