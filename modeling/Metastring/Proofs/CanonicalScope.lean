import Metastring.Proofs.FlavorEquivalence

/-!
# The canonical spelling of a scope

The canonical scope is the scope with every `__` replaced by `::`, taken from
the left.  It holds no `__`, is as long as the scope and is its own canonical
scope, so a type has the same names whichever of the two spells its scope.

Runs of underscores are where the two spellings could part.  Every scope is
joined by `__` from segments of which none holds `__` and none but the last ends
in an underscore, and such segments are found again in the scope; its canonical
scope is the same segments joined by `::`.  Where no segment holds a colon,
replacing loses nothing, and different segments have different canonical scopes.
-/

namespace Metastring

/-- Segments whose joints can be found again in a scope: none holds `__`, and
none but the last ends in an underscore. -/
def Joinable (segments : List String) : Prop :=
  Separable '_' (segments.map String.toList)

/-- Segments that can be told from others even by the canonical scope. -/
structure Recoverable (segments : List String) : Prop where
  nonempty : segments ≠ []
  joinable : Joinable segments
  colon_free : ∀ segment ∈ segments, ':' ∉ segment.toList

theorem utf8Len_eq_sum (letters : List Char) :
    String.utf8Len letters = (letters.map Char.utf8Size).sum := by
  induction letters with
  | nil => rfl
  | cons letter letters ih =>
      rw [String.utf8Len_cons, ih, List.map_cons, List.sum_cons, Nat.add_comm]

theorem not_mem_intercalate {letter : Char} {separator : String}
    (other : letter ∉ separator.toList) {segments : List String}
    (clean : ∀ segment ∈ segments, letter ∉ segment.toList) :
    letter ∉ (separator.intercalate segments).toList := by
  induction segments with
  | nil => simp
  | cons segment segments ih =>
      obtain ⟨cleanHere, cleanLater⟩ := List.forall_mem_cons.mp clean
      cases segments with
      | nil => simpa using cleanHere
      | cons next segments =>
          rw [String.intercalate_cons_cons, String.toList_append,
            String.toList_append, List.mem_append, List.mem_append, not_or,
            not_or]
          exact ⟨⟨cleanHere, other⟩, ih cleanLater⟩

theorem Recoverable.colon_not_mem {segments : List String}
    (recoverable : Recoverable segments) :
    ':' ∉ ("__".intercalate segments).toList :=
  not_mem_intercalate (by decide) recoverable.colon_free

namespace ScopedName

variable (type : ScopedName)

/-- The segments of a scope: the parts it is cut into at `__`. -/
def segments : List String :=
  (cutAtPairs '_' type.scope.toList).map String.ofList

theorem toList_canonicalScope :
    type.canonicalScope.toList = replacePairs '_' ':' type.scope.toList := by
  rw [canonicalScope, String.toList_ofList, joinScopes_eq_replacePairs]

theorem noPair_canonicalScope :
    ¬ "__".toList <:+: type.canonicalScope.toList := by
  rw [toList_canonicalScope]
  exact noPair_replacePairs (by decide) type.scope.toList

theorem length_canonicalScope :
    type.canonicalScope.length = type.scope.length := by
  rw [← String.length_toList, toList_canonicalScope, length_replacePairs,
    String.length_toList]

/-- A pair of underscores takes as many bytes as a pair of colons. -/
theorem utf8ByteSize_canonicalScope :
    type.canonicalScope.utf8ByteSize = type.scope.utf8ByteSize := by
  have same : ':'.utf8Size = '_'.utf8Size := rfl
  calc type.canonicalScope.utf8ByteSize
      = String.utf8Len (replacePairs '_' ':' type.scope.toList) := by
        rw [← String.utf8ByteSize_ofList, ← toList_canonicalScope,
          String.ofList_toList]
    _ = String.utf8Len type.scope.toList := by
        rw [utf8Len_eq_sum, map_replacePairs same, utf8Len_eq_sum]
    _ = type.scope.utf8ByteSize := by
        rw [← String.utf8ByteSize_ofList, String.ofList_toList]

theorem map_toList_segments :
    type.segments.map String.toList = cutAtPairs '_' type.scope.toList := by
  simp [segments]

theorem joinable_segments : Joinable type.segments := by
  rw [Joinable, map_toList_segments]
  exact separable_cutAtPairs type.scope.toList

theorem intercalate_segments :
    "__".intercalate type.segments = type.scope := by
  rw [← String.toList_inj, String.toList_intercalate, map_toList_segments]
  exact intercalate_cutAtPairs type.scope.toList

/-- Replacing loses nothing of a scope without a colon: every colon that is
found later stands for an underscore. -/
theorem canonicalScope_inj (type' : ScopedName)
    (clean : ':' ∉ type.scope.toList) (clean' : ':' ∉ type'.scope.toList) :
    type.canonicalScope = type'.canonicalScope ↔ type.scope = type'.scope := by
  refine ⟨fun same => ?_, fun same => by
    rw [canonicalScope, canonicalScope, same]⟩
  rw [← String.toList_inj, toList_canonicalScope, toList_canonicalScope] at same
  rw [← String.toList_inj, ← map_update_replacePairs clean, same,
    map_update_replacePairs clean']

section Joined

variable {segments : List String} (joinable : Joinable segments)
  (name : String)
include joinable

theorem canonicalScope_intercalate :
    (ScopedName.mk ("__".intercalate segments) name).canonicalScope =
      "::".intercalate segments := by
  rw [← String.toList_inj, toList_canonicalScope, String.toList_intercalate,
    String.toList_intercalate]
  exact replacePairs_intercalate joinable

theorem canonicalScope_intercalate_colons :
    (ScopedName.mk ("::".intercalate segments) name).canonicalScope =
      "::".intercalate segments := by
  have canonical := canonicalScope_intercalate joinable name
  have kept := canonicalScope_canonical
    (ScopedName.mk ("__".intercalate segments) name)
  rwa [ScopedName.canonical, canonical] at kept

theorem segments_intercalate (nonempty : segments ≠ []) :
    (ScopedName.mk ("__".intercalate segments) name).segments = segments := by
  have found := cutAtPairs_intercalate joinable (by simpa using nonempty)
  refine (List.map_inj_right fun _ _ => String.toList_inj.mp).mp ?_
  rw [map_toList_segments, String.toList_intercalate]
  exact found

end Joined

theorem canonicalScope_ne_of_recoverable {segments segments' : List String}
    (recoverable : Recoverable segments)
    (recoverable' : Recoverable segments') (name name' : String)
    (differ : segments ≠ segments') :
    (ScopedName.mk ("__".intercalate segments) name).canonicalScope ≠
      (ScopedName.mk ("__".intercalate segments') name').canonicalScope := by
  intro sameCanonical
  have sameScope : "__".intercalate segments = "__".intercalate segments' :=
    (canonicalScope_inj ⟨_, name⟩ ⟨_, name'⟩ recoverable.colon_not_mem
      recoverable'.colon_not_mem).mp sameCanonical
  have found := segments_intercalate recoverable.joinable name
    recoverable.nonempty
  rw [sameScope, segments_intercalate recoverable'.joinable name
    recoverable'.nonempty] at found
  exact differ found.symm

end ScopedName

/-- The canonical scope of a type holds no `__`, is as long as its scope and is
its own canonical scope, and a type that has it as its scope has the same
mangled and the same qualified name.  The segments of a scope are joinable, and
`__` joins them to the scope.

Joinable segments have a canonical scope that is the same whether `__` or `::`
joins them, namely the one with `::`.  Different recoverable segments have
different canonical scopes. -/
theorem canonical_scopes_spell_segments :
    (∀ type : ScopedName,
      ¬ "__".toList <:+: type.canonicalScope.toList ∧
        type.canonicalScope.length = type.scope.length ∧
        type.canonicalScope.utf8ByteSize = type.scope.utf8ByteSize ∧
        type.canonical.canonicalScope = type.canonicalScope ∧
        type.canonical.mangled = type.mangled ∧
        type.canonical.qualified = type.qualified ∧
        Joinable type.segments ∧
        "__".intercalate type.segments = type.scope) ∧
    (∀ (segments : List String) (name : String), Joinable segments →
      (ScopedName.mk ("__".intercalate segments) name).canonicalScope =
          "::".intercalate segments ∧
        (ScopedName.mk ("::".intercalate segments) name).canonicalScope =
          "::".intercalate segments) ∧
    ∀ (segments segments' : List String) (name name' : String),
      Recoverable segments → Recoverable segments' → segments ≠ segments' →
        (ScopedName.mk ("__".intercalate segments) name).canonicalScope ≠
          (ScopedName.mk
            ("__".intercalate segments') name').canonicalScope := by
  refine ⟨fun type => ?_, fun segments name joinable => ?_,
    fun segments segments' name name' recoverable recoverable' differ => ?_⟩
  · exact ⟨type.noPair_canonicalScope, type.length_canonicalScope,
      type.utf8ByteSize_canonicalScope, type.canonicalScope_canonical,
      type.mangled_canonical, type.qualified_canonical,
      type.joinable_segments, type.intercalate_segments⟩
  · exact ⟨ScopedName.canonicalScope_intercalate joinable name,
      ScopedName.canonicalScope_intercalate_colons joinable name⟩
  · exact ScopedName.canonicalScope_ne_of_recoverable recoverable recoverable'
      name name' differ

/-- A segment that ends in an underscore moves the joint after it. -/
example : (ScopedName.mk ("__".intercalate ["a_", "b"]) "T").canonicalScope =
    "::".intercalate ["a", "_b"] := by decide

/-- A colon in a segment can make up for a joint. -/
example : (ScopedName.mk ("__".intercalate ["a::b"]) "T").canonicalScope =
    (ScopedName.mk ("__".intercalate ["a", "b"]) "T").canonicalScope := by
  decide

section Example

/-- Segments with an empty one in front, one that begins with an underscore and
one that is an underscore. -/
def unevenSegments : List String :=
  ["", "_a", "b_c", "_"]

theorem unevenSegments_recoverable : Recoverable unevenSegments :=
  ⟨by decide, ⟨by decide, by decide⟩, by decide⟩

theorem unevenSegments_canonicalScope :
    Recoverable unevenSegments ∧ Recoverable ["", "_a", "b_c", "", ""] ∧
      unevenSegments ≠ ["", "_a", "b_c", "", ""] ∧
        (ScopedName.mk "___a__b_c___" "T").canonicalScope = "::_a::b_c::_" ∧
        (ScopedName.mk "::_a::b_c::_" "T").canonicalScope = "::_a::b_c::_" ∧
        (ScopedName.mk "___a__b_c___" "T").canonicalScope ≠
          (ScopedName.mk "___a__b_c____" "T").canonicalScope := by
  have other : Recoverable ["", "_a", "b_c", "", ""] :=
    ⟨by decide, ⟨by decide, by decide⟩, by decide⟩
  have differ : unevenSegments ≠ ["", "_a", "b_c", "", ""] := by decide
  obtain ⟨rewritten, kept⟩ := canonical_scopes_spell_segments.2.1
    unevenSegments "T" unevenSegments_recoverable.joinable
  have apart := canonical_scopes_spell_segments.2.2 unevenSegments _ "T" "T"
    unevenSegments_recoverable other differ
  exact ⟨unevenSegments_recoverable, other, differ, rewritten, kept, apart⟩

end Example

end Metastring
