import Metastring.Proofs.MessageGraph
import Metastring.Proofs.ScopeDecoding
import Metastring.Proofs.WalkSimulation

/-!
# The two flavors describe the same messages

Metadata written for C can be written for C++ with the same content: handles
carry the other identifier, lookups answer for the other flavor, and the
segments of scopes are joined by `::`.  Whatever the metadata holds, cycles,
nulls and texts that are not UTF-8 included, both forms compile to the same
metastring or fail for the same reason.

The two forms are walked side by side.  Their messages have layouts that differ
only in the spelling of the scope, which neither the mangled nor the qualified
name shows, and handles are resolved alike under the respective flavor.
-/

namespace Metastring

namespace ScopedName

/-- The same name with its scope in the `::` spelling. -/
def canonical (type : ScopedName) : ScopedName :=
  ⟨type.canonicalScope, type.name⟩

theorem canonicalScope_eq_empty_iff (type : ScopedName) :
    type.canonicalScope = "" ↔ type.scope = "" := by
  have same : joinScopes type.scope.toList = [] ↔ type.scope.toList = [] := by
    fun_cases joinScopes type.scope.toList <;> simp_all
  rw [canonicalScope, ← String.toList_eq_nil_iff, String.toList_ofList, same,
    String.toList_eq_nil_iff]

@[simp]
theorem canonicalScope_canonical (type : ScopedName) :
    type.canonical.canonicalScope = type.canonicalScope := by
  simp only [canonicalScope, canonical, String.toList_ofList,
    joinScopes_eq_replacePairs]
  rw [replacePairs_replacePairs (by decide)]

@[simp]
theorem qualified_canonical (type : ScopedName) :
    type.canonical.qualified = type.qualified := by
  unfold qualified
  rw [canonicalScope_canonical]
  simp only [canonical, canonicalScope_eq_empty_iff]

@[simp]
theorem mangled_canonical (type : ScopedName) :
    type.canonical.mangled = type.mangled := by
  unfold mangled
  rw [canonicalScope_canonical]
  simp only [canonical, canonicalScope_eq_empty_iff]

end ScopedName

/-- The same layout with the scope of its name in the `::` spelling. -/
def Layout.canonical {κ ρ : Type} (layout : Layout κ ρ) : Layout κ ρ :=
  { layout with type := layout.type.canonical }

/-- The spelling of the scope is nothing that a walk reads. -/
theorem Layout.alike_canonical {ρ : Type} (layout : Layout Kind ρ) :
    layout.Alike Eq layout.canonical where
  mangled_eq := (ScopedName.mangled_canonical layout.type).symm
  qualified_eq := (ScopedName.qualified_canonical layout.type).symm
  members_rel := by
    refine List.forall₂_same.mpr fun member _ => ⟨rfl, rfl, rfl, fun _ => ?_⟩
    cases member.nested with
    | none => exact .none
    | some reference => exact .some rfl

/-- The handle with the same content for C++. -/
def Handle.inCpp {η μ : Type} (handle : Handle η μ) : Handle η μ where
  identifier :=
    if handle.identifier.decode.toOption = some Flavor.c.identifier then
      some (Utf8.encode Flavor.cpp.identifier)
    else handle.identifier
  data := handle.data
  lookup
    | .c => none
    | .cpp => handle.lookup .c

namespace Introspection

variable {handles messages : Nat}

/-- The metadata with the same content for C++, given the segments of each
scope that is not null. -/
def inCpp (metadata : Introspection handles messages)
    (segments : Fin messages → Option (List (List UInt8))) :
    Introspection handles messages where
  handle reference := (metadata.handle reference).inCpp
  message reference :=
    { metadata.message reference with
      scope := (segments reference).map [0x3A, 0x3A].intercalate }

/-- The metadata is written for C: no handle carries the C++ identifier, no
lookup answers for C++, and scopes are segments joined by `__` whose joints can
be found again. -/
structure WrittenInC (metadata : Introspection handles messages)
    (segments : Fin messages → Option (List (List UInt8))) : Prop where
  identifiers : ∀ handle, (metadata.handle handle).identifier.decode ≠
    .ok Flavor.cpp.identifier
  lookups : ∀ handle, (metadata.handle handle).lookup .cpp = none
  scopes : ∀ message, (metadata.message message).scope =
    (segments message).map [0x5F, 0x5F].intercalate
  separable : ∀ message parts, segments message = some parts →
    Separable 0x5F parts

section Equivalence

variable {metadata : Introspection handles messages}
  {segments : Fin messages → Option (List (List UInt8))}

theorem identifier_inCpp_of_c {handle : Fin handles}
    (isC : (metadata.handle handle).identifier.decode =
      .ok Flavor.c.identifier) :
    ((metadata.inCpp segments).handle handle).identifier.decode =
      .ok Flavor.cpp.identifier := by
  simp only [inCpp, Handle.inCpp, isC, Except.toOption, if_true]
  cbv

theorem identifier_inCpp_of_ne {handle : Fin handles}
    (other : (metadata.handle handle).identifier.decode ≠
      .ok Flavor.c.identifier) :
    ((metadata.inCpp segments).handle handle).identifier =
      (metadata.handle handle).identifier := by
  simp only [inCpp, Handle.inCpp]
  rw [if_neg]
  intro isC
  cases decoded : (metadata.handle handle).identifier.decode with
  | error fault => simp [decoded, Except.toOption] at isC
  | ok identifier =>
      simp only [decoded, Except.toOption, Option.some.injEq] at isC
      exact other (isC ▸ decoded)

variable (written : metadata.WrittenInC segments)
include written

theorem scope_inCpp (message : Fin messages) :
    ((metadata.inCpp segments).message message).scope.decode =
      (metadata.message message).scope.decode.map
        fun scope => String.ofList (joinScopes scope.toList) := by
  rw [written.scopes message]
  simp only [inCpp]
  cases found : segments message with
  | none => rfl
  | some parts =>
      have rewritten : rewriteScope ([0x5F, 0x5F].intercalate parts) =
          [0x3A, 0x3A].intercalate parts :=
        replacePairs_intercalate (written.separable message parts found)
      rw [Option.map_some, Option.map_some, ← rewritten]
      exact RawText.decode_rewriteScope _

theorem layout_inCpp (message : Fin messages) :
    ((metadata.inCpp segments).message message).layout =
      (metadata.message message).layout.map Layout.canonical := by
  have sameName : ((metadata.inCpp segments).message message).name =
      (metadata.message message).name := rfl
  have sameMembers (name : String) :
      ((metadata.inCpp segments).message message).members name =
        (metadata.message message).members name := rfl
  unfold RawMessage.layout
  simp only [scope_inCpp written message, sameName, sameMembers]
  cases (metadata.message message).scope.decode with
  | error fault => rfl
  | ok scope =>
      cases (metadata.message message).name.decode with
      | error fault => rfl
      | ok name =>
          simp only [bind, Except.bind, Except.map]
          cases (metadata.message message).members name with
          | error fault => rfl
          | ok members => rfl

theorem layoutOf_inCpp (message : Option (Fin messages)) :
    (metadata.inCpp segments).layoutOf message =
      (metadata.layoutOf message).map Layout.canonical := by
  cases message with
  | none => rfl
  | some message => exact layout_inCpp written message

theorem flavored_inCpp (handle : Fin handles) :
    (metadata.inCpp segments).flavored .cpp handle =
      metadata.flavored .c handle := by
  have sameLookup : ((metadata.inCpp segments).handle handle).lookup .cpp =
      (metadata.handle handle).lookup .c := rfl
  by_cases isC : (metadata.handle handle).identifier.decode =
      .ok Flavor.c.identifier
  · unfold flavored
    rw [identifier_inCpp_of_c isC, isC]
    rfl
  unfold flavored
  rw [identifier_inCpp_of_ne isC, sameLookup]
  cases decoded : (metadata.handle handle).identifier.decode with
  | error fault => rfl
  | ok identifier =>
      have notC : identifier ≠ Flavor.c.identifier :=
        fun same => isC (same ▸ decoded)
      have notCpp : identifier ≠ Flavor.cpp.identifier :=
        fun same => written.identifiers handle (same ▸ decoded)
      simp only [bind, Except.bind, if_neg notC, if_neg notCpp]

theorem describe_inCpp (handle : Fin handles) :
    (metadata.inCpp segments).describe .cpp handle =
      (metadata.describe .c handle).map Layout.canonical := by
  unfold describe
  rw [flavored_inCpp written handle]
  cases metadata.flavored .c handle with
  | error fault => rfl
  | ok resolved => exact layoutOf_inCpp written _

theorem names_inCpp : (metadata.inCpp segments).names = metadata.names := by
  unfold names
  congr 2
  funext message
  rw [layout_inCpp written message]
  cases (metadata.message message).layout with
  | error fault => rfl
  | ok layout =>
      exact congrArg some (ScopedName.qualified_canonical layout.type)

/-- The two forms of a message have the same metastring, or none for the same
reason. -/
theorem metastringOf_inCpp (options : Options)
    (message : Option (Fin messages)) :
    (metadata.inCpp segments).metastringOf options .cpp message =
      metadata.metastringOf options .c message := by
  have describedAlike : ∀ handle handle', handle = handle' →
      DescribedAlike Eq (metadata.describe .c handle)
        ((metadata.inCpp segments).describe .cpp handle') := by
    rintro handle _ rfl
    rw [describe_inCpp written handle]
    cases metadata.describe .c handle with
    | error fault => exact .error fault
    | ok layout => exact .ok layout.alike_canonical
  unfold metastringOf
  rw [layoutOf_inCpp written message, names_inCpp written]
  cases metadata.layoutOf message with
  | error fault => rfl
  | ok layout =>
      exact congrArg (Except.map (formatVersion ++ ·))
        (walk_eq_of_alike options describedAlike _ [] none
          layout.alike_canonical).symm

/-- A handle fails to be resolved for the same reason, or it leads to the same
message under the respective flavor. -/
theorem resolve_inCpp (handle : Option (Fin handles)) :
    (∃ fault, metadata.resolve (.handle handle) = .error fault ∧
        (metadata.inCpp segments).resolve (.handle handle) = .error fault) ∨
      ∃ message, metadata.resolve (.handle handle) = .ok (message, .c) ∧
        (metadata.inCpp segments).resolve (.handle handle) =
          .ok (message, .cpp) := by
  match handle with
  | none => exact .inl ⟨.nullHandle, rfl, rfl⟩
  | some handle =>
    by_cases isC : (metadata.handle handle).identifier.decode =
        .ok Flavor.c.identifier
    · right
      have isCpp : ((metadata.inCpp segments).handle handle).identifier.decode =
          .ok Flavor.cpp.identifier := identifier_inCpp_of_c isC
      refine ⟨(metadata.handle handle).data, ?_, ?_⟩
      · simp only [resolve, isC, Flavor.ofIdentifier?_identifier]
      · simp only [resolve, isCpp, Flavor.ofIdentifier?_identifier]
        rfl
    simp only [resolve, identifier_inCpp_of_ne isC]
    cases decoded : (metadata.handle handle).identifier.decode with
    | error fault => exact .inl ⟨fault, rfl, rfl⟩
    | ok identifier =>
        have unknown : Flavor.ofIdentifier? identifier = none := by
          rw [Flavor.ofIdentifier?_eq_none_iff]
          rintro (_ | _) rfl
          · exact isC decoded
          · exact written.identifiers handle decoded
        have lookupC : ((metadata.inCpp segments).handle handle).lookup .c =
            none := rfl
        have lookupCpp :
            ((metadata.inCpp segments).handle handle).lookup .cpp =
              (metadata.handle handle).lookup .c := rfl
        simp only [unknown, resolveLookup, lookupC, lookupCpp,
          written.lookups handle]
        cases (metadata.handle handle).lookup .c with
        | none => exact .inl ⟨_, rfl, rfl⟩
        | some found => exact .inr ⟨_, rfl, rfl⟩

end Equivalence

/-- Metadata written for C and the metadata with the same content for C++
compile alike: every handle, whether it carries an introspection identifier or
has to be resolved, and every message under the identifier of the respective
flavor has the same metastring in both, or fails for the same reason. -/
theorem compile_inCpp (metadata : Introspection handles messages)
    (segments : Fin messages → Option (List (List UInt8)))
    (written : metadata.WrittenInC segments) (options : Options) :
    (∀ handle : Option (Fin handles),
      (metadata.tryCompileHandle options handle).outcome =
        ((metadata.inCpp segments).tryCompileHandle options handle).outcome) ∧
      ∀ message : Option (Fin messages),
        (metadata.tryCompileMessage options message
            Flavor.c.identifier).outcome =
          ((metadata.inCpp segments).tryCompileMessage options message
            Flavor.cpp.identifier).outcome := by
  constructor
  · intro handle
    have outcome := metadata.tryCompile_outcome options (.handle handle)
    have outcome' :=
      (metadata.inCpp segments).tryCompile_outcome options (.handle handle)
    refine outcome.trans (Eq.trans ?_ outcome'.symm)
    rcases resolve_inCpp written handle with ⟨fault, failed, failed'⟩ |
      ⟨message, resolved, resolved'⟩
    · rw [failed, failed']
      rfl
    · rw [resolved, resolved']
      exact (metastringOf_inCpp written options message).symm
  · intro message
    rw [tryCompileMessage_outcome, tryCompileMessage_outcome,
      metastringOf_inCpp written]

/-- The scope `a___b` is made of the segments `a` and `_b`. -/
def sharingSegments : Fin 2 → Option (List (List UInt8)) :=
  ![some [[0x61], [0x5F, 0x62]], none]

theorem sharing_writtenInC : sharing.WrittenInC sharingSegments where
  identifiers handle isCpp := by
    fin_cases handle
    · exact absurd (Except.ok.inj isCpp) (by decide)
    · have same :=
        Except.ok.inj ((Flavor.decode_identifier .c).symm.trans isCpp)
      exact absurd same (by decide)
    · exact absurd (Except.ok.inj isCpp) (by decide)
  lookups handle := by
    fin_cases handle <;> rfl
  scopes message := by
    fin_cases message <;> rfl
  separable message parts found := by
    fin_cases message
    · obtain rfl := Option.some.inj found
      exact ⟨by decide, by decide⟩
    · contradiction

/-- Written for C or for C++, a message that nests another one twice has the
same metastring. -/
theorem compile_inCpp_sharing :
    sharing.WrittenInC sharingSegments ∧
      ∃ text,
        (sharing.tryCompileHandle {} (some 0)).outcome = .ok text ∧
          ((sharing.inCpp sharingSegments).tryCompileHandle {}
            (some 0)).outcome = .ok text := by
  have compiled : (sharing.tryCompileHandle {} (some 0)).outcome =
      .ok ("v1\x7b(type=a::_b::dds_::A_,member=2)" ++
        "\x7b(name=x_,type=dds_::B_,member=1)f(name=z_)" ++
        "\x7b(name=y_,type=dds_::B_,member=1)f(name=z_)") := by
    set_option maxRecDepth 4000 in
    cbv
  have same := (compile_inCpp sharing sharingSegments sharing_writtenInC {}).1
    (some 0)
  exact ⟨sharing_writtenInC, _, compiled, same.symm.trans compiled⟩

end Introspection

end Metastring
