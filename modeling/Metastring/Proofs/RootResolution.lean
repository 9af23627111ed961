import Mathlib
import Metastring.Introspection

/-!
# What a compilation of raw metadata sets off from

A compilation starts from a handle or from a message of a known flavor.  A
handle is first resolved: to its own message if it carries an introspection
identifier, or else to the message of what its lookup returns, for C first.
This file separates the resolution from the walk that follows it, so the walk
can be studied from a message and a flavor.
-/

namespace Metastring

theorem Flavor.ofIdentifier?_identifier (flavor : Flavor) :
    ofIdentifier? flavor.identifier = some flavor := by
  cases flavor <;> decide

theorem Flavor.decode_identifier (flavor : Flavor) :
    RawText.decode (some (Utf8.encode flavor.identifier)) =
      .ok flavor.identifier := by
  cases flavor <;> cbv

theorem Flavor.eq_identifier_of_ofIdentifier? {identifier : String}
    {flavor : Flavor} (found : ofIdentifier? identifier = some flavor) :
    identifier = flavor.identifier := by
  unfold ofIdentifier? at found
  split at found
  case isTrue isC => exact Option.some.inj found ▸ isC
  case isFalse =>
    split at found
    case isTrue isCpp => exact Option.some.inj found ▸ isCpp
    case isFalse => contradiction

theorem Flavor.ofIdentifier?_eq_none_iff {identifier : String} :
    ofIdentifier? identifier = none ↔
      ∀ flavor : Flavor, identifier ≠ flavor.identifier := by
  constructor
  · rintro unknown flavor rfl
    rw [ofIdentifier?_identifier] at unknown
    contradiction
  · intro differs
    unfold ofIdentifier?
    rw [if_neg (differs .c), if_neg (differs .cpp)]

namespace Introspection

variable {handles messages : Nat}

/-- What a compilation starts from. -/
inductive Root (handles messages : Nat) where
  /-- A handle, whose flavor is found out. -/
  | handle (reference : Option (Fin handles))
  /-- A message that is known to be of a flavor. -/
  | message (reference : Option (Fin messages)) (flavor : Flavor)

/-- The message and the flavor that a handle of another kind leads to. -/
def resolveLookup (metadata : Introspection handles messages)
    (handle : Fin handles) (identifier : String) :
    Except CompileError (Option (Fin messages) × Flavor) :=
  match (metadata.handle handle).lookup .c with
  | some found => .ok ((metadata.handle found).data, .c)
  | none =>
    match (metadata.handle handle).lookup .cpp with
    | some found => .ok ((metadata.handle found).data, .cpp)
    | none => .error (.unknownFlavor identifier)

/-- The message and the flavor that a root leads to. -/
def resolve (metadata : Introspection handles messages) :
    Root handles messages →
      Except CompileError (Option (Fin messages) × Flavor)
  | .message message flavor => .ok (message, flavor)
  | .handle none => .error .nullHandle
  | .handle (some handle) =>
    match (metadata.handle handle).identifier.decode with
    | .error error => .error error
    | .ok identifier =>
      match Flavor.ofIdentifier? identifier with
      | some flavor => .ok ((metadata.handle handle).data, flavor)
      | none => metadata.resolveLookup handle identifier

/-- Compile what a root leads to. -/
def tryCompile (metadata : Introspection handles messages)
    (options : Options) : Root handles messages → Report
  | .handle handle => metadata.tryCompileHandle options handle
  | .message message flavor =>
    metadata.tryCompileMessage options message flavor.identifier

def Carries (metadata : Introspection handles messages) (flavor : Flavor)
    (handle : Fin handles) : Prop :=
  (metadata.handle handle).identifier.decode = .ok flavor.identifier

theorem resolve_of_own {metadata : Introspection handles messages}
    {handle : Fin handles} {flavor : Flavor}
    (own : (metadata.handle handle).identifier.decode =
      .ok flavor.identifier) :
    metadata.resolve (.handle (some handle)) =
      .ok ((metadata.handle handle).data, flavor) := by
  simp only [resolve, own, Flavor.ofIdentifier?_identifier]

theorem resolve_of_unknown {metadata : Introspection handles messages}
    {handle : Fin handles} {identifier : String}
    (decoded : (metadata.handle handle).identifier.decode = .ok identifier)
    (unknown : Flavor.ofIdentifier? identifier = none) :
    metadata.resolve (.handle (some handle)) =
      metadata.resolveLookup handle identifier := by
  simp only [resolve, decoded, unknown]

def metastringOf (metadata : Introspection handles messages)
    (options : Options) (flavor : Flavor) (message : Option (Fin messages)) :
    Except CompileError String := do
  metastring options (metadata.describe flavor) metadata.names.length
    (← metadata.layoutOf message)

theorem tryCompileMessage_outcome (metadata : Introspection handles messages)
    (options : Options) (message : Option (Fin messages)) (flavor : Flavor) :
    (metadata.tryCompileMessage options message flavor.identifier).outcome =
      metadata.metastringOf options flavor message := by
  unfold tryCompileMessage metastringOf
  rw [Flavor.ofIdentifier?_identifier]
  cases metadata.layoutOf message with
  | error error => rfl
  | ok layout => exact Report.ofLayout_outcome _ _ _ _

theorem flavored_of_own {metadata : Introspection handles messages}
    {handle : Fin handles} {flavor : Flavor}
    (own : (metadata.handle handle).identifier.decode =
      .ok flavor.identifier) :
    metadata.flavored flavor handle = .ok handle := by
  rw [flavored, own]
  exact if_pos rfl

theorem flavored_of_other (metadata : Introspection handles messages)
    {handle : Fin handles} {identifier : String}
    (decoded : (metadata.handle handle).identifier.decode = .ok identifier)
    {flavor : Flavor} (other : identifier ≠ flavor.identifier) :
    metadata.flavored flavor handle =
      match (metadata.handle handle).lookup flavor with
      | none => .error (.unknownFlavor identifier)
      | some resolved => .ok resolved := by
  unfold flavored
  rw [decoded]
  simp only [bind, Except.bind, if_neg other]
  rfl

theorem tryCompile_outcome (metadata : Introspection handles messages)
    (options : Options) (root : Root handles messages) :
    (metadata.tryCompile options root).outcome =
      metadata.resolve root >>= fun (message, flavor) =>
        metadata.metastringOf options flavor message := by
  match root with
  | .message message flavor =>
    exact metadata.tryCompileMessage_outcome options message flavor
  | .handle none => rfl
  | .handle (some handle) =>
    cases decoded : (metadata.handle handle).identifier.decode with
    | error error =>
      simp only [tryCompile, tryCompileHandle, resolve, decoded]
      rfl
    | ok identifier =>
      cases known : Flavor.ofIdentifier? identifier with
      | some flavor =>
        obtain rfl := Flavor.eq_identifier_of_ofIdentifier? known
        simp only [tryCompile, tryCompileHandle, resolve, decoded, known]
        exact metadata.tryCompileMessage_outcome options _ flavor
      | none =>
        have differs := Flavor.ofIdentifier?_eq_none_iff.mp known
        simp only [tryCompile, tryCompileHandle, tryCompileResolved, resolve,
          resolveLookup, decoded, known,
          metadata.flavored_of_other decoded (differs _)]
        cases (metadata.handle handle).lookup .c with
        | some found =>
          rw [Report.after_outcome]
          exact metadata.tryCompileMessage_outcome options _ .c
        | none =>
          cases (metadata.handle handle).lookup .cpp with
          | some found =>
            rw [Report.after_outcome]
            exact metadata.tryCompileMessage_outcome options _ .cpp
          | none => exact Report.failure_outcome _

end Introspection

end Metastring
