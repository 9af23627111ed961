import Metastring.Proofs.MessageGraph

/-!
# The two forms of a compilation and what they log

Every entry point has a form that tells the cause of a failure and a plain form
whose failures are the empty string.  A metastring is never empty, so the plain
form loses the cause and nothing else; and the cause is logged instead.

Both forms log the metastring with the qualified name of the root when there is
one.  A handle that is resolved through its lookup is logged before anything
else.  These are all the lines there are, and each of them is written once,
although the entry points are built on one another.
-/

namespace Metastring

section Lines

/-- A line of a log. -/
abbrev LogLine := Level × String

def LogEvent.line (event : LogEvent) : LogLine :=
  (event.level, event.text)

/-- The line for a message type with the given qualified name. -/
def compiledLine (qualified metastring : String) : LogLine :=
  (.trace, "metastring for " ++ qualified ++ ": " ++ metastring)

def resolvedLine (identifier : String) (flavor : Flavor) : LogLine :=
  (.trace, "resolved '" ++ identifier ++ "' handle to " ++ flavor.identifier)

/-- The line for a failure that a plain form gives up. -/
def discardedLine (context : String) (error : CompileError) : LogLine :=
  (.debug,
    "metastring compilation failed (" ++ context ++ "): " ++ error.message)

end Lines

/-- What a report logs behind the given lines: a success logs its text, which is
not empty, under the name of a root, and a failure logs nothing. -/
structure Report.Logs (report : Report) (before : List LogLine)
    (isRoot : String → Prop) : Prop where
  success : ∀ text, report.outcome = .ok text → text ≠ "" ∧
    ∃ qualified, isRoot qualified ∧
      report.events.map LogEvent.line = before ++ [compiledLine qualified text]
  failure : ∀ error, report.outcome = .error error →
    report.events.map LogEvent.line = before

/-- A report and its plain form agree.  The text of the plain form is the whole
text of the report or empty, and it is empty only where the report fails.  Both
log the same lines, but for the line that the plain form has for a failure. -/
structure TwoForms (context : String) (before : List LogLine)
    (isRoot : String → Prop) (report : Report) (plain : PlainReport) :
    Prop where
  text_of_success : ∀ text, report.outcome = .ok text → plain.text = text
  text_of_failure : ∀ error, report.outcome = .error error → plain.text = ""
  text_ne_empty : ∀ text, report.outcome = .ok text → text ≠ ""
  text_empty_iff : plain.text = "" ↔ ∃ error, report.outcome = .error error
  lines_of_success : ∀ text, report.outcome = .ok text →
    ∃ qualified, isRoot qualified ∧
      report.events.map LogEvent.line =
          before ++ [compiledLine qualified text] ∧
        plain.events.map LogEvent.line =
          before ++ [compiledLine qualified text]
  lines_of_failure : ∀ error, report.outcome = .error error →
    report.events.map LogEvent.line = before ∧
      plain.events.map LogEvent.line = before ++ [discardedLine context error]

namespace Report

variable {before : List LogLine} {isRoot : String → Prop} {report : Report}

theorem Logs.twoForms (logs : report.Logs before isRoot) (context : String) :
    TwoForms context before isRoot report (report.plain context) := by
  obtain ⟨outcome, events⟩ := report
  cases outcome with
  | ok text =>
      obtain ⟨nonempty, qualified, root, lines⟩ := logs.success text rfl
      constructor
      · rintro _ ⟨⟩
        rfl
      · rintro _ ⟨⟩
      · rintro _ ⟨⟩
        exact nonempty
      · constructor
        · intro empty
          exact absurd empty nonempty
        · rintro ⟨_, ⟨⟩⟩
      · rintro _ ⟨⟩
        exact ⟨qualified, root, lines, lines⟩
      · rintro _ ⟨⟩
  | error error =>
      have lines := logs.failure error rfl
      constructor
      · rintro _ ⟨⟩
      · rintro _ ⟨⟩
        rfl
      · rintro _ ⟨⟩
      · exact ⟨fun _ => ⟨error, rfl⟩, fun _ => rfl⟩
      · rintro _ ⟨⟩
      · rintro _ ⟨⟩
        refine ⟨lines, ?_⟩
        rw [plain, List.map_append, lines]
        rfl

theorem logs_failure (error : CompileError) :
    (failure error).Logs [] isRoot := by
  constructor
  · rintro _ ⟨⟩
  · intro _ _
    rfl

/-- An event in front of a report is in front of all that the report logs. -/
theorem Logs.after (logs : report.Logs before isRoot) (event : LogEvent) :
    (report.after event).Logs (event.line :: before) isRoot := by
  constructor
  · intro text succeeds
    obtain ⟨nonempty, qualified, root, lines⟩ := logs.success text succeeds
    exact ⟨nonempty, qualified, root, congrArg (event.line :: ·) lines⟩
  · intro error fails
    exact congrArg (event.line :: ·) (logs.failure error fails)

theorem metastring_ne_empty {ρ : Type} {options : Options}
    {describe : ρ → Except CompileError (Layout Kind ρ)} {budget : Nat}
    {layout : Layout Kind ρ} {text : String}
    (succeeds : metastring options describe budget layout = .ok text) :
    text ≠ "" := by
  -- Whatever the walk appends, the version mark stands in front of it.
  unfold metastring at succeeds
  cases walked : walk options describe budget [] none layout with
  | error fault => simp [walked, Except.map] at succeeds
  | ok body =>
      rw [walked] at succeeds
      obtain rfl := Except.ok.inj succeeds
      intro empty
      have letters := congrArg String.toList empty
      simp [formatVersion] at letters

theorem logs_ofLayout {ρ : Type} (options : Options)
    (describe : ρ → Except CompileError (Layout Kind ρ)) (budget : Nat)
    (layout : Layout Kind ρ) :
    (ofLayout options describe budget layout).Logs []
      (· = layout.type.qualified) := by
  unfold ofLayout
  cases compiled : metastring options describe budget layout with
  | error error => exact logs_failure error
  | ok text =>
      constructor
      · rintro _ ⟨⟩
        exact ⟨metastring_ne_empty compiled, layout.type.qualified, rfl, rfl⟩
      · rintro _ ⟨⟩

theorem Logs.mono {isRoot' : String → Prop} (logs : report.Logs before isRoot)
    (roots : ∀ qualified, isRoot qualified → isRoot' qualified) :
    report.Logs before isRoot' := by
  refine ⟨fun text succeeds => ?_, logs.failure⟩
  obtain ⟨nonempty, qualified, root, lines⟩ := logs.success text succeeds
  exact ⟨nonempty, qualified, roots qualified root, lines⟩

theorem logs_ofSource {ρ : Type} (options : Options)
    (describe : ρ → Except CompileError (Layout Kind ρ)) (budget : Nat)
    (source : ρ) :
    (ofSource options describe budget source).Logs [] fun qualified =>
      ∃ layout, describe source = .ok layout ∧
        layout.type.qualified = qualified := by
  unfold ofSource
  cases described : describe source with
  | error error => exact logs_failure error
  | ok layout =>
      refine (logs_ofLayout options describe budget layout).mono ?_
      rintro _ rfl
      exact ⟨layout, rfl, rfl⟩

end Report

namespace Introspection

variable {handles messages : Nat} (metadata : Introspection handles messages)

/-- The qualified name of a message that may be null. -/
def MessageNamed (message : Option (Fin messages)) (qualified : String) :
    Prop :=
  ∃ layout, metadata.layoutOf message = .ok layout ∧
    layout.type.qualified = qualified

/-- The qualified name of the message that a handle leads to. -/
def HandleNamed (handle : Option (Fin handles)) (qualified : String) : Prop :=
  ∃ message flavor, metadata.resolve (.handle handle) = .ok (message, flavor) ∧
    metadata.MessageNamed message qualified

/-- A handle that is not null and has an identifier, but not that of a flavor,
is resolved through its lookup: to C where the lookup has an answer for C, and
otherwise to C++ where it has one for C++. -/
def ResolvesThroughLookup (handle : Option (Fin handles)) (identifier : String)
    (flavor : Flavor) : Prop :=
  ∃ found, handle = some found ∧
    (metadata.handle found).identifier.decode = .ok identifier ∧
    (∀ known : Flavor, identifier ≠ known.identifier) ∧
    ((metadata.handle found).lookup flavor).isSome ∧
    (flavor = .cpp → (metadata.handle found).lookup .c = none)

variable (options : Options)

theorem tryCompileMessage_logs (message : Option (Fin messages))
    (identifier : String) :
    (metadata.tryCompileMessage options message identifier).Logs []
      (metadata.MessageNamed message) := by
  unfold tryCompileMessage
  cases Flavor.ofIdentifier? identifier with
  | none => exact Report.logs_failure _
  | some flavor =>
      cases laidOut : metadata.layoutOf message with
      | error error => exact Report.logs_failure error
      | ok layout =>
          refine (Report.logs_ofLayout options _ _ layout).mono ?_
          rintro _ rfl
          exact ⟨layout, laidOut, rfl⟩

variable {metadata} {options}

theorem resolve_of_lookup {handle : Fin handles} {identifier : String}
    {flavor : Flavor}
    (resolves :
      metadata.ResolvesThroughLookup (some handle) identifier flavor) :
    ∃ found, (metadata.handle handle).lookup flavor = some found ∧
      metadata.resolve (.handle (some handle)) =
        .ok ((metadata.handle found).data, flavor) := by
  obtain ⟨_, ⟨⟩, decoded, other, answered, first⟩ := resolves
  obtain ⟨found, isFound⟩ := Option.isSome_iff_exists.mp answered
  refine ⟨found, isFound, ?_⟩
  rw [resolve_of_unknown decoded (Flavor.ofIdentifier?_eq_none_iff.mpr other)]
  cases flavor with
  | c => simp only [resolveLookup, isFound]
  | cpp => simp only [resolveLookup, first rfl, isFound]

/-- A handle that is resolved through its lookup is logged first. -/
theorem tryCompileHandle_logs_resolved {handle : Option (Fin handles)}
    {identifier : String} {flavor : Flavor}
    (resolves : metadata.ResolvesThroughLookup handle identifier flavor) :
    (metadata.tryCompileHandle options handle).Logs
      [resolvedLine identifier flavor] (metadata.HandleNamed handle) := by
  obtain ⟨handle, rfl, decoded, other, answered, first⟩ := id resolves
  obtain ⟨found, isFound, resolved⟩ := resolve_of_lookup resolves
  have report : metadata.tryCompileHandle options (some handle) =
      (metadata.tryCompileMessage options (metadata.handle found).data
        flavor.identifier).after (.resolved identifier flavor) := by
    simp only [tryCompileHandle, decoded,
      Flavor.ofIdentifier?_eq_none_iff.mpr other, tryCompileResolved,
      metadata.flavored_of_other decoded (other _)]
    cases flavor with
    | c => simp only [isFound]
    | cpp => simp only [first rfl, isFound]
  rw [report]
  refine ((metadata.tryCompileMessage_logs options _ _).mono ?_).after _
  intro qualified named
  exact ⟨_, flavor, resolved, named⟩

/-- A handle that is not resolved through its lookup leaves no line of it. -/
theorem tryCompileHandle_logs_unresolved {handle : Option (Fin handles)}
    (unresolved : ∀ identifier flavor,
      ¬ metadata.ResolvesThroughLookup handle identifier flavor) :
    (metadata.tryCompileHandle options handle).Logs []
      (metadata.HandleNamed handle) := by
  cases handle with
  | none => exact Report.logs_failure _
  | some handle =>
      simp only [tryCompileHandle]
      cases decoded : (metadata.handle handle).identifier.decode with
      | error error => exact Report.logs_failure error
      | ok identifier =>
          cases known : Flavor.ofIdentifier? identifier with
          | some flavor =>
              obtain rfl := Flavor.eq_identifier_of_ofIdentifier? known
              simp only [known]
              refine (metadata.tryCompileMessage_logs options _ _).mono ?_
              intro qualified named
              exact ⟨_, flavor, resolve_of_own decoded, named⟩
          | none =>
              have other := Flavor.ofIdentifier?_eq_none_iff.mp known
              have unanswered (flavor : Flavor)
                  (first : flavor = .cpp →
                    (metadata.handle handle).lookup .c = none) :
                  (metadata.handle handle).lookup flavor = none := by
                by_contra answered
                exact unresolved identifier flavor ⟨handle, rfl, decoded, other,
                  Option.isSome_iff_ne_none.mpr answered, first⟩
              have noC := unanswered .c (by simp)
              have noCpp := unanswered .cpp fun _ => noC
              simp only [known, tryCompileResolved,
                metadata.flavored_of_other decoded (other _), noC, noCpp]
              exact Report.logs_failure _

end Introspection

/-- At every entry point, and for whatever source describes itself, the plain
form gives the string of the other form, or the empty string exactly where the
other form fails.  A success logs its string once, under the qualified name of
the root.  A failure is logged by the plain form alone, once and last, with its
cause and the context of the entry point.  A handle that is resolved through its
lookup is logged once, before all else, and no other handle is. -/
theorem entry_points_have_two_forms (options : Options) :
    (∀ {ρ : Type} (describe : ρ → Except CompileError (Layout Kind ρ))
      (budget : Nat) (source : ρ),
      TwoForms "descriptor" []
        (fun qualified => ∃ layout, describe source = .ok layout ∧
          layout.type.qualified = qualified)
        (Report.ofSource options describe budget source)
        ((Report.ofSource options describe budget source).plain
          "descriptor")) ∧
    (∀ descriptor : Descriptor,
      TwoForms "descriptor" [] (· = descriptor.layout.type.qualified)
        (descriptor.tryCompile options) (descriptor.compile options)) ∧
    (∀ spec : MessageSpec,
      TwoForms "descriptor" [] (· = spec.type.qualified)
        (spec.tryCompile options) (spec.compile options)) ∧
    ∀ (handles messages : Nat) (metadata : Introspection handles messages),
      (∀ message identifier,
        TwoForms identifier [] (metadata.MessageNamed message)
          (metadata.tryCompileMessage options message identifier)
          (metadata.compileMessage options message identifier)) ∧
      ∀ handle,
        (∀ identifier flavor,
          metadata.ResolvesThroughLookup handle identifier flavor →
            TwoForms "type support" [resolvedLine identifier flavor]
              (metadata.HandleNamed handle)
              (metadata.tryCompileHandle options handle)
              (metadata.compileHandle options handle)) ∧
        ((∀ identifier flavor,
            ¬ metadata.ResolvesThroughLookup handle identifier flavor) →
          TwoForms "type support" [] (metadata.HandleNamed handle)
            (metadata.tryCompileHandle options handle)
            (metadata.compileHandle options handle)) := by
  refine ⟨fun describe budget source => ?_, fun descriptor => ?_,
    fun spec => ?_, fun handles messages metadata => ⟨fun message identifier => ?_,
      fun handle => ⟨fun identifier flavor resolves => ?_,
        fun unresolved => ?_⟩⟩⟩
  · exact (Report.logs_ofSource options describe budget source).twoForms _
  · exact (Report.logs_ofLayout options _ _ descriptor.layout).twoForms _
  · exact (Report.logs_ofLayout options _ _ spec.description).twoForms _
  · exact (metadata.tryCompileMessage_logs options message identifier).twoForms _
  · exact (Introspection.tryCompileHandle_logs_resolved resolves).twoForms _
  · exact (Introspection.tryCompileHandle_logs_unresolved unresolved).twoForms _

namespace Introspection

theorem sharing_resolvesThroughLookup :
    sharing.ResolvesThroughLookup (some 0) "" .c := by
  refine ⟨0, rfl, rfl, fun known => ?_, rfl, by simp⟩
  cases known <;> decide

/-- A handle that is resolved through its lookup, and null. -/
theorem entry_points_have_two_forms_sharing :
    sharing.ResolvesThroughLookup (some 0) "" .c ∧
      (∃ qualified text, text ≠ "" ∧
        (sharing.compileHandle {} (some 0)).text = text ∧
          (sharing.compileHandle {} (some 0)).events.map LogEvent.line =
            [resolvedLine "" .c, compiledLine qualified text]) ∧
      (∀ identifier flavor,
        ¬ sharing.ResolvesThroughLookup none identifier flavor) ∧
      (sharing.compileHandle {} none).events.map LogEvent.line =
        [discardedLine "type support" .nullHandle] := by
  have compiled : (sharing.tryCompileHandle {} (some 0)).outcome =
      .ok ("v1\x7b(type=a::_b::dds_::A_,member=2)" ++
        "\x7b(name=x_,type=dds_::B_,member=1)f(name=z_)" ++
        "\x7b(name=y_,type=dds_::B_,member=1)f(name=z_)") := by
    set_option maxRecDepth 4000 in
    cbv
  have isNull (identifier : String) (flavor : Flavor) :
      ¬ sharing.ResolvesThroughLookup none identifier flavor := by
    rintro ⟨_, ⟨⟩, -⟩
  obtain ⟨-, -, -, handles⟩ := entry_points_have_two_forms {}
  obtain ⟨-, ofHandle⟩ := handles 3 2 sharing
  have resolved := (ofHandle (some 0)).1 "" .c sharing_resolvesThroughLookup
  have null := (ofHandle none).2 isNull
  obtain ⟨qualified, -, -, lines⟩ := resolved.lines_of_success _ compiled
  refine ⟨sharing_resolvesThroughLookup, ⟨qualified, _, ?_, ?_, lines⟩, isNull,
    ?_⟩
  · exact resolved.text_ne_empty _ compiled
  · exact resolved.text_of_success _ compiled
  · exact (null.lines_of_failure .nullHandle rfl).2

end Introspection

end Metastring
