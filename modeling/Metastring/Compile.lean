import Metastring.Flavor
import Metastring.Spec
import Metastring.Walk

/-!
# Compiling and reporting

A compilation yields its outcome together with what it logged.  Every entry
point comes in two forms: the first gives the outcome with its cause, and the
second, meant for callers that can only use a string, gives the empty string on
failure and logs the cause.
-/

namespace Metastring

/-- How much a log event matters; later levels are more detailed. -/
inductive Level where
  | error
  | warn
  | info
  | debug
  | trace
deriving DecidableEq, Inhabited

/-- Something a compilation logs. -/
inductive LogEvent where
  /-- A message type was compiled. -/
  | compiled (qualified metastring : String)
  /-- A handle of another kind was resolved to one of an introspection flavor. -/
  | resolved (identifier : String) (flavor : Flavor)
  /-- A failure was turned into the empty string. -/
  | discarded (context : String) (error : CompileError)
deriving DecidableEq

namespace LogEvent

def level : LogEvent → Level
  | compiled _ _ | resolved _ _ => .trace
  | discarded _ _ => .debug

def text : LogEvent → String
  | compiled qualified metastring =>
    "metastring for " ++ qualified ++ ": " ++ metastring
  | resolved identifier flavor =>
    "resolved '" ++ identifier ++ "' handle to " ++ flavor.identifier
  | discarded context error =>
    "metastring compilation failed (" ++ context ++ "): " ++ error.message

end LogEvent

/-- The outcome of a compilation and the events it logged, in order. -/
structure Report where
  outcome : Except CompileError String
  events : List LogEvent

/-- The form for callers that can only use a string. -/
structure PlainReport where
  text : String
  events : List LogEvent
deriving DecidableEq

namespace Report

/-- A failure that logs nothing. -/
def failure (error : CompileError) : Report :=
  ⟨.error error, []⟩

/-- Report the metastring of a layout; success is logged. -/
def ofLayout {ρ : Type} (options : Options)
    (describe : ρ → Except CompileError (Layout Kind ρ)) (budget : Nat)
    (layout : Layout Kind ρ) : Report :=
  match metastring options describe budget layout with
  | .ok text => ⟨.ok text, [.compiled layout.type.qualified text]⟩
  | .error error => failure error

/-- Report the metastring of what a source describes itself as.  A source may
fail to describe itself. -/
def ofSource {ρ : Type} (options : Options)
    (describe : ρ → Except CompileError (Layout Kind ρ)) (budget : Nat)
    (source : ρ) : Report :=
  match describe source with
  | .error error => failure error
  | .ok layout => ofLayout options describe budget layout

def after (event : LogEvent) (report : Report) : Report :=
  { report with events := event :: report.events }

/-- Give up the cause of a failure, which is logged under `context`. -/
def plain (context : String) (report : Report) : PlainReport :=
  match report.outcome with
  | .ok text => ⟨text, report.events⟩
  | .error error => ⟨"", report.events ++ [.discarded context error]⟩

@[simp]
theorem ofLayout_outcome {ρ : Type} (options : Options)
    (describe : ρ → Except CompileError (Layout Kind ρ)) (budget : Nat)
    (layout : Layout Kind ρ) :
    (ofLayout options describe budget layout).outcome =
      metastring options describe budget layout := by
  unfold ofLayout
  cases metastring options describe budget layout <;> rfl

@[simp]
theorem failure_outcome (error : CompileError) :
    (failure error).outcome = .error error :=
  rfl

@[simp]
theorem after_outcome (event : LogEvent) (report : Report) :
    (report.after event).outcome = report.outcome :=
  rfl

end Report

namespace Descriptor

def tryCompile (options : Options) (descriptor : Descriptor) : Report :=
  Report.ofLayout options (fun nested => .ok nested.layout) descriptor.height
    descriptor.layout

/-- Compile a descriptor to a string that is empty on failure. -/
def compile (options : Options) (descriptor : Descriptor) : PlainReport :=
  (descriptor.tryCompile options).plain "descriptor"

end Descriptor

namespace MessageSpec

/-- Compile a specification.  The blocks written inside it are described when
the walk reaches them. -/
def tryCompile (options : Options) (spec : MessageSpec) : Report :=
  Report.ofLayout options (fun nested => .ok nested.description) spec.levels
    spec.description

/-- Compile a specification to a string that is empty on failure. -/
def compile (options : Options) (spec : MessageSpec) : PlainReport :=
  (spec.tryCompile options).plain "descriptor"

end MessageSpec

end Metastring
