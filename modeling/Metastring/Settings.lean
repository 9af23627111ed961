import Metastring.Blank
import Metastring.Decimal
import Metastring.Utf8
import Metastring.Walk

/-!
# Settings from the environment

Two environment variables configure the compiler, and a third one, which
belongs to the logging facility, receives the configured log level unless it
is present already.  A value that is not UTF-8 cannot be read, so it counts as
absent where it is read, but it is present all the same.

A session interleaves changes of the environment with loading, applying and
assigning settings.
-/

namespace Metastring

/-- The environment variables that matter. -/
inductive Variable where
  | unboundedMaximum
  | logLevel
  | logFilter
deriving DecidableEq, Inhabited

namespace Variable

def name : Variable → String
  | unboundedMaximum => "RMW_METASTRING_UNBOUNDED_MAX"
  | logLevel => "RMW_METASTRING_LOG_LEVEL"
  | logFilter => "RUST_LOG"

def ofName? (name : String) : Option Variable :=
  [unboundedMaximum, logLevel, logFilter].find? (·.name = name)

end Variable

/-- The values of the variables that are present. -/
structure Environment where
  value : Variable → Option (List UInt8)

namespace Environment

def empty : Environment :=
  ⟨fun _ => none⟩

/-- Make a variable present with the given value, or absent. -/
def assign (environment : Environment) (subject : Variable)
    (value : Option (List UInt8)) : Environment :=
  ⟨fun other => if other = subject then value else environment.value other⟩

/-- The value of a variable that is present and UTF-8. -/
def text? (environment : Environment) (subject : Variable) :
    Option String := do
  let bytes ← environment.value subject
  (Utf8.decode bytes).toOption

end Environment

/-- What the environment configures. -/
structure Settings where
  unboundedMaximum : Option UInt64 := none
  logLevel : String := "info"
deriving DecidableEq, Inhabited

namespace Settings

/-- The maximum that a text denotes: a positive size, with blanks around it
allowed. -/
def readMaximum? (text : String) : Option UInt64 :=
  (readSize? (trimBlanks text.toList)).filter (· ≠ 0)

/-- Read the settings; what cannot be read is left at its default. -/
def load (environment : Environment) : Settings where
  unboundedMaximum := environment.text? .unboundedMaximum >>= readMaximum?
  logLevel :=
    ((environment.text? .logLevel).filter (· ≠ "")).getD
      ({} : Settings).logLevel

/-- Whether anything differs from the defaults. -/
def isCustom (settings : Settings) : Bool :=
  settings ≠ {}

def options (settings : Settings) : Options :=
  match settings.unboundedMaximum with
  | some maximum => { unboundedMaximum := maximum }
  | none => {}

/-- Hand the log level to the logging facility unless its variable is
present. -/
def applyLogLevel (settings : Settings) (environment : Environment) :
    Environment :=
  match environment.value .logFilter with
  | some _ => environment
  | none =>
    environment.assign .logFilter (some (Utf8.encode settings.logLevel))

end Settings

/-- A step of a configuration session. -/
inductive SessionStep where
  | set (subject : Variable) (value : List UInt8)
  | unset (subject : Variable)
  | load
  | reset
  | apply
  | assignMaximum (maximum : Option UInt64)
  | assignLevel (level : String)
deriving DecidableEq

/-- An environment together with the current settings. -/
structure Session where
  environment : Environment := .empty
  settings : Settings := {}

namespace Session

def step (session : Session) : SessionStep → Session
  | .set subject value =>
    { session with
      environment := session.environment.assign subject (some value) }
  | .unset subject =>
    { session with environment := session.environment.assign subject none }
  | .load => { session with settings := .load session.environment }
  | .reset => { session with settings := {} }
  | .apply =>
    { session with
      environment := session.settings.applyLogLevel session.environment }
  | .assignMaximum maximum =>
    { session with
      settings := { session.settings with unboundedMaximum := maximum } }
  | .assignLevel level =>
    { session with settings := { session.settings with logLevel := level } }

def run (session : Session) (steps : List SessionStep) : Session :=
  steps.foldl step session

/-- The sessions after each of a list of steps. -/
def states (session : Session) : List SessionStep → List Session
  | [] => []
  | first :: rest => session.step first :: (session.step first).states rest

end Session

end Metastring
