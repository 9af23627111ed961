import Metastring.DescriptorFile
import Metastring.LogFilter
import Metastring.MemberTree
import Metastring.Settings

/-!
# The command line

The program compiles descriptor files to metastrings, mangles type names and
shows the member tree of a descriptor file.  The maximum for unbounded
sequences comes from the command line, else from the environment.
-/

namespace Metastring

inductive Command where
  | version
  | compile (files : List Path) (maximum : Option UInt64)
  | mangle (type : ScopedName)
  | inspect (file : Path)
deriving DecidableEq, Inhabited

/-! ## Reading arguments -/

structure Arguments where
  operands : List (List UInt8) := []
  maximum : Option UInt64 := none

namespace Arguments

/-- The option that sets the maximum for unbounded sequences. -/
def maximumName : List UInt8 :=
  Utf8.encode "--unbounded-max"

/-- Whether an argument has the form of an option. -/
def isOption (argument : List UInt8) : Bool :=
  argument.head? = some 45 && argument ≠ [45]

def addOperand (operand : List UInt8) (arguments : Arguments) : Arguments :=
  { arguments with operands := operand :: arguments.operands }

/-- Set the maximum, which may be done once and has to be a size. -/
def setMaximum (value : List UInt8) (arguments : Arguments) :
    Option Arguments := do
  let text ← (Utf8.decode value).toOption
  let maximum ← readSize? text.toList
  if arguments.maximum.isSome then none
  else return { arguments with maximum := some maximum }

/-- Read arguments.  Behind two hyphens everything is an operand; in front of
them, only what does not have the form of an option. -/
def read : List (List UInt8) → Option Arguments
  | [] => some {}
  | argument :: rest =>
    if argument = Utf8.encode "--" then some { operands := rest }
    else if !isOption argument then
      (read rest).map (addOperand argument)
    else if argument = maximumName then
      match rest with
      | [] => none
      | value :: rest =>
        if isOption value then none else read rest >>= setMaximum value
    else if (maximumName ++ [61]).isPrefixOf argument then
      read rest >>= setMaximum (argument.drop (maximumName.length + 1))
    else none

end Arguments

namespace Command

def asksVersion (argument : List UInt8) : Bool :=
  argument = Utf8.encode "--version" ||
    (Utf8.encode "-V").isPrefixOf argument

def named (name : List UInt8) (arguments : Arguments) : Option Command :=
  if name = Utf8.encode "compile" then
    if arguments.operands = [] || arguments.operands.contains [] then none
    else some (.compile arguments.operands arguments.maximum)
  else if arguments.maximum.isSome then none
  else if name = Utf8.encode "mangle" then
    match arguments.operands with
    | [scope, name] => do
      let scope ← (Utf8.decode scope).toOption
      let name ← (Utf8.decode name).toOption
      return .mangle ⟨scope, name⟩
    | _ => none
  else if name = Utf8.encode "inspect" then
    match arguments.operands with
    | [file] => if file = [] then none else some (.inspect file)
    | _ => none
  else none

/-- Read a command line, without the name of the program.  Help is left out: a
request for it (`help`, `--help` or `-h`) is no command. -/
def read : List (List UInt8) → Option Command
  | [] => none
  | first :: rest =>
    if asksVersion first then some .version
    else Arguments.read rest >>= named first

def files : Command → List Path
  | compile files _ => files
  | inspect file => [file]
  | version | mangle _ => []

end Command

/-! ## Running commands -/

/-- What a run leaves behind: its exit status, its output and its messages. -/
structure Outcome where
  status : Nat
  output : String
  messages : String
deriving DecidableEq, Inhabited

namespace Outcome

def success (output : String) : Outcome :=
  ⟨0, output, ""⟩

def failure (cause : String) : Outcome :=
  ⟨1, "", "Error: " ++ cause ++ "\n"⟩

/-- A run after another one, whose exit status is not taken. -/
def append (first second : Outcome) : Outcome :=
  ⟨second.status, first.output ++ second.output,
    first.messages ++ second.messages⟩

end Outcome

/-- The wording of a load error as it is shown.  A question mark stands for the
explanation of malformed text, which is left out, as are places in the text. -/
def LoadError.message (error : LoadError) : String :=
  "descriptor file: " ++ error.message?.getD "?"

def MessageSpec.loadedRecord (spec : MessageSpec) : LogRecord where
  level := .debug
  target := "metastring_dump"
  text :=
    "loaded " ++ spec.type.name ++ " (" ++ decimal spec.members.length ++
      " members)"

def LogEvent.logRecord (event : LogEvent) : LogRecord where
  level := event.level
  target := "rmw_metastring::compiler"
  text := event.text

/-- The options of a run: the maximum of the command line takes precedence. -/
def Settings.optionsWith (settings : Settings) (maximum : Option UInt64) :
    Options :=
  match maximum with
  | some maximum => { settings.options with unboundedMaximum := maximum }
  | none => settings.options

/-- Where a command runs: the files by their paths, the compiler options and
the log filter. -/
structure Workplace where
  content : Path → Except FileFault (List UInt8)
  options : Options
  filter : LogFilter

namespace Workplace

/-- Compile a file.  The exit status tells whether that failed. -/
def compileFile (place : Workplace) (path : Path) : Outcome :=
  let failed (cause : String) : String :=
    "[ERROR] " ++ Utf8.decodeLossy path ++ ": " ++ cause ++ "\n"
  match loadSpec path (place.content path) with
  | .error error => ⟨1, "", failed error.message⟩
  | .ok spec =>
    let report := spec.tryCompile place.options
    let logged := place.filter.written
      (spec.loadedRecord :: report.events.map LogEvent.logRecord)
    match report.outcome with
    | .ok text => ⟨0, Utf8.decodeLossy path ++ ": " ++ text ++ "\n", logged⟩
    | .error error =>
      ⟨1, "", logged ++
        failed ("compiling " ++ spec.type.name ++ ": " ++ error.message)⟩

/-- Compile files and tell how many of them failed. -/
def compileFiles (place : Workplace) (files : List Path) : Outcome :=
  let outcomes := files.map place.compileFile
  let failures := outcomes.countP (·.status ≠ 0)
  let summary :=
    if failures = 0 then Outcome.success ""
    else
      Outcome.failure (decimal failures ++ " of " ++ decimal files.length ++
        " files failed")
  outcomes.foldr Outcome.append summary

def inspectFile (place : Workplace) (path : Path) : Outcome :=
  match loadSpec path (place.content path) with
  | .error error => .failure error.message
  | .ok spec =>
    match spec.descriptor.tree with
    | .ok tree => .success tree
    | .error error => .failure error.message

def run (place : Workplace) : Command → Outcome
  | .version => .success "metastring-dump 1.0.10\n"
  | .mangle type => .success (type.mangled ++ "\n")
  | .inspect file => place.inspectFile file
  | .compile files maximum =>
    if maximum = some 0 then .failure "--unbounded-max must be positive"
    else place.compileFiles files

end Workplace

/-- The log filter that an environment holds, and what is wrong with it. -/
def Environment.logFilter (environment : Environment) :
    LogFilter × List LogFilterFault :=
  match environment.text? .logFilter with
  | some text => LogFilter.read text.toList
  | none => ({}, [])

/-- The answer to a command line that is not understood: the commands and the
exit status 2.  A request for help gets it as well, since help is left out. -/
def usage : Outcome :=
  ⟨2, "",
    "Usage: metastring-dump compile [--unbounded-max <N>] <FILE>...\n" ++
    "       metastring-dump mangle <NAMESPACE> <NAME>\n" ++
    "       metastring-dump inspect <FILE>\n"⟩

/-- Run the program with a command, if there is one, in an environment. -/
def runProgram (content : Path → Except FileFault (List UInt8))
    (environment : Environment) (command : Option Command) : Outcome :=
  let settings := Settings.load environment
  let (filter, faults) := (settings.applyLogLevel environment).logFilter
  let warnings : Outcome :=
    ⟨0, "", String.join (faults.map LogFilterFault.warning)⟩
  match command with
  | none => usage
  | some command =>
    let maximum := match command with
      | .compile _ maximum => maximum
      | _ => none
    warnings.append
      (Workplace.run ⟨content, settings.optionsWith maximum, filter⟩ command)

end Metastring
