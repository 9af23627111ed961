import Metastring.CommandLine

/-!
# The program

The outer layer of the command line: it reads the arguments, the environment
and the files, and prints what a run leaves behind.
-/

namespace Metastring

/-- What an error of the operating system says about a file. -/
def FileFault.ofError : IO.Error → FileFault
  | .noFileOrDirectory .. => .missing
  | .inappropriateType _ code _ => if code = 21 then .isFolder else .notFolder
  | .invalidArgument _ code details =>
    if code = 36 then .nameTooLong else .other details
  | error => .other (toString error)

/-- Read a file of the operating system. -/
def readContent (path : Path) : IO (Except FileFault (List UInt8)) := do
  try
    let content ← IO.FS.readBinFile (Utf8.decodeLossy path)
    return .ok content.toList
  catch error => return .error (.ofError error)

/-- The values of the variables that matter. -/
def readEnvironment : IO Environment := do
  let mut environment := Environment.empty
  for subject in [Variable.unboundedMaximum, .logLevel, .logFilter] do
    match ← IO.getEnv subject.name with
    | some value =>
      environment := environment.assign subject (some (Utf8.encode value))
    | none => pure ()
  return environment

end Metastring

open Metastring in
def main (arguments : List String) : IO UInt32 := do
  let command := Command.read (arguments.map Utf8.encode)
  let paths := (command.map Command.files).getD []
  let contents ← paths.mapM fun path => return (path, ← readContent path)
  let content (path : Path) : Except FileFault (List UInt8) :=
    (contents.lookup path).getD (.error .missing)
  let outcome := runProgram content (← readEnvironment) command
  IO.print outcome.output
  IO.eprint outcome.messages
  return UInt32.ofNat outcome.status
