import Metastring.Blank
import Metastring.Compile
import Metastring.ControlSequence
import Metastring.Pattern.Reader
import Metastring.Pieces

/-!
# Log filters

A log filter is written as directives between commas and, behind a slash, a
pattern of what logged texts have to contain.  A directive sets the threshold
for the targets that begin with a name, or for all targets; the directive with
the longest name decides.  What cannot be understood is reported and left out.
-/

namespace Metastring

/-- Something logged for a target. -/
structure LogRecord where
  level : Level
  target : String
  text : String
deriving DecidableEq

namespace Level

def name : Level → String
  | error => "ERROR"
  | warn => "WARN"
  | info => "INFO"
  | debug => "DEBUG"
  | trace => "TRACE"

/-- The position of a level; later levels are more detailed. -/
def detail : Level → Nat
  | error => 1
  | warn => 2
  | info => 3
  | debug => 4
  | trace => 5

end Level

namespace LogRecord

/-- A record as it is written: a line without control sequences.  Further lines
of its text are indented.  The time at which it was logged is left out. -/
def written (record : LogRecord) : String :=
  ControlSequence.remove
    ("[" ++ record.level.name ++
      String.ofList (List.replicate (5 - record.level.name.length) ' ') ++
      " " ++ record.target ++ "] " ++
      "\n    ".intercalate
        ((pieces '\n' record.text.toList).map String.ofList) ++ "\n")

end LogRecord

/-- The most detailed level that is let through, if any is. -/
abbrev Threshold := Option Level

/-- A directive for the targets that begin with a name.  Without a name it
applies to all of them. -/
structure LogDirective where
  name : Option (List Char)
  threshold : Threshold
deriving DecidableEq

/-- Parts of a log filter that cannot be understood. -/
inductive LogFilterFault where
  | manySlashes (filter : List Char)
  | badDirective (directive : List Char)
  | badPattern (text : List Char) (fault : Pattern.Fault)
deriving DecidableEq

def LogFilterFault.message : LogFilterFault → String
  | manySlashes filter =>
    "invalid logging spec '" ++ String.ofList filter ++ "' (too many '/'s)"
  | badDirective directive =>
    "invalid logging spec '" ++ String.ofList directive ++ "'"
  | badPattern text fault => "invalid regex filter - " ++ fault.message text

def LogFilterFault.warning (fault : LogFilterFault) : String :=
  "warning: " ++ fault.message ++ ", ignoring it\n"

/-- Which records are let through. -/
structure LogFilter where
  directives : List LogDirective := []
  pattern : Option Pattern := none

/-! ## Reading -/

/-- The threshold with the given name, in capital or small letters. -/
def readThreshold? (name : List Char) : Option Threshold :=
  let name := String.ofList (name.map Char.toUpper)
  if name = "OFF" then some none
  else
    ([.error, .warn, .info, .debug, .trace].find?
      fun level : Level => level.name = name).map some

/-- Read a directive: a threshold, a name, or both with an equals sign. -/
def readDirective (directive : List Char) :
    Except LogFilterFault LogDirective :=
  match pieces '=' directive with
  | [name] =>
    match readThreshold? name with
    | some threshold => .ok ⟨none, threshold⟩
    | none => .ok ⟨some name, some .trace⟩
  | [name, threshold] =>
    let threshold := trimBlanks threshold
    if threshold = [] then .ok ⟨some name, some .trace⟩
    else
      match readThreshold? threshold with
      | some threshold => .ok ⟨some name, threshold⟩
      | none => .error (.badDirective threshold)
  | _ => .error (.badDirective directive)

namespace LogFilter

/-- Add a directive.  It replaces the one for the same name. -/
def addDirective (filter : LogFilter) (directive : LogDirective) : LogFilter :=
  if filter.directives.any (·.name = directive.name) then
    { filter with
      directives := filter.directives.map fun other =>
        if other.name = directive.name then directive else other }
  else { filter with directives := filter.directives ++ [directive] }

def addDirectives (filter : LogFilter) :
    List (List Char) → LogFilter × List LogFilterFault
  | [] => (filter, [])
  | text :: rest =>
    let text := trimBlanks text
    if text = [] then filter.addDirectives rest
    else
      match readDirective text with
      | .ok directive => (filter.addDirective directive).addDirectives rest
      | .error fault =>
        let (filter, faults) := filter.addDirectives rest
        (filter, fault :: faults)

def addPattern (filter : LogFilter) (text : List Char) :
    LogFilter × List LogFilterFault :=
  match Pattern.read text with
  | .ok pattern => ({ filter with pattern := some pattern }, [])
  | .error fault => (filter, [.badPattern text fault])

def read (text : List Char) : LogFilter × List LogFilterFault :=
  match pieces '/' text with
  | [directives] => addDirectives {} (pieces ',' directives)
  | [directives, pattern] =>
    let (filter, faults) := addDirectives {} (pieces ',' directives)
    let (filter, patternFaults) := filter.addPattern pattern
    (filter, faults ++ patternFaults)
  | _ => ({}, [.manySlashes text])

/-! ## Filtering -/

def nameLength (directive : LogDirective) : Nat :=
  ((directive.name.map fun name => String.ofList name).getD "").utf8ByteSize

/-- The directives that decide, the first one that applies before the others:
those with longer names and, among equals, those that come later.  Without any
directive only errors are let through. -/
def deciding (filter : LogFilter) : List LogDirective :=
  if filter.directives = [] then [⟨none, some .error⟩]
  else
    filter.directives.reverse.mergeSort fun first second =>
      nameLength second ≤ nameLength first

def applies (target : String) (directive : LogDirective) : Bool :=
  directive.name.all fun name => name.isPrefixOf target.toList

def lets (filter : LogFilter) (record : LogRecord) : Bool :=
  let threshold :=
    (filter.deciding.find? (applies record.target)).bind (·.threshold)
  threshold.any (record.level.detail ≤ ·.detail) &&
    filter.pattern.all (·.occursIn record.text)

/-- The records that are let through, as they are written. -/
def written (filter : LogFilter) (records : List LogRecord) : String :=
  String.join ((records.filter filter.lets).map LogRecord.written)

end LogFilter

end Metastring
