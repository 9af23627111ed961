import Metastring.Folder
import Metastring.Json.Spec
import Metastring.Yaml.Spec

/-!
# Descriptor files

A descriptor file holds a message specification, in JSON if the extension of
its name says so and in YAML otherwise.  The extension is what follows the last
dot of the name, unless that dot begins the name.
-/

namespace Metastring

/-- The two forms of a descriptor file. -/
inductive FileForm where
  | json
  | yaml
deriving DecidableEq, Inhabited

/-- Why no specification can be loaded from a file. -/
inductive LoadError where
  | unreadable (path : Path) (fault : FileFault)
  /-- The content is not UTF-8. -/
  | notText (path : Path)
  | undecodable (error : DecodeError)
deriving DecidableEq, Inhabited

/-- The wording of a load error.  A file that cannot be read is explained in
full; of a text that cannot be decoded only the cause is named, without its
place, and malformed text has no wording. -/
def LoadError.message? : LoadError → Option String
  | unreadable path fault =>
    some (Utf8.decodeLossy path ++ ": " ++ fault.message)
  | notText path =>
    some (Utf8.decodeLossy path ++ ": stream did not contain valid UTF-8")
  | undecodable error => error.message?

def fileName (path : Path) : Path :=
  (pieces Folder.separator path).getLastD []

def extension? (name : Path) : Option Path :=
  match pieces 46 name with
  | [_] | [[], _] => none
  | parts => parts.getLast?

/-- A byte with capital ASCII letters made small. -/
def smallByte (byte : UInt8) : UInt8 :=
  if 65 ≤ byte ∧ byte ≤ 90 then byte + 32 else byte

namespace FileForm

/-- The form of the file at a path. -/
def ofPath (path : Path) : FileForm :=
  match extension? (fileName path) with
  | some extension =>
    if extension.map smallByte = Utf8.encode "json" then json else yaml
  | none => yaml

def readSpec : FileForm → String → Decoded MessageSpec
  | json => Json.readSpec
  | yaml => Yaml.readSpec

end FileForm

/-- Load a specification from the content found at a path. -/
def loadSpec (path : Path) (content : Except FileFault (List UInt8)) :
    Except LoadError MessageSpec :=
  match content with
  | .error fault => .error (.unreadable path fault)
  | .ok bytes =>
    match Utf8.decode bytes with
    | .error _ => .error (.notText path)
    | .ok text =>
      ((FileForm.ofPath path).readSpec text).mapError .undecodable

end Metastring
