import Metastring.Pieces
import Metastring.Utf8

/-!
# Folders and paths

A folder holds files and further folders under names, which are byte strings.
A path leads through a folder name by name; an empty name and a single dot stay
where they are, which has to be a folder, and two dots go back to the folder
around.  Nothing is known of what lies outside the folder, so a path that
leaves it finds nothing but folders around the folder itself and the null
device, which is always empty.
-/

namespace Metastring

/-- A path or a single name. -/
abbrev Path := List UInt8

/-- Why a file cannot be read. -/
inductive FileFault where
  | missing
  | notFolder
  | isFolder
  | nameTooLong
  | other (description : String)
deriving DecidableEq, Inhabited

namespace FileFault

def message : FileFault → String
  | missing => "No such file or directory (os error 2)"
  | notFolder => "Not a directory (os error 20)"
  | isFolder => "Is a directory (os error 21)"
  | nameTooLong => "File name too long (os error 36)"
  | other description => description

end FileFault

/-- What stands under a path. -/
inductive Entry where
  | file (content : List UInt8)
  | folder
deriving DecidableEq, Inhabited

/-- The entries of a folder by the names that lead to them. -/
structure Folder where
  entries : List (List Path × Entry)

namespace Folder

/-- The separator between the names of a path. -/
def separator : UInt8 := 47

/-- The name of the folder around. -/
def parentName : Path := Utf8.encode ".."

def isStay (name : Path) : Bool :=
  name = [] || name = Utf8.encode "."

def ofPaths (entries : List (Path × Entry)) : Folder :=
  ⟨entries.map fun (path, entry) =>
    ((pieces separator path).filter fun name => !isStay name, entry)⟩

/-- What stands under a list of names.  Names that lead on to an entry are
those of a folder. -/
def entry? (folder : Folder) (names : List Path) : Option Entry :=
  match folder.entries.lookup names with
  | some entry => some entry
  | none =>
    if names = [] || folder.entries.any (names.isPrefixOf ·.1) then
      some .folder
    else none

def nameLimit : Nat := 255

def pathLimit : Nat := 4095

/-- What is found outside the folder by the names that are left. -/
def outside (names : List Path) : FileFault :=
  match names.find? fun name => !isStay name && name ≠ parentName with
  | some name => if nameLimit < name.length then .nameTooLong else .missing
  | none => .isFolder

/-- Read the file to which the names lead from a place inside the folder. -/
def readFrom (folder : Folder) (place : List Path) :
    List Path → Except FileFault (List UInt8)
  | [] =>
    match folder.entry? place with
    | some (.file content) => .ok content
    | some .folder => .error .isFolder
    | none => .error .missing
  | name :: names =>
    match folder.entry? place with
    | some .folder =>
      if isStay name then folder.readFrom place names
      else if name = parentName then
        if place = [] then .error (outside names)
        else folder.readFrom place.dropLast names
      else if nameLimit < name.length then .error .nameTooLong
      else folder.readFrom (place ++ [name]) names
    | some (.file _) => .error .notFolder
    | none => .error .missing

def nullDevice : Path := Utf8.encode "/dev/null"

def read (folder : Folder) (path : Path) : Except FileFault (List UInt8) :=
  if pathLimit < path.length then .error .nameTooLong
  else if path = nullDevice then .ok []
  else
    match path with
    | [] => .error .missing
    | first :: _ =>
      let names := pieces separator path
      if first = separator then .error (outside names)
      else folder.readFrom [] names

end Folder

end Metastring
