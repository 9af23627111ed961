import Metastring.Decimal
import Metastring.Spec

/-!
# Writing message specifications in JSON

A specification is written compactly, every field in declaration order and
under its canonical name; a missing block is left out.  Of the characters of a
text only quotes, backslashes and control characters are escaped.
-/

namespace Metastring.Json

/-- A lower-case hexadecimal digit. -/
def hexLetter (value : Nat) : Char :=
  if value < 10 then Char.ofNat (48 + value) else Char.ofNat (87 + value)

/-- How a character is written inside quotes. -/
def escapedLetter (letter : Char) : List Char :=
  match letter with
  | '"' => ['\\', '"']
  | '\\' => ['\\', '\\']
  | '\x08' => ['\\', 'b']
  | '\x0c' => ['\\', 'f']
  | '\n' => ['\\', 'n']
  | '\r' => ['\\', 'r']
  | '\t' => ['\\', 't']
  | letter =>
    if letter < ' ' then
      ['\\', 'u', '0', '0', hexLetter (letter.toNat / 16),
        hexLetter (letter.toNat % 16)]
    else [letter]

def writeText (text : String) : String :=
  "\"" ++ String.ofList (text.toList.flatMap escapedLetter) ++ "\""

def writeFlag (flag : Bool) : String :=
  if flag then "true" else "false"

def writeEntry (key value : String) : String :=
  writeText key ++ ":" ++ value

def writeObject (entries : List String) : String :=
  "\x7b" ++ ",".intercalate entries ++ "\x7d"

/-- The entries of a member but for its block. -/
def memberEntries (member : MemberSpec) : List String :=
  [writeEntry "name" (writeText member.name),
    writeEntry "type" (writeText member.kind.name),
    writeEntry "is_array" (writeFlag member.shape.isArray),
    writeEntry "array_size" (decimal member.shape.arraySize.toNat),
    writeEntry "is_upper_bound" (writeFlag member.shape.isUpperBound)]

mutual

def writeSpec : MessageSpec → String
  | .mk ⟨type, members⟩ =>
    writeObject
      [writeEntry "namespace" (writeText type.scope),
        writeEntry "name" (writeText type.name),
        writeEntry "members"
          ("[" ++ ",".intercalate (writeMembers members) ++ "]")]
termination_by structural spec => spec

def writeMembers : List MemberSpec → List String
  | [] => []
  | member :: rest =>
    writeObject (memberEntries member ++ writeBlock member) ::
      writeMembers rest
termination_by structural members => members

/-- The entry of a member's block, if there is one. -/
def writeBlock : MemberSpec → List String
  | ⟨_, _, _, none⟩ => []
  | ⟨_, _, _, some message⟩ => [writeEntry "message" (writeSpec message)]
termination_by structural member => member

end

end Metastring.Json
