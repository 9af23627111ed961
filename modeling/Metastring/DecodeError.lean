import Metastring.Kind

/-!
# Why a descriptor file cannot be read

A descriptor file is text in one of two notations.  Text that breaks the rules
of its notation is malformed, without further explanation.  Well-formed text
can still fail to be a message specification, and then the error names the
field, the spelling or the value that was wanted.
-/

namespace Metastring

/-- What was wanted where something else stands. -/
inductive Wanted where
  | text
  | boolean
  | size
  | list
  | message
  | member
  /-- A message given by position, whose fields are three. -/
  | messageFields
  /-- A member given by position, whose fields are six. -/
  | memberFields
  | fieldName
  | kindName
  | unit
  /-- Content that agrees with an explicit tag. -/
  | integer
  | float
  | null
deriving DecidableEq, Inhabited

def Wanted.description : Wanted → String
  | text => "a string"
  | boolean => "a boolean"
  | size => "usize"
  | list => "a sequence"
  | message => "struct MessageSpec"
  | member => "struct MemberSpec"
  | messageFields => "struct MessageSpec with 3 elements"
  | memberFields => "struct MemberSpec with 6 elements"
  | fieldName => "field identifier"
  | kindName => "variant identifier"
  | unit => "unit"
  | integer => "an integer"
  | float => "a float"
  | null => "null"

/-- The causes for which a text is no message specification. -/
inductive DecodeError where
  | malformed
  | missingField (field : String)
  | duplicateField (field : String)
  | unknownKind (spelling : String)
  | expected (wanted : Wanted)
deriving DecidableEq, Inhabited

/-- What decoding gives: a value, or the error at which it stopped. -/
abbrev Decoded := Except DecodeError

/-- A name between backquotes. -/
def backquoted (name : String) : String :=
  "\x60" ++ name ++ "\x60"

/-- The wording of a decode error.  It names what was wanted and leaves out what
was found instead and at which place of the text.  Malformed text has no
wording. -/
def DecodeError.message? : DecodeError → Option String
  | malformed => none
  | missingField field => some ("missing field " ++ backquoted field)
  | duplicateField field => some ("duplicate field " ++ backquoted field)
  | unknownKind spelling =>
    some ("unknown variant " ++ backquoted spelling ++ ", expected one of " ++
      ", ".intercalate
        (DeclaredKind.spellings.map fun (known, _) => backquoted known))
  | expected wanted => some ("expected " ++ wanted.description)

end Metastring
