import Metastring.Decimal
import Metastring.Utf8

/-!
# Why a message type cannot be compiled

Each cause names the place in the metadata that is at fault.  The wording is
kept in one function.
-/

namespace Metastring

/-- The causes for which no metastring exists. -/
inductive CompileError where
  /-- A type support handle or a message was null. -/
  | nullHandle
  /-- A message declares members and has no member table. -/
  | nullMembers (message : String) (count : Nat)
  /-- A member has no name. -/
  | nullMemberName (message : String) (index : Nat)
  /-- A member of kind message refers to no message. -/
  | missingNested (member : String)
  /-- A message is nested, at some depth, in a message of the same qualified
  name. -/
  | recursiveType (qualified : String)
  /-- A member's kind is unknown. -/
  | unsupportedType (member : String) (id : UInt8)
  /-- A handle belongs to no introspection flavor that can be used. -/
  | unknownFlavor (identifier : String)
  /-- A byte string in the metadata is not UTF-8. -/
  | invalidUtf8 (fault : Utf8.Fault)
deriving DecidableEq, Inhabited

def Utf8.Fault.message : Utf8.Fault → String
  | .malformed length index =>
    "invalid utf-8 sequence of " ++ decimal length ++ " bytes from index " ++
      decimal index
  | .unfinished index =>
    "incomplete utf-8 byte sequence from index " ++ decimal index

def CompileError.message : CompileError → String
  | nullHandle => "null introspection handle"
  | nullMembers message count =>
    "message '" ++ message ++ "' declares " ++ decimal count ++
      " members but has no member table"
  | nullMemberName message index =>
    "member #" ++ decimal index ++ " of '" ++ message ++ "' has no name"
  | missingNested member =>
    "nested message member '" ++ member ++ "' has no type support"
  | recursiveType qualified => "recursive type '" ++ qualified ++ "'"
  | unsupportedType member id =>
    "member '" ++ member ++ "' has unsupported type id " ++ decimal id.toNat
  | unknownFlavor identifier =>
    "unknown introspection flavor '" ++ identifier ++ "'"
  | invalidUtf8 fault =>
    "invalid UTF-8 in introspection metadata: " ++ fault.message

end Metastring
