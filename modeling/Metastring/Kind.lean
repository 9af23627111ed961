/-!
# Member kinds

Every member of a message is either a leaf, whose type has a one-character
code, or a nested message.  Raw metadata numbers the kinds; a number outside
the table is kept as an unknown kind, which can be shown but not compiled.
Descriptor files spell the kinds by name and cannot express unknown ones.
-/

namespace Metastring

/-- The member types that contain no further members. -/
inductive Leaf where
  | float
  | double
  | longDouble
  | char
  | wchar
  | boolean
  | octet
  | uint8
  | int8
  | uint16
  | int16
  | uint32
  | int32
  | uint64
  | int64
  | string
  | wstring
deriving DecidableEq, Inhabited

namespace Leaf

/-- The character that stands for the leaf in a metastring.  Types of the same
width and signedness class share one. -/
def code : Leaf → Char
  | float => 'f'
  | double | longDouble => 'd'
  | char | octet | uint8 | int8 => 'B'
  | wchar => 'w'
  | boolean => 'z'
  | uint16 => 'S'
  | int16 => 's'
  | uint32 => 'I'
  | int32 => 'i'
  | uint64 => 'L'
  | int64 => 'l'
  | string => '\''
  | wstring => 'W'

/-- The number of the leaf in raw metadata. -/
def id : Leaf → UInt8
  | float => 1
  | double => 2
  | longDouble => 3
  | char => 4
  | wchar => 5
  | boolean => 6
  | octet => 7
  | uint8 => 8
  | int8 => 9
  | uint16 => 10
  | int16 => 11
  | uint32 => 12
  | int32 => 13
  | uint64 => 14
  | int64 => 15
  | string => 16
  | wstring => 17

/-- The leaf's name in the member tree. -/
def label : Leaf → String
  | float => "Float"
  | double => "Double"
  | longDouble => "LongDouble"
  | char => "Char"
  | wchar => "WChar"
  | boolean => "Boolean"
  | octet => "Octet"
  | uint8 => "UInt8"
  | int8 => "Int8"
  | uint16 => "UInt16"
  | int16 => "Int16"
  | uint32 => "UInt32"
  | int32 => "Int32"
  | uint64 => "UInt64"
  | int64 => "Int64"
  | string => "String"
  | wstring => "WString"

/-- The leaf's canonical name in a descriptor file. -/
def name : Leaf → String
  | float => "float"
  | double => "double"
  | longDouble => "long_double"
  | char => "char"
  | wchar => "wchar"
  | boolean => "boolean"
  | octet => "octet"
  | uint8 => "uint8"
  | int8 => "int8"
  | uint16 => "uint16"
  | int16 => "int16"
  | uint32 => "uint32"
  | int32 => "int32"
  | uint64 => "uint64"
  | int64 => "int64"
  | string => "string"
  | wstring => "wstring"

end Leaf

/-- The kinds a descriptor file can declare. -/
inductive DeclaredKind where
  | leaf (leaf : Leaf)
  | message
deriving DecidableEq, Inhabited

namespace DeclaredKind

/-- The canonical name of a kind in a descriptor file. -/
def name : DeclaredKind → String
  | leaf l => l.name
  | message => "message"

/-- Every spelling a descriptor file may use for a kind, in the order in which
an unknown spelling is answered with them. -/
def spellings : List (String × DeclaredKind) :=
  [("float", leaf .float), ("float32", leaf .float),
    ("double", leaf .double), ("float64", leaf .double),
    ("long_double", leaf .longDouble), ("char", leaf .char),
    ("wchar", leaf .wchar), ("bool", leaf .boolean),
    ("boolean", leaf .boolean), ("byte", leaf .octet),
    ("octet", leaf .octet), ("uint8", leaf .uint8), ("int8", leaf .int8),
    ("uint16", leaf .uint16), ("int16", leaf .int16),
    ("uint32", leaf .uint32), ("int32", leaf .int32),
    ("uint64", leaf .uint64), ("int64", leaf .int64),
    ("string", leaf .string), ("wstring", leaf .wstring),
    ("message", message)]

/-- The kind that a spelling names.  Case and surrounding blanks count. -/
def ofSpelling? (spelling : String) : Option DeclaredKind :=
  spellings.lookup spelling

end DeclaredKind

/-- The kind of a member as the compiler sees it. -/
inductive Kind where
  | leaf (leaf : Leaf)
  | message
  | unknown (id : UInt8)
deriving DecidableEq, Inhabited

namespace Kind

/-- The kind with the given number in raw metadata. -/
def ofId (id : UInt8) : Kind :=
  match id.toNat with
  | 1 => leaf .float
  | 2 => leaf .double
  | 3 => leaf .longDouble
  | 4 => leaf .char
  | 5 => leaf .wchar
  | 6 => leaf .boolean
  | 7 => leaf .octet
  | 8 => leaf .uint8
  | 9 => leaf .int8
  | 10 => leaf .uint16
  | 11 => leaf .int16
  | 12 => leaf .uint32
  | 13 => leaf .int32
  | 14 => leaf .uint64
  | 15 => leaf .int64
  | 16 => leaf .string
  | 17 => leaf .wstring
  | 18 => message
  | _ => unknown id

/-- The number of a kind in raw metadata. -/
def id : Kind → UInt8
  | leaf l => l.id
  | message => 18
  | unknown id => id

/-- The metastring code of a kind; only leaves have one. -/
def code? : Kind → Option Char
  | leaf l => some l.code
  | message | unknown _ => none

end Kind

/-- A declared kind is a kind the compiler knows. -/
def DeclaredKind.kind : DeclaredKind → Kind
  | .leaf l => .leaf l
  | .message => .message

end Metastring
