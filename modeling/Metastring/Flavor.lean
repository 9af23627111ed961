/-!
# Introspection flavors

Raw metadata comes in two flavors, one generated for C and one for C++.  A
handle names its flavor by an identifier; handles with any other identifier
can only be used by asking their lookup.
-/

namespace Metastring

/-- The flavors of introspection metadata. -/
inductive Flavor where
  | c
  | cpp
deriving DecidableEq, Inhabited

namespace Flavor

/-- The identifier that handles of a flavor carry. -/
def identifier : Flavor → String
  | c => "rosidl_typesupport_introspection_c"
  | cpp => "rosidl_typesupport_introspection_cpp"

def ofIdentifier? (identifier : String) : Option Flavor :=
  if identifier = c.identifier then some c
  else if identifier = cpp.identifier then some cpp
  else none

end Flavor

end Metastring
