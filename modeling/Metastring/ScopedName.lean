/-!
# Scoped type names

A message type has a bare name and a scope, the namespace it was declared in.
Metadata writes the segments of a scope either as `pkg__msg` or as `pkg::msg`;
the two spellings name the same scope.  This file rewrites the first spelling
into the second and derives the two names the compiler needs: the qualified
name, which identifies a type, and the mangled name, which is emitted.
-/

namespace Metastring

/-- Replace every `__` by `::`.  Pairs are taken from the left and do not
overlap, so a third underscore in a row stays as it is. -/
def joinScopes : List Char → List Char
  | '_' :: '_' :: rest => ':' :: ':' :: joinScopes rest
  | letter :: rest => letter :: joinScopes rest
  | [] => []

/-- The name of a message type together with the scope that declares it. -/
@[ext]
structure ScopedName where
  scope : String
  name : String
deriving DecidableEq, Inhabited

namespace ScopedName

/-- The scope in its `::` spelling. -/
def canonicalScope (type : ScopedName) : String :=
  String.ofList (joinScopes type.scope.toList)

/-- The name that identifies a type: the canonical scope and the bare name,
joined by `::` unless the scope is empty. -/
def qualified (type : ScopedName) : String :=
  if type.scope = "" then type.name
  else type.canonicalScope ++ "::" ++ type.name

/-- The name emitted for a type: `dds_::` goes between the scope and the bare
name, and an underscore closes the bare name. -/
def mangled (type : ScopedName) : String :=
  (if type.scope = "" then "" else type.canonicalScope ++ "::") ++
    "dds_::" ++ type.name ++ "_"

end ScopedName

end Metastring
