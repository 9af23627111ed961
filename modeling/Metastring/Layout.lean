import Metastring.Container
import Metastring.Kind
import Metastring.ScopedName

/-!
# One level of a message type

A layout is a message type seen one level deep: its name and its members, with
each nested message represented by a reference.  The type of references is a
parameter.  A tree of descriptors refers to further trees, raw metadata refers
to handles that still have to be resolved, and a descriptor file refers to the
blocks written inside it.  The vocabulary of member kinds is a parameter too.
-/

namespace Metastring

/-- A member whose kind is drawn from `κ` and whose nested message, if there is
one, is referred to by a value of type `ρ`. -/
structure Member (κ ρ : Type) where
  name : String
  kind : κ
  shape : Shape := {}
  nested : Option ρ := none

/-- A message type, one level deep. -/
structure Layout (κ ρ : Type) where
  type : ScopedName
  members : List (Member κ ρ)

/-- A message type with all its nested types.  A nested reference may stand
beside any kind; it has a meaning only for members of kind message. -/
inductive Descriptor where
  | mk (layout : Layout Kind Descriptor)

namespace Descriptor

def layout : Descriptor → Layout Kind Descriptor
  | mk layout => layout

end Descriptor

mutual

/-- The number of message levels of a descriptor, its own included. -/
def Descriptor.height : Descriptor → Nat
  | .mk ⟨_, members⟩ => membersHeight members + 1
termination_by structural descriptor => descriptor

/-- The number of message levels below a list of members. -/
def membersHeight : List (Member Kind Descriptor) → Nat
  | [] => 0
  | member :: rest => max (memberHeight member) (membersHeight rest)
termination_by structural members => members

/-- The number of message levels below a member. -/
def memberHeight : Member Kind Descriptor → Nat
  | ⟨_, _, _, none⟩ => 0
  | ⟨_, _, _, some nested⟩ => nested.height
termination_by structural member => member

end

end Metastring
