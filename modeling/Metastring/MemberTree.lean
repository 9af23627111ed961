import Metastring.CompileError
import Metastring.Layout

/-!
# The member tree

A descriptor can be shown as an indented tree, two blanks per level: a line for
each message with its mangled name and member count, and below it a line for
each member with its name, container, kind and code.  The tree of a nested
message follows the line of its member, one level deeper than the member.
Recursive nesting and unknown kinds are shown like anything else; only a
missing nested message leaves nothing to show.
-/

namespace Metastring

/-- The blanks in front of a line at the given depth. -/
def indentation (depth : Nat) : String :=
  String.join (List.replicate depth "  ")

/-- How a container is shown behind a member's name. -/
def Container.mark : Container → String
  | .single => ""
  | .array size => "[" ++ decimal size.toNat ++ "]"
  | .boundedSequence maximum => "<=" ++ decimal maximum.toNat
  | .unboundedSequence => "[]"

/-- How a kind is named in the tree. -/
def Kind.label : Kind → String
  | .leaf type => type.label
  | .message => "Message"
  | .unknown id => "Unknown(" ++ decimal id.toNat ++ ")"

def ScopedName.treeLine (type : ScopedName) (depth count : Nat) : String :=
  indentation depth ++ type.mangled ++ " (" ++ decimal count ++ " members)\n"

/-- The line of a member of a message at the given depth. -/
def Member.treeLine {ρ : Type} (member : Member Kind ρ) (depth : Nat) :
    String :=
  indentation (depth + 1) ++ member.name ++ member.shape.container.mark ++
    ": " ++ member.kind.label ++ " '" ++
    (member.kind.code?.getD '-').toString ++ "'\n"

mutual

def Descriptor.treeAt (depth : Nat) :
    Descriptor → Except CompileError String
  | .mk ⟨type, members⟩ =>
    (membersTree depth members).map
      (type.treeLine depth members.length ++ ·)
termination_by structural descriptor => descriptor

def membersTree (depth : Nat) :
    List (Member Kind Descriptor) → Except CompileError String
  | [] => .ok ""
  | member :: rest => do
    let nested ← nestedTree depth member
    let others ← membersTree depth rest
    return member.treeLine depth ++ nested ++ others
termination_by structural members => members

/-- The lines below a member of a message at the given depth. -/
def nestedTree (depth : Nat) :
    Member Kind Descriptor → Except CompileError String
  | ⟨_, .message, _, some nested⟩ => nested.treeAt (depth + 2)
  | ⟨name, .message, _, none⟩ => .error (.missingNested name)
  | ⟨_, .leaf _, _, _⟩ | ⟨_, .unknown _, _, _⟩ => .ok ""
termination_by structural member => member

end

/-- The member tree of a descriptor. -/
def Descriptor.tree (descriptor : Descriptor) : Except CompileError String :=
  descriptor.treeAt 0

end Metastring
