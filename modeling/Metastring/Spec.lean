import Metastring.Layout

/-!
# Message specifications

A message specification is what a descriptor file says: a message type whose
members have declared kinds and carry the blocks written inside them.  Seen as
a descriptor it has the same content; a nested block is kept whatever the kind
of its member.
-/

namespace Metastring

/-- A message type as a descriptor file specifies it. -/
inductive MessageSpec where
  | mk (layout : Layout DeclaredKind MessageSpec)

/-- A member of a message specification. -/
abbrev MemberSpec := Member DeclaredKind MessageSpec

namespace MessageSpec

def layout : MessageSpec → Layout DeclaredKind MessageSpec
  | mk layout => layout

def type (spec : MessageSpec) : ScopedName :=
  spec.layout.type

def members (spec : MessageSpec) : List MemberSpec :=
  spec.layout.members

/-- The specification one level deep, with the kinds as the compiler knows
them. -/
def description (spec : MessageSpec) : Layout Kind MessageSpec where
  type := spec.type
  members := spec.members.map fun member =>
    ⟨member.name, member.kind.kind, member.shape, member.nested⟩

end MessageSpec

mutual

/-- The descriptor with the content of a specification. -/
def MessageSpec.descriptor : MessageSpec → Descriptor
  | .mk ⟨type, members⟩ => .mk ⟨type, memberDescriptors members⟩
termination_by structural spec => spec

/-- The members of a descriptor with the content of specified members. -/
def memberDescriptors : List MemberSpec → List (Member Kind Descriptor)
  | [] => []
  | member :: rest => memberDescriptor member :: memberDescriptors rest
termination_by structural members => members

/-- The member of a descriptor with the content of a specified member. -/
def memberDescriptor : MemberSpec → Member Kind Descriptor
  | ⟨name, kind, shape, none⟩ => ⟨name, kind.kind, shape, none⟩
  | ⟨name, kind, shape, some nested⟩ =>
    ⟨name, kind.kind, shape, some nested.descriptor⟩
termination_by structural member => member

end

/-- The number of message levels of a specification, its own included. -/
def MessageSpec.levels (spec : MessageSpec) : Nat :=
  spec.descriptor.height

end Metastring
