import Metastring.Compile

/-!
# Raw introspection metadata

Generated metadata is a finite graph of handles and messages that refer to one
another, with cycles and nulls wherever a reference or a text is expected.
Messages are normalised one at a time, when the walk reaches them: texts are
decoded, kinds are read off their numbers, and the whole member table is
checked before any of its members is followed.  A nested handle that carries
another identifier than the flavor being walked is replaced by what its lookup
returns for that flavor.
-/

namespace Metastring

/-- A text in raw metadata: bytes up to the first zero byte, or null. -/
abbrev RawText := Option (List UInt8)

/-- A member as raw metadata states it.  References to handles are of type
`η`. -/
structure RawMember (η : Type) where
  name : RawText
  typeId : UInt8
  nested : Option η
  shape : Shape
  /-- The bound of a string type, which no metastring shows. -/
  stringBound : UInt64 := 0

/-- A message as raw metadata states it.  Only the first `count` entries of the
table are members. -/
structure RawMessage (η : Type) where
  scope : RawText
  name : RawText
  count : Nat
  table : Option (List (RawMember η))

/-- A type support handle: its identifier, its message, and the handles that
its lookup returns for each flavor. -/
structure Handle (η μ : Type) where
  identifier : RawText
  data : Option μ
  lookup : Flavor → Option η

/-- Raw metadata with the given numbers of handles and messages. -/
structure Introspection (handles messages : Nat) where
  handle : Fin handles → Handle (Fin handles) (Fin messages)
  message : Fin messages → RawMessage (Fin handles)

namespace RawText

/-- The text, with null read as the empty text. -/
def decode (text : RawText) : Except CompileError String :=
  match text with
  | none => .ok ""
  | some bytes =>
    (Utf8.decode (bytes.takeWhile (· ≠ 0))).mapError .invalidUtf8

end RawText

namespace RawMessage

variable {η : Type}

/-- The members from the given index on.  A member has to have a name, and a
nested handle counts only beside the kind message. -/
def membersFrom (message : String) (index : Nat) :
    List (RawMember η) → Except CompileError (List (Member Kind η))
  | [] => .ok []
  | member :: rest =>
    match member.name with
    | none => .error (.nullMemberName message index)
    | some bytes => do
      let name ← RawText.decode (some bytes)
      let kind := Kind.ofId member.typeId
      let nested := if kind = .message then member.nested else none
      let others ← membersFrom message (index + 1) rest
      return ⟨name, kind, member.shape, nested⟩ :: others

/-- The members of a message with the given decoded name.  Without members the
table is not looked at. -/
def members (message : RawMessage η) (name : String) :
    Except CompileError (List (Member Kind η)) :=
  if message.count = 0 then .ok []
  else
    match message.table with
    | none => .error (.nullMembers name message.count)
    | some table => membersFrom name 0 (table.take message.count)

/-- The message one level deep. -/
def layout (message : RawMessage η) :
    Except CompileError (Layout Kind η) := do
  let scope ← message.scope.decode
  let name ← message.name.decode
  let members ← message.members name
  return ⟨⟨scope, name⟩, members⟩

end RawMessage

namespace Introspection

variable {handles messages : Nat}

/-- The layout of the message at a reference that may be null. -/
def layoutOf (metadata : Introspection handles messages)
    (message : Option (Fin messages)) :
    Except CompileError (Layout Kind (Fin handles)) :=
  match message with
  | none => .error .nullHandle
  | some message => (metadata.message message).layout

/-- A handle of the wanted flavor: the given one if it carries the flavor's
identifier, or else the one its lookup returns. -/
def flavored (metadata : Introspection handles messages) (flavor : Flavor)
    (handle : Fin handles) : Except CompileError (Fin handles) := do
  let identifier ← (metadata.handle handle).identifier.decode
  if identifier = flavor.identifier then return handle
  match (metadata.handle handle).lookup flavor with
  | none => .error (.unknownFlavor identifier)
  | some resolved => return resolved

/-- The layout of the message that a nested handle leads to. -/
def describe (metadata : Introspection handles messages) (flavor : Flavor)
    (handle : Fin handles) :
    Except CompileError (Layout Kind (Fin handles)) := do
  let resolved ← metadata.flavored flavor handle
  metadata.layoutOf (metadata.handle resolved).data

/-- The qualified names of all messages that have a layout, each once. -/
def names (metadata : Introspection handles messages) : List String :=
  ((List.finRange messages).filterMap fun message =>
    (metadata.message message).layout.toOption.map
      (·.type.qualified)).eraseDups

/-- Compile a message of the flavor with the given identifier.  No more
messages can be open at once than there are qualified names. -/
def tryCompileMessage (metadata : Introspection handles messages)
    (options : Options) (message : Option (Fin messages))
    (identifier : String) : Report :=
  match Flavor.ofIdentifier? identifier with
  | none => .failure (.unknownFlavor identifier)
  | some flavor =>
    match metadata.layoutOf message with
    | .error error => .failure error
    | .ok layout =>
      .ofLayout options (metadata.describe flavor) metadata.names.length layout

/-- Compile a message to a string that is empty on failure. -/
def compileMessage (metadata : Introspection handles messages)
    (options : Options) (message : Option (Fin messages))
    (identifier : String) : PlainReport :=
  (metadata.tryCompileMessage options message identifier).plain identifier

/-- Compile what a handle of another kind resolves to under the first of the
given flavors that its lookup knows. -/
def tryCompileResolved (metadata : Introspection handles messages)
    (options : Options) (handle : Fin handles) (identifier : String) :
    List Flavor → Report
  | [] => .failure (.unknownFlavor identifier)
  | flavor :: others =>
    match metadata.flavored flavor handle with
    | .ok resolved =>
      (metadata.tryCompileMessage options (metadata.handle resolved).data
        flavor.identifier).after (.resolved identifier flavor)
    | .error _ => metadata.tryCompileResolved options handle identifier others

/-- Compile what a handle describes.  A handle of a flavor is taken as it is;
any other is resolved, for C first. -/
def tryCompileHandle (metadata : Introspection handles messages)
    (options : Options) (handle : Option (Fin handles)) : Report :=
  match handle with
  | none => .failure .nullHandle
  | some handle =>
    match (metadata.handle handle).identifier.decode with
    | .error error => .failure error
    | .ok identifier =>
      match Flavor.ofIdentifier? identifier with
      | some _ =>
        metadata.tryCompileMessage options (metadata.handle handle).data
          identifier
      | none =>
        metadata.tryCompileResolved options handle identifier [.c, .cpp]

/-- Compile what a handle describes to a string that is empty on failure. -/
def compileHandle (metadata : Introspection handles messages)
    (options : Options) (handle : Option (Fin handles)) : PlainReport :=
  (metadata.tryCompileHandle options handle).plain "type support"

end Introspection

end Metastring
