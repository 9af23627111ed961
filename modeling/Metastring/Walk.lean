import Metastring.CompileError
import Metastring.Layout

/-!
# Walking a message type

A metastring lists the tokens of a message type depth first.  A message opens
with a token that gives its mangled name and the number of its members, and is
never closed: the counts alone delimit it.  A repeated member is preceded by a
container token that carries the member's name, so the element behind it is
anonymous.

The walk sees nested messages through references and a function that describes
them one level deep, so it serves trees, raw metadata and descriptor files
alike.  It keeps the qualified names of the messages that are open and refuses
to open one of them again.  Its budget is the number of messages that may
still be opened below the current one; where it is the number of names that
are not open yet, a message reached with no budget left repeats an open name.
-/

namespace Metastring

/-- What a caller can choose about a compilation. -/
structure Options where
  /-- The maximum emitted for sequences declared without a bound. -/
  unboundedMaximum : UInt64 := 128
deriving DecidableEq, Inhabited

/-- The version mark in front of every metastring. -/
def formatVersion : String := "v1"

/-- The field that carries a member's name. -/
def nameField (name : String) : String :=
  "name=" ++ name ++ "_"

/-- The token in front of a repeated member; a single member has none. -/
def Container.token (options : Options) (name : String) : Container → String
  | .single => ""
  | .array size =>
    "[(" ++ nameField name ++ ",dimension=" ++ decimal size.toNat ++ ")"
  | .boundedSequence maximum =>
    "<(" ++ nameField name ++ ",maximum=" ++ decimal maximum.toNat ++ ")"
  | .unboundedSequence =>
    "<(" ++ nameField name ++ ",maximum=" ++
      decimal options.unboundedMaximum.toNat ++ ")"

/-- The token of a leaf, with the member's name unless it is anonymous. -/
def Leaf.token (leaf : Leaf) (label : Option String) : String :=
  leaf.code.toString ++ "(" ++ (label.map nameField).getD "" ++ ")"

/-- The token that opens a message, with the member's name unless it is
anonymous. -/
def Layout.token {κ ρ : Type} (layout : Layout κ ρ) (label : Option String) :
    String :=
  "\x7b(" ++ (label.map fun name => nameField name ++ ",").getD "" ++
    "type=" ++ layout.type.mangled ++
    ",member=" ++ decimal layout.members.length ++ ")"

/-- The name a member's own token shows: none inside a container, whose token
has shown it already. -/
def Member.label {κ ρ : Type} (member : Member κ ρ) : Option String :=
  if member.shape.container = .single then some member.name else none

/-- The tokens of one member.  `nested` walks the message that a reference
leads to under the given label. -/
def Member.segment {ρ : Type} (options : Options)
    (nested : Option String → ρ → Except CompileError String)
    (member : Member Kind ρ) : Except CompileError String :=
  let opening := member.shape.container.token options member.name
  match member.kind with
  | .leaf leaf => .ok (opening ++ leaf.token member.label)
  | .unknown id => .error (.unsupportedType member.name id)
  | .message =>
    match member.nested with
    | none => .error (.missingNested member.name)
    | some reference => (nested member.label reference).map (opening ++ ·)

/-- The tokens of a message below messages with the qualified names `opened`.
The first fault in depth-first declaration order is the outcome. -/
def walk {ρ : Type} (options : Options)
    (describe : ρ → Except CompileError (Layout Kind ρ)) :
    (budget : Nat) → (opened : List String) → (label : Option String) →
      (layout : Layout Kind ρ) → Except CompileError String
  | 0, _, _, layout => .error (.recursiveType layout.type.qualified)
  | budget + 1, opened, label, layout =>
    if layout.type.qualified ∈ opened then
      .error (.recursiveType layout.type.qualified)
    else do
      let segments ← layout.members.mapM
        (Member.segment options fun label reference => do
          walk options describe budget (layout.type.qualified :: opened) label
            (← describe reference))
      return layout.token label ++ String.join segments

/-- The metastring of a message type, given enough budget for all messages
that can be open at once. -/
def metastring {ρ : Type} (options : Options)
    (describe : ρ → Except CompileError (Layout Kind ρ)) (budget : Nat)
    (layout : Layout Kind ρ) : Except CompileError String :=
  (walk options describe budget [] none layout).map (formatVersion ++ ·)

/-- The metastring of a descriptor.  No more messages can be open at once than
the descriptor has levels. -/
def Descriptor.metastring (options : Options) (descriptor : Descriptor) :
    Except CompileError String :=
  Metastring.metastring options (fun nested => .ok nested.layout)
    descriptor.height descriptor.layout

end Metastring
