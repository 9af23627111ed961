import Metastring.Draft
import Metastring.Utf8
import Metastring.Yaml.Document
import Metastring.Yaml.Resolution

/-!
# Message specifications in YAML

A specification is read item by item, so of two faults the one that comes first
in the document is reported.  Messages and members are mappings, whose unknown
keys are passed over; an empty plain scalar counts as an empty collection.
Every scalar is a text, however it is written, while truth values, sizes and
null have to be written plainly.

Aliases are followed where something is read.  Their number and the number of
collections that are read inside each other are limited, so a node that
contains itself cannot be read.
-/

namespace Metastring.Yaml

/-- The number of collections that may be open at once. -/
def levelLimit : Nat := 128

/-- What is still to be read: the items ahead, and how many aliases may yet be
followed. -/
structure Ahead where
  items : List Item
  aliases : Nat
deriving Inhabited

/-! ## Nodes -/

def standardTag (name : String) : List UInt8 :=
  Utf8.encode ("tag:yaml.org,2002:" ++ name)

/-- What a standard tag demands of a scalar with other content. -/
def demanded? (tag : Option (List UInt8)) (content : List Char) :
    Option Wanted :=
  if tag = some (standardTag "bool") then
    if (flag? content).isSome then none else some .boolean
  else if tag = some (standardTag "int") then
    if isInteger content then none else some .integer
  else if tag = some (standardTag "float") then
    if isFloat content then none else some .float
  else if tag = some (standardTag "null") then
    if isNull content then none else some .null
  else none

/-- Why a node, given by its first item, is not the wanted one.  If it does not
agree with its own tag, that is the reason. -/
def wrongNode (wanted : Wanted) : Item → DecodeError
  | .scalar tag _ content => .expected ((demanded? tag content).getD wanted)
  | .sequenceStart _ | .mappingStart _ => .expected wanted
  | .alias _ | .sequenceEnd | .mappingEnd => .malformed

/-- The items behind the node that the items begin with; `depth` collections
around it are to be closed as well. -/
def skipNode (depth : Nat) : List Item → Decoded (List Item)
  | [] => .error .malformed
  | .sequenceStart _ :: rest | .mappingStart _ :: rest =>
    skipNode (depth + 1) rest
  | .sequenceEnd :: rest | .mappingEnd :: rest =>
    if depth ≤ 1 then .ok rest else skipNode (depth - 1) rest
  | .scalar .. :: rest | .alias _ :: rest =>
    if depth = 0 then .ok rest else skipNode depth rest

section Nodes

variable {α δ : Type} (document : Document)

/-- Read a node, which is given to `read` by its first item and what follows.
An alias is replaced by the node that it refers to. -/
def atNode (read : Item → Ahead → Decoded (α × Ahead)) (ahead : Ahead) :
    Decoded (α × Ahead) :=
  match ahead.items with
  | [] => .error .malformed
  | .alias slot :: rest =>
    match ahead.aliases, document.itemsAt slot with
    | aliases + 1, item :: inside => do
      let (value, behind) ← read item ⟨inside, aliases⟩
      return (value, ⟨rest, behind.aliases⟩)
    | _, _ => .error .malformed
  | item :: rest => read item ⟨rest, ahead.aliases⟩

/-! ## Scalars -/

def readText (wanted : Wanted) (item : Item) (ahead : Ahead) :
    Decoded (String × Ahead) :=
  match item with
  | .scalar _ _ content => .ok (String.ofList content, ahead)
  | item => .error (wrongNode wanted item)

/-- Whether a scalar counts as written plainly.  The tag makes up for the style
of a literal block. -/
def isPlain (schema : String) (tag : Option (List UInt8)) (style : Style) :
    Bool :=
  style = .plain || (style = .literal && tag = some (standardTag schema))

def readFlag (item : Item) (ahead : Ahead) : Decoded (Bool × Ahead) :=
  let value := match item with
    | .scalar tag style content =>
      if isPlain "bool" tag style then flag? content else none
    | _ => none
  match value with
  | some value => .ok (value, ahead)
  | none => .error (wrongNode .boolean item)

def readSize (item : Item) (ahead : Ahead) : Decoded (UInt64 × Ahead) :=
  let value := match item with
    | .scalar tag style content =>
      if isPlain "int" tag style then natural? content >>= size? else none
    | _ => none
  match value with
  | some value => .ok (value, ahead)
  | none => .error (wrongNode .size item)

/-- The kind named by a tag: its spelling stands behind an exclamation mark.
The mark alone names itself. -/
def taggedSpelling? : Option (List UInt8) → Option String
  | some [33] => some "!"
  | some (33 :: spelling) => (Utf8.decode spelling).toOption
  | _ => none

/-- Pass over the null that a tagged kind has for its content. -/
def readNull (item : Item) (ahead : Ahead) : Decoded (Unit × Ahead) :=
  match item with
  | .scalar _ style content =>
    if style = .plain && (content = [] || isNull content) then .ok ((), ahead)
    else .error (.expected .null)
  | item => .error (wrongNode .unit item)

/-- Read a kind: its spelling as a tag or as a text. -/
def readKindNode (item : Item) (ahead : Ahead) :
    Decoded (DeclaredKind × Ahead) := do
  let tag := match item with
    | .scalar tag _ _ | .sequenceStart tag | .mappingStart tag => tag
    | _ => none
  match taggedSpelling? tag, item with
  | some spelling, _ =>
    let kind ← readKind spelling
    let (_, ahead) ← readNull item ahead
    return (kind, ahead)
  | none, .scalar _ _ content => return (← readKind (String.ofList content), ahead)
  | none, _ => .error .malformed

/-- Read a node that may be absent: a plain scalar that is empty or null. -/
def readOptional (read : Item → Ahead → Decoded (α × Ahead)) (item : Item)
    (ahead : Ahead) : Decoded (Option α × Ahead) := do
  let isAbsent ← match item with
    | .scalar tag .plain content =>
      match tag with
      | none => pure (content = [] || isNull content : Bool)
      | some tag =>
        if tag ≠ standardTag "null" then pure false
        else if isNull content then pure true
        else .error (.expected .null)
    | _ => pure false
  if isAbsent then return (none, ahead)
  else do
    let (value, ahead) ← read item ahead
    return (some value, ahead)

/-! ## Collections -/

/-- Read the entries of a mapping, at most `bound` of them.  The key of an
entry is handed on with the draft and what follows the key. -/
def entriesWithin (field : String → δ → Ahead → Decoded (δ × Ahead)) :
    (bound : Nat) → δ → Ahead → Decoded (δ × Ahead)
  | 0, _, _ => .error .malformed
  | bound + 1, draft, ahead =>
    match ahead.items with
    | .mappingEnd :: rest => .ok (draft, ⟨rest, ahead.aliases⟩)
    | _ => do
      let (key, ahead) ← atNode document (readText .fieldName) ahead
      let (draft, ahead) ← field key draft ahead
      entriesWithin field bound draft ahead

def mapped (wanted : Wanted) (entries : δ → Ahead → Decoded (δ × Ahead))
    (draft : δ) (item : Item) (ahead : Ahead) : Decoded (δ × Ahead) :=
  match item with
  | .mappingStart _ => entries draft ahead
  | .scalar _ .plain [] => .ok (draft, ahead)
  | item => .error (wrongNode wanted item)

/-- Read the elements of a sequence, at most `bound` of them. -/
def elementsWithin (read : Item → Ahead → Decoded (α × Ahead)) :
    (bound : Nat) → Ahead → Decoded (List α × Ahead)
  | 0, _ => .error .malformed
  | bound + 1, ahead =>
    match ahead.items with
    | .sequenceEnd :: rest => .ok ([], ⟨rest, ahead.aliases⟩)
    | _ => do
      let (value, ahead) ← atNode document read ahead
      let (values, ahead) ← elementsWithin read bound ahead
      return (value :: values, ahead)

def listed (elements : Ahead → Decoded (List α × Ahead)) (item : Item)
    (ahead : Ahead) : Decoded (List α × Ahead) :=
  match item with
  | .sequenceStart _ => elements ahead
  | .scalar _ .plain [] => .ok ([], ahead)
  | item => .error (wrongNode .list item)

/-! ## Messages -/

def messageField
    (readMembers : Item → Ahead → Decoded (List MemberSpec × Ahead))
    (key : String) (draft : MessageDraft) (ahead : Ahead) :
    Decoded (MessageDraft × Ahead) :=
  match MessageField.ofKey? key with
  | none => do
    return (draft, ⟨← skipNode 0 ahead.items, ahead.aliases⟩)
  | some field =>
    if draft.has field then .error (.duplicateField field.key)
    else
      match field with
      | .scope => do
        let (value, ahead) ← atNode document (readText .text) ahead
        return ({ draft with scope := some value }, ahead)
      | .name => do
        let (value, ahead) ← atNode document (readText .text) ahead
        return ({ draft with name := some value }, ahead)
      | .members => do
        let (value, ahead) ← atNode document readMembers ahead
        return ({ draft with members := some value }, ahead)

def messageEntries
    (readMembers : Item → Ahead → Decoded (List MemberSpec × Ahead))
    (draft : MessageDraft) (ahead : Ahead) : Decoded (MessageDraft × Ahead) :=
  entriesWithin document (messageField document readMembers)
    (ahead.items.length + 1) draft ahead

/-! ## Members -/

def memberField (readMessage : Item → Ahead → Decoded (MessageSpec × Ahead))
    (key : String) (draft : MemberDraft) (ahead : Ahead) :
    Decoded (MemberDraft × Ahead) :=
  match MemberField.ofKey? key with
  | none => do
    return (draft, ⟨← skipNode 0 ahead.items, ahead.aliases⟩)
  | some field =>
    if draft.has field then .error (.duplicateField field.key)
    else
      match field with
      | .name => do
        let (value, ahead) ← atNode document (readText .text) ahead
        return ({ draft with name := some value }, ahead)
      | .kind => do
        let (value, ahead) ← atNode document readKindNode ahead
        return ({ draft with kind := some value }, ahead)
      | .isArray => do
        let (value, ahead) ← atNode document readFlag ahead
        return ({ draft with isArray := some value }, ahead)
      | .arraySize => do
        let (value, ahead) ← atNode document readSize ahead
        return ({ draft with arraySize := some value }, ahead)
      | .isUpperBound => do
        let (value, ahead) ← atNode document readFlag ahead
        return ({ draft with isUpperBound := some value }, ahead)
      | .message => do
        let (value, ahead) ← atNode document (readOptional readMessage) ahead
        return ({ draft with message := some value }, ahead)

def memberEntries
    (readMessage : Item → Ahead → Decoded (MessageSpec × Ahead))
    (draft : MemberDraft) (ahead : Ahead) : Decoded (MemberDraft × Ahead) :=
  entriesWithin document (memberField document readMessage)
    (ahead.items.length + 1) draft ahead

end Nodes

/-! ## Documents -/

/-- The answer where no further collection may be opened. -/
def tooDeep {α : Type} : Decoded α :=
  .error .malformed

mutual

/-- Read a message while `levels` more collections may be opened. -/
def readMessage (document : Document) :
    (levels : Nat) → Item → Ahead → Decoded (MessageSpec × Ahead)
  | 0, item, ahead => do
    let (draft, ahead) ←
      mapped .message (fun _ _ => tooDeep) ({} : MessageDraft) item ahead
    return (← draft.complete, ahead)
  | levels + 1, item, ahead => do
    let (draft, ahead) ←
      mapped .message (messageEntries document (readMembers document levels))
        {} item ahead
    return (← draft.complete, ahead)

/-- Read the members of a message while `levels` more collections may be
opened. -/
def readMembers (document : Document) :
    (levels : Nat) → Item → Ahead → Decoded (List MemberSpec × Ahead)
  | 0, item, ahead => listed (fun _ => tooDeep) item ahead
  | levels + 1, item, ahead =>
    listed (fun ahead =>
      elementsWithin document (readMember document levels)
        (ahead.items.length + 1) ahead) item ahead

/-- Read a member while `levels` more collections may be opened. -/
def readMember (document : Document) :
    (levels : Nat) → Item → Ahead → Decoded (MemberSpec × Ahead)
  | 0, item, ahead => do
    let (draft, ahead) ←
      mapped .member (fun _ _ => tooDeep) ({} : MemberDraft) item ahead
    return (← draft.complete, ahead)
  | levels + 1, item, ahead => do
    let (draft, ahead) ←
      mapped .member (memberEntries document (readMessage document levels))
        {} item ahead
    return (← draft.complete, ahead)

end

/-- Read a specification from a document.  Every item allows for a hundred
aliases to be followed. -/
def specOf (document : Document) : Decoded MessageSpec := do
  let ahead : Ahead := ⟨document.items, 100 * document.items.length⟩
  let (spec, _) ← atNode document (readMessage document levelLimit) ahead
  if document.isWhole then return spec else .error .malformed

/-- Read a text that consists of one message. -/
def readSpec (text : String) : Decoded MessageSpec :=
  specOf (document text.toList)

end Metastring.Yaml
