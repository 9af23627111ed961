import Metastring.Draft
import Metastring.Json.Skip

/-!
# Message specifications in JSON

A specification is read while the text is read, so of two faults the one that
comes first in the text is reported.  Messages and members are written either
as objects, whose unknown keys are passed over, or as arrays of their fields in
declaration order, of which a tail of optional ones may be left out.  The
brackets that are read, in contrast to those that are passed over, may be
nested to a limited number of levels.
-/

namespace Metastring.Json

/-- The number of brackets that may be open at once. -/
def levelLimit : Nat := 127

/-- Why a value, which starts the text, is not the wanted one.  The value is
read as far as it takes to see that it is one. -/
def wrongValue (wanted : Wanted) (text : List Char) : DecodeError :=
  let afterwards {α : Type} (reading : Decoded α) : DecodeError :=
    match reading with
    | .ok _ => .expected wanted
    | .error error => error
  match text with
  | '[' :: _ | '\x7b' :: _ => .expected wanted
  | 'n' :: rest => afterwards (afterWord ['u', 'l', 'l'] rest)
  | 't' :: rest => afterwards (afterWord ['r', 'u', 'e'] rest)
  | 'f' :: rest => afterwards (afterWord ['a', 'l', 's', 'e'] rest)
  | '"' :: rest => afterwards (quoted rest)
  | text => afterwards (finiteNumber text)

def readTextAs (wanted : Wanted) (text : List Char) : Decoded (String × List Char) :=
  match skipSpace text with
  | '"' :: rest => quoted rest
  | text => .error (wrongValue wanted text)

def readFlag (text : List Char) : Decoded (Bool × List Char) :=
  match skipSpace text with
  | 't' :: rest => do return (true, ← afterWord ['r', 'u', 'e'] rest)
  | 'f' :: rest => do return (false, ← afterWord ['a', 'l', 's', 'e'] rest)
  | text => .error (wrongValue .boolean text)

def readSize (text : List Char) : Decoded (UInt64 × List Char) :=
  let text := skipSpace text
  match finiteNumber text with
  | .error _ => .error (wrongValue .size text)
  | .ok (value, rest) =>
    match value.size? with
    | some size => .ok (size, rest)
    | none => .error (.expected .size)

/-- Read a kind: its spelling, or an object from its spelling to null. -/
def readKindWithin (levels : Nat) (text : List Char) :
    Decoded (DeclaredKind × List Char) :=
  match skipSpace text with
  | '"' :: rest => do
    let (spelling, rest) ← quoted rest
    return (← readKind spelling, rest)
  | '\x7b' :: rest =>
    if levels = 0 then .error .malformed
    else do
      let (spelling, rest) ← readTextAs .kindName rest
      let kind ← readKind spelling
      let rest ← afterColon rest
      let rest ← match skipSpace rest with
        | 'n' :: rest => afterWord ['u', 'l', 'l'] rest
        | text => .error (wrongValue .unit text)
      return (kind, ← afterWord ['\x7d'] (skipSpace rest))
  | _ => .error .malformed

/-- Read a block that may be null. -/
def readBlock (read : List Char → Decoded (MessageSpec × List Char))
    (text : List Char) :
    Decoded (Option MessageSpec × List Char) :=
  match skipSpace text with
  | 'n' :: rest => do return (none, ← afterWord ['u', 'l', 'l'] rest)
  | text => (read text).map fun (message, rest) => (some message, rest)

/-! ## Objects and arrays -/

section Brackets

variable {α δ : Type}

/-- Read a key and hand it on with the draft and the text behind the key. -/
def fieldAt (field : String → δ → List Char → Decoded (δ × List Char))
    (draft : δ)
    (text : List Char) : Decoded (δ × List Char) := do
  let text ← afterWord ['"'] (skipSpace text)
  let (key, rest) ← quoted text
  field key draft rest

/-- Read the fields behind a field, at most `bound` of them. -/
def fieldsWithin (field : String → δ → List Char → Decoded (δ × List Char)) :
    (bound : Nat) → δ → List Char → Decoded (δ × List Char)
  | 0, _, _ => .error .malformed
  | bound + 1, draft, text =>
    match skipSpace text with
    | '\x7d' :: rest => .ok (draft, rest)
    | ',' :: text => do
      let (draft, rest) ← fieldAt field draft text
      fieldsWithin field bound draft rest
    | _ => .error .malformed

/-- Read the fields of an object from behind its brace. -/
def fields (field : String → δ → List Char → Decoded (δ × List Char))
    (draft : δ)
    (text : List Char) : Decoded (δ × List Char) :=
  match skipSpace text with
  | '\x7d' :: rest => .ok (draft, rest)
  | text => do
    let (draft, rest) ← fieldAt field draft text
    fieldsWithin field (rest.length + 1) draft rest

/-- Read the elements behind an element, at most `bound` of them. -/
def elementsWithin (read : List Char → Decoded (α × List Char)) :
    (bound : Nat) → List Char → Decoded (List α × List Char)
  | 0, _ => .error .malformed
  | bound + 1, text =>
    match skipSpace text with
    | ']' :: rest => .ok ([], rest)
    | ',' :: text => do
      let (value, rest) ← read text
      let (values, rest) ← elementsWithin read bound rest
      return (value :: values, rest)
    | _ => .error .malformed

/-- Read the elements of an array from behind its bracket. -/
def elements (read : List Char → Decoded (α × List Char)) (text : List Char) :
    Decoded (List α × List Char) :=
  match skipSpace text with
  | ']' :: rest => .ok ([], rest)
  | text => do
    let (value, rest) ← read text
    let (values, rest) ← elementsWithin read (rest.length + 1) rest
    return (value :: values, rest)

/-- Read the element at a position of an array, unless the array ends there.
The first element has no comma before it. -/
def element (read : List Char → Decoded (α × List Char)) (isFirst : Bool)
    (text : List Char) : Decoded (Option α × List Char) :=
  match skipSpace text with
  | ']' :: _ => .ok (none, text)
  | text => do
    let text ← if isFirst then pure text else afterWord [','] text
    let (value, rest) ← read text
    return (some value, rest)

/-- Read an object or an array. -/
def structured (wanted : Wanted) (object array : List Char → Decoded (α × List Char))
    (text : List Char) : Decoded (α × List Char) :=
  match skipSpace text with
  | '\x7b' :: rest => object rest
  | '[' :: rest => array rest
  | text => .error (wrongValue wanted text)

def listed (array : List Char → Decoded (α × List Char)) (text : List Char) :
    Decoded (α × List Char) :=
  match skipSpace text with
  | '[' :: rest => array rest
  | text => .error (wrongValue .list text)

/-- The answer where no further bracket may be opened. -/
def tooDeep (_ : List Char) : Decoded (α × List Char) :=
  .error .malformed

end Brackets

/-! ## Messages -/

def messageField (readMembers : List Char → Decoded (List MemberSpec × List Char))
    (key : String) (draft : MessageDraft) (text : List Char) :
    Decoded (MessageDraft × List Char) :=
  match MessageField.ofKey? key with
  | none => do
    let text ← afterColon text
    return (draft, ← skipValue text)
  | some field =>
    if draft.has field then .error (.duplicateField field.key)
    else do
      let text ← afterColon text
      match field with
      | .scope =>
        let (value, rest) ← readTextAs .text text
        return ({ draft with scope := some value }, rest)
      | .name =>
        let (value, rest) ← readTextAs .text text
        return ({ draft with name := some value }, rest)
      | .members =>
        let (value, rest) ← readMembers text
        return ({ draft with members := some value }, rest)

/-- Read a message from behind the brace of an object. -/
def messageObject (readMembers : List Char → Decoded (List MemberSpec × List Char))
    (text : List Char) : Decoded (MessageSpec × List Char) := do
  let (draft, rest) ← fields (messageField readMembers) {} text
  return (← draft.complete, rest)

/-- Read a message from behind the bracket of an array. -/
def messageArray (readMembers : List Char → Decoded (List MemberSpec × List Char))
    (text : List Char) : Decoded (MessageSpec × List Char) := do
  let (scope, text) ← element (readTextAs .text) true text
  let (name, text) ← element (readTextAs .text) scope.isNone text
  if name.isNone then .error (.expected .messageFields)
  else
    let (members, text) ← element readMembers false text
    let draft : MessageDraft := ⟨scope, name, members⟩
    return (← draft.complete, ← afterWord [']'] (skipSpace text))

/-! ## Members -/

def memberField (levels : Nat)
    (readMessage : List Char → Decoded (MessageSpec × List Char))
    (key : String) (draft : MemberDraft) (text : List Char) :
    Decoded (MemberDraft × List Char) :=
  match MemberField.ofKey? key with
  | none => do
    let text ← afterColon text
    return (draft, ← skipValue text)
  | some field =>
    if draft.has field then .error (.duplicateField field.key)
    else do
      let text ← afterColon text
      match field with
      | .name =>
        let (value, rest) ← readTextAs .text text
        return ({ draft with name := some value }, rest)
      | .kind =>
        let (value, rest) ← readKindWithin levels text
        return ({ draft with kind := some value }, rest)
      | .isArray =>
        let (value, rest) ← readFlag text
        return ({ draft with isArray := some value }, rest)
      | .arraySize =>
        let (value, rest) ← readSize text
        return ({ draft with arraySize := some value }, rest)
      | .isUpperBound =>
        let (value, rest) ← readFlag text
        return ({ draft with isUpperBound := some value }, rest)
      | .message =>
        let (value, rest) ← readBlock readMessage text
        return ({ draft with message := some value }, rest)

/-- Read a member from behind the brace of an object. -/
def memberObject (levels : Nat)
    (readMessage : List Char → Decoded (MessageSpec × List Char)) (text : List Char) :
    Decoded (MemberSpec × List Char) := do
  let (draft, rest) ← fields (memberField levels readMessage) {} text
  return (← draft.complete, rest)

/-- Read a member from behind the bracket of an array. -/
def memberArray (levels : Nat)
    (readMessage : List Char → Decoded (MessageSpec × List Char))
    (text : List Char) : Decoded (MemberSpec × List Char) := do
  let (name, text) ← element (readTextAs .text) true text
  if name.isNone then .error (.expected .memberFields)
  else
    let (kind, text) ← element (readKindWithin levels) false text
    if kind.isNone then .error (.expected .memberFields)
    else
      let (isArray, text) ← element readFlag false text
      let (arraySize, text) ← element readSize false text
      let (isUpperBound, text) ← element readFlag false text
      let (message, text) ← element (readBlock readMessage) false text
      let draft : MemberDraft :=
        ⟨name, kind, isArray, arraySize, isUpperBound, message⟩
      return (← draft.complete, ← afterWord [']'] (skipSpace text))

/-! ## Documents -/

mutual

/-- Read a message while `levels` more brackets may be opened. -/
def readMessage : (levels : Nat) → List Char → Decoded (MessageSpec × List Char)
  | 0 => structured .message tooDeep tooDeep
  | levels + 1 =>
    structured .message (messageObject (readMembers levels))
      (messageArray (readMembers levels))

/-- Read the members of a message while `levels` more brackets may be
opened. -/
def readMembers : (levels : Nat) → List Char → Decoded (List MemberSpec × List Char)
  | 0 => listed tooDeep
  | levels + 1 => listed (elements (readMember levels))

/-- Read a member while `levels` more brackets may be opened. -/
def readMember : (levels : Nat) → List Char → Decoded (MemberSpec × List Char)
  | 0 => structured .member tooDeep tooDeep
  | levels + 1 =>
    structured .member (memberObject levels (readMessage levels))
      (memberArray levels (readMessage levels))

end

/-- Read a document that consists of one message. -/
def readSpec (text : String) : Decoded MessageSpec := do
  let (spec, rest) ← readMessage levelLimit text.toList
  if skipSpace rest = [] then return spec else .error .malformed

end Metastring.Json
