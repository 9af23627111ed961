import Metastring.Yaml.Event

/-!
# A YAML document

The text of a file holds one document, a list of items in which every node
stands where it is written.  An anchored node is filed in a slot, and an alias
refers to the slot that the name had in front of the alias.  The slot of a
node is the number of names known so far, so a name that is used again may
share its new slot with a name that comes later; of the nodes in a slot the
last one counts, for all aliases.
-/

namespace Metastring.Yaml

/-- The items of a document. -/
inductive Item where
  | alias (slot : Nat)
  | scalar (tag : Option (List UInt8)) (style : Style) (content : List Char)
  | sequenceStart (tag : Option (List UInt8))
  | sequenceEnd
  | mappingStart (tag : Option (List UInt8))
  | mappingEnd
deriving DecidableEq, Inhabited

/-- The slots of the known names, and the places of the nodes in the slots,
the last one of each slot first. -/
structure Anchors where
  slots : List (List Char × Nat) := []
  places : List (Nat × Nat) := []
deriving DecidableEq, Inhabited

namespace Anchors

def slot? (anchors : Anchors) (name : List Char) : Option Nat :=
  anchors.slots.lookup name

/-- File the node at a place, if it has a name. -/
def file (anchors : Anchors) (name : Option (List Char)) (place : Nat) :
    Anchors :=
  match name with
  | none => anchors
  | some name =>
    let slot := anchors.slots.length
    { slots := (name, slot) :: anchors.slots.filter (·.1 ≠ name)
      places := (slot, place) :: anchors.places }

end Anchors

namespace Event

/-- The name of the node that begins here, if it has one. -/
def anchor : Event → Option (List Char)
  | .scalar properties _ _ | .sequenceStart properties
  | .mappingStart properties => properties.anchor
  | .alias _ | .sequenceEnd | .mappingEnd => none

/-- The item of an event; an alias with an unknown name has none. -/
def item? (anchors : Anchors) : Event → Option Item
  | .alias name => (anchors.slot? name).map .alias
  | .scalar properties style content =>
    some (.scalar properties.tag style content)
  | .sequenceStart properties => some (.sequenceStart properties.tag)
  | .sequenceEnd => some .sequenceEnd
  | .mappingStart properties => some (.mappingStart properties.tag)
  | .mappingEnd => some .mappingEnd

end Event

/-- A document as far as it could be read.  A whole one was read up to the end
of the text, without a fault. -/
structure Document where
  items : List Item
  places : List (Nat × Nat)
  isWhole : Bool
deriving Inhabited

namespace Document

/-- The items from the node in a slot on. -/
def itemsAt (document : Document) (slot : Nat) : List Item :=
  match document.places.lookup slot with
  | none => []
  | some place => document.items.drop place

/-- The document made of the given events, the first of which has the given
place.  An alias with an unknown name is a fault. -/
def ofEvents (isWhole : Bool) (anchors : Anchors) (place : Nat) :
    List Event → Document
  | [] => ⟨[], anchors.places, isWhole⟩
  | event :: rest =>
    match event.item? anchors with
    | none => ⟨[], anchors.places, false⟩
    | some item =>
      let document :=
        ofEvents isWhole (anchors.file event.anchor place) (place + 1) rest
      { document with items := item :: document.items }

end Document

/-- Whether nothing but end markers stands in front of the end of the
stream. -/
def isEnd : List Token → Bool
  | .documentEnd :: rest => isEnd rest
  | tokens => tokens = [.streamEnd]

def document (text : List Char) : Document :=
  let (events, rest) := documentEvents (tokens text)
  Document.ofEvents (rest.any isEnd) {} 0 events

end Metastring.Yaml
