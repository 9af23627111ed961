import Metastring.Proofs.FlowScalars
import Metastring.Proofs.Traversal
import Metastring.Yaml.Document

/-!
# Nodes in flow style

A node in flow style is a quoted text, a plain word, a sequence in brackets or
a mapping in braces whose keys are quoted texts.  Written without blanks it is
at the same time a value in JSON.

This file defines how such a node is written, which tokens it is split into and
which items it has in a document.
-/

namespace Metastring.Yaml

/-- An entry of a mapping. -/
structure FlowEntry (ν : Type) where
  key : List Char
  value : ν

inductive FlowNode where
  | quoted (content : List Char)
  | plain (content : List Char)
  | sequence (elements : List FlowNode)
  | mapping (entries : List (FlowEntry FlowNode))

/-- Parts in a row, with a separator between them. -/
def separated {α : Type} (separator : α) : List (List α) → List α
  | [] => []
  | part :: parts => part ++ parts.flatMap (separator :: ·)

namespace FlowNode

theorem sizeOf_element_lt {elements : List FlowNode} {element : FlowNode}
    (isElement : element ∈ elements) :
    sizeOf element < sizeOf (sequence elements) := by
  have smaller := List.sizeOf_lt_of_mem isElement
  simp only [sequence.sizeOf_spec]
  omega

theorem sizeOf_value_lt {entries : List (FlowEntry FlowNode)}
    {entry : FlowEntry FlowNode} (isEntry : entry ∈ entries) :
    sizeOf entry.value < sizeOf (mapping entries) := by
  have smaller := List.sizeOf_lt_of_mem isEntry
  obtain ⟨key, value⟩ := entry
  simp only [FlowEntry.mk.sizeOf_spec] at smaller
  simp only [mapping.sizeOf_spec]
  omega

/-- The letters of a node. -/
def letters : FlowNode → List Char
  | quoted content => quotedText content
  | plain content => content
  | sequence elements => '[' :: (separated ',' (elements.map letters) ++ [']'])
  | mapping entries =>
    '\x7b' :: (separated ',' (entries.map fun entry =>
      quotedText entry.key ++ ':' :: entry.value.letters) ++ ['\x7d'])
decreasing_by
  · exact sizeOf_element_lt ‹_›
  · exact sizeOf_value_lt ‹_›

/-- The tokens of a node. -/
def tokens : FlowNode → List Token
  | quoted content => [.scalar .doubleQuoted content]
  | plain content => [.scalar .plain content]
  | sequence elements =>
    .flowSequenceStart ::
      (separated .flowEntry (elements.map tokens) ++ [.flowSequenceEnd])
  | mapping entries =>
    .flowMappingStart :: (separated .flowEntry (entries.map fun entry =>
      .key :: .scalar .doubleQuoted entry.key :: .value ::
        entry.value.tokens) ++ [.flowMappingEnd])
decreasing_by
  · exact sizeOf_element_lt ‹_›
  · exact sizeOf_value_lt ‹_›

/-- The items of a node. -/
def items : FlowNode → List Item
  | quoted content => [.scalar none .doubleQuoted content]
  | plain content => [.scalar none .plain content]
  | sequence elements =>
    .sequenceStart none :: ((elements.map items).flatten ++ [.sequenceEnd])
  | mapping entries =>
    .mappingStart none :: ((entries.map fun entry =>
      .scalar none .doubleQuoted entry.key :: entry.value.items).flatten ++
        [.mappingEnd])
decreasing_by
  · exact sizeOf_element_lt ‹_›
  · exact sizeOf_value_lt ‹_›

/-- A node of printable letters.  Plain words are of letters and digits, and
keys are no longer than simple keys may be. -/
inductive Writable : FlowNode → Prop
  | quoted {content : List Char}
      (printable : ∀ letter ∈ content, isPrintable letter) :
      Writable (.quoted content)
  | plain {content : List Char} (nonempty : content ≠ [])
      (areAlphanum : ∀ letter ∈ content, letter.isAlphanum) :
      Writable (.plain content)
  | sequence {elements : List FlowNode}
      (elements_writable : ∀ element ∈ elements, element.Writable) :
      Writable (.sequence elements)
  | mapping {entries : List (FlowEntry FlowNode)}
      (keys_printable : ∀ entry ∈ entries,
        ∀ letter ∈ entry.key, isPrintable letter)
      (keys_short : ∀ entry ∈ entries, byteSize (quotedText entry.key) ≤ 1024)
      (values_writable : ∀ entry ∈ entries, entry.value.Writable) :
      Writable (.mapping entries)

theorem mem_separated {α : Type} {separator x : α} {parts : List (List α)}
    (isMember : x ∈ separated separator parts) :
    x = separator ∨ ∃ part ∈ parts, x ∈ part := by
  cases parts with
  | nil => simp [separated] at isMember
  | cons part parts =>
      rcases List.mem_append.mp isMember with first | further
      · exact .inr ⟨part, List.mem_cons_self, first⟩
      · obtain ⟨other, isPart, inside⟩ := List.mem_flatMap.mp further
        rcases List.mem_cons.mp inside with isSeparator | inside
        · exact .inl isSeparator
        · exact .inr ⟨other, List.mem_cons_of_mem part isPart, inside⟩

theorem isPrintable_quotedText {content : List Char}
    (printable : ∀ letter ∈ content, isPrintable letter) :
    ∀ letter ∈ quotedText content, isPrintable letter := by
  intro letter isMember
  simp only [quotedText, escaped, List.mem_cons, List.mem_append,
    List.mem_flatMap, List.not_mem_nil, or_false] at isMember
  rcases isMember with rfl | ⟨meant, isMeant, isWritten⟩ | rfl
  · rfl
  · have isPrintable := printable meant isMeant
    rcases escapedLetter_cases isPrintable with ⟨written, -⟩ | ⟨written, -⟩
    · rw [written, List.mem_cons, List.mem_singleton] at isWritten
      rcases isWritten with rfl | rfl
      · rfl
      · exact isPrintable
    · rw [written, List.mem_singleton] at isWritten
      exact isWritten ▸ isPrintable
  · rfl

theorem isPrintable_of_isAlphanum {letter : Char}
    (isAlphanum : letter.isAlphanum) : isPrintable letter := by
  have printable (first last : Char) (low : ' ' ≤ first) (high : last ≤ '~')
      (fromFirst : first ≤ letter) (toLast : letter ≤ last) :
      isPrintable letter := by
    simp only [isPrintable, Bool.and_eq_true, decide_eq_true_eq]
    exact ⟨Char.le_trans low fromFirst, Char.le_trans toLast high⟩
  rcases (Bool.or_eq_true _ _).mp isAlphanum with isAlpha | isDigit
  · rcases (Bool.or_eq_true _ _).mp isAlpha with isUpper | isLower
    · obtain ⟨above, below⟩ := of_decide_eq_true isUpper
      exact printable 'A' 'Z' (by decide) (by decide) above below
    · obtain ⟨above, below⟩ := (Bool.and_eq_true _ _).mp isLower
      exact printable 'a' 'z' (by decide) (by decide) (of_decide_eq_true above)
        (of_decide_eq_true below)
  · obtain ⟨above, below⟩ := (Bool.and_eq_true _ _).mp isDigit
    exact printable '0' '9' (by decide) (by decide) (of_decide_eq_true above)
      (of_decide_eq_true below)

theorem isPrintable_collection {opening closing : Char}
    {parts : List (List Char)} (opens : isPrintable opening)
    (closes : isPrintable closing)
    (printable : ∀ part ∈ parts, ∀ letter ∈ part, isPrintable letter) :
    ∀ letter ∈ opening :: (separated ',' parts ++ [closing]),
      isPrintable letter := by
  intro letter isMember
  rcases List.mem_cons.mp isMember with rfl | isMember
  · exact opens
  rcases List.mem_append.mp isMember with inside | isClosing
  · rcases mem_separated inside with rfl | ⟨part, isPart, inPart⟩
    · rfl
    · exact printable part isPart letter inPart
  · exact List.mem_singleton.mp isClosing ▸ closes

theorem Writable.letters_printable {node : FlowNode} (writable : node.Writable) :
    ∀ letter ∈ node.letters, isPrintable letter := by
  induction writable with
  | quoted printable =>
      rw [letters]
      exact isPrintable_quotedText printable
  | plain nonempty areAlphanum =>
      intro letter isMember
      rw [letters] at isMember
      exact isPrintable_of_isAlphanum (areAlphanum letter isMember)
  | sequence _ ih =>
      rw [letters]
      refine isPrintable_collection rfl rfl (List.forall_mem_map.mpr ?_)
      exact ih
  | mapping keys _ _ ih =>
      rw [letters]
      refine isPrintable_collection rfl rfl (List.forall_mem_map.mpr ?_)
      intro entry isEntry letter isMember
      rcases List.mem_append.mp isMember with inKey | inValue
      · exact isPrintable_quotedText (keys entry isEntry) letter inKey
      · rcases List.mem_cons.mp inValue with rfl | inValue
        · rfl
        · exact ih entry isEntry letter inValue

end FlowNode

end Metastring.Yaml
