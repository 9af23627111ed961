import Mathlib
import Metastring.Proofs.Outline

/-!
# Metastrings can be read in one way only

No message in a metastring is closed by a token.  All the same a metastring can
be read back from the left without looking ahead: the first letter of a member
tells whether it repeats and whether it is a message, fields end at the first
comma or closing parenthesis, and the number of members says where a message
ends.

The reader here recovers the outline from its spelling and leaves what follows
the spelling alone, if no name holds a letter that ends its field.  So no
metastring is a proper prefix of another one, and metastrings are equal exactly
if their outlines are.
-/

namespace Metastring

section Fields

/-- What follows a mark that the text has to begin with. -/
def skip : (mark text : List Char) → Option (List Char)
  | [], text => some text
  | _ :: _, [] => none
  | letter :: mark, letter' :: text =>
    if letter = letter' then skip mark text else none

/-- The letters before the first occurrence of a letter, and those after it. -/
def readTo (stop : Char) : List Char → Option (List Char × List Char)
  | [] => none
  | letter :: text =>
    if letter = stop then some ([], text)
    else (readTo stop text).map fun (field, rest) => (letter :: field, rest)

/-- A name whose field ends at the given letter, without the underscore that is
added to it. -/
def readName (stop : Char) (text : List Char) :
    Option (String × List Char) := do
  let text ← skip "name=".toList text
  let (field, text) ← readTo stop text
  return (String.ofList field.dropLast, text)

/-- A number whose field ends at a closing parenthesis. -/
def readNumber (text : List Char) : Option (Nat × List Char) := do
  let (numeral, text) ← readTo ')' text
  return (← digits? 10 numeral, text)

@[simp]
theorem skip_append (mark text : List Char) :
    skip mark (mark ++ text) = some text := by
  induction mark with
  | nil => rfl
  | cons letter mark ih => rw [List.cons_append, skip, if_pos rfl, ih]

theorem readTo_append {stop : Char} {field : List Char}
    (clean : stop ∉ field) (text : List Char) :
    readTo stop (field ++ stop :: text) = some (field, text) := by
  induction field with
  | nil => rw [List.nil_append, readTo, if_pos rfl]
  | cons letter field ih =>
      obtain ⟨differs, clean⟩ := not_or.mp (List.mem_cons.not.mp clean)
      rw [List.cons_append, readTo, if_neg (Ne.symm differs), ih clean]
      rfl

theorem readName_append {stop : Char} {name : String}
    (clean : stop ∉ name.toList) (notUnderscore : stop ≠ '_')
    (text : List Char) :
    readName stop (nameLetters name ++ stop :: text) = some (name, text) := by
  have fieldClean : stop ∉ name.toList ++ ['_'] := by
    simp [clean, notUnderscore]
  have spelled : nameLetters name ++ stop :: text =
      "name=".toList ++ ((name.toList ++ ['_']) ++ stop :: text) :=
    List.append_assoc _ _ _
  unfold readName
  rw [spelled, skip_append]
  simp only [bind, Option.bind, readTo_append fieldClean]
  rw [List.dropLast_concat, String.ofList_toList]
  rfl

theorem readNumber_append (number : Nat) (text : List Char) :
    readNumber (Nat.toDigits 10 number ++ ')' :: text) =
      some (number, text) := by
  have clean : ')' ∉ Nat.toDigits 10 number :=
    not_mem_toDigits (by decide) number
  unfold readNumber
  rw [readTo_append clean]
  simp only [bind, Option.bind, digits?_toDigits]
  rfl

end Fields

section Outlines

/-- The name shown by the token of a leaf, and what follows the token. -/
def readLeafLabel (labelled : Bool) (text : List Char) :
    Option (Option String × List Char) :=
  if labelled then
    (readName ')' text).map fun (name, rest) => (some name, rest)
  else (skip [')'] text).map fun rest => (none, rest)

/-- The name shown by the token of a message, and what follows the name. -/
def readMessageLabel (labelled : Bool) (text : List Char) :
    Option (Option String × List Char) :=
  if labelled then
    (readName ',' text).map fun (name, rest) => (some name, rest)
  else some (none, text)

/-- A reader of outlines.  It is told whether the token of the outline shows a
name, and finds the name, the outline and what follows. -/
abbrev OutlineReader : Type :=
  Bool → List Char → Option (Option String × Outline × List Char)

abbrev EntryReader : Type :=
  List Char → Option (OutlineEntry Outline × List Char)

def readOutlineEntries (read : EntryReader) :
    Nat → List Char → Option (List (OutlineEntry Outline) × List Char)
  | 0, text => some ([], text)
  | count + 1, text => do
    let (entry, text) ← read text
    let (entries, text) ← readOutlineEntries read count text
    return (entry :: entries, text)

/-- The entry of a member that repeats, behind the first letter of its
token. -/
def readRepeated (read : OutlineReader) (field : String)
    (repetition : Nat → Repetition) : EntryReader := fun text => do
  let text ← skip ['('] text
  let (name, text) ← readName ',' text
  let text ← skip field.toList text
  let (number, text) ← readNumber text
  let (_, content, text) ← read false text
  return (⟨name, repetition number, content⟩, text)

/-- An entry.  Its first letter tells whether the member repeats. -/
def readOutlineEntry (read : OutlineReader) : EntryReader
  | '[' :: text => readRepeated read "dimension=" .array text
  | '<' :: text => readRepeated read "maximum=" .sequence text
  | text => do
    let (label, content, text) ← read true text
    return (⟨← label, .single, content⟩, text)

/-- An outline with at most the given number of levels, and the name that its
token shows. -/
def readOutline : (levels : Nat) → OutlineReader
  | 0, _, _ => none
  | levels + 1, labelled, '\x7b' :: '(' :: text => do
    let (label, text) ← readMessageLabel labelled text
    let text ← skip "type=".toList text
    let (mangled, text) ← readTo ',' text
    let text ← skip "member=".toList text
    let (count, text) ← readNumber text
    let (entries, text) ←
      readOutlineEntries (readOutlineEntry (readOutline levels)) count text
    return (label, .message (String.ofList mangled) entries, text)
  | _ + 1, labelled, code :: '(' :: text => do
    let (label, text) ← readLeafLabel labelled text
    return (label, .leaf code, text)
  | _ + 1, _, _ => none

/-- The outline of a metastring.  Nothing may follow it. -/
def readMetastring (text : String) : Option Outline := do
  let letters ← skip formatVersion.toList text.toList
  match ← readOutline letters.length false letters with
  | (_, outline, []) => some outline
  | _ => none

end Outlines

section RoundTrip

/-- A name in a label holds no letter that ends its field. -/
def LabelClean (label : Option String) : Prop :=
  ∀ name ∈ label, ',' ∉ name.toList ∧ ')' ∉ name.toList

theorem readLeafLabel_append {label : Option String} (clean : LabelClean label)
    (text : List Char) :
    readLeafLabel label.isSome
        ((label.map nameLetters).getD [] ++ ')' :: text) =
      some (label, text) := by
  cases label with
  | none => rfl
  | some name =>
      have read := readName_append (clean name rfl).2 (by decide) text
      simp [readLeafLabel, read]

theorem readMessageLabel_append {label : Option String}
    (clean : LabelClean label) (text : List Char) :
    readMessageLabel label.isSome
        ((label.map (nameLetters · ++ [','])).getD [] ++ text) =
      some (label, text) := by
  cases label with
  | none => rfl
  | some name =>
      have read := readName_append (clean name rfl).1 (by decide) text
      simp [readMessageLabel, read]

theorem Repetition.labelClean {name : String}
    (clean : ',' ∉ name.toList ∧ ')' ∉ name.toList) (repetition : Repetition) :
    LabelClean (repetition.label name) := by
  cases repetition with
  | single => exact fun _ isName => Option.some.inj isName ▸ clean
  | array size => exact nofun
  | sequence maximum => exact nofun

/-- The first letter of a legible outline does not announce a member that
repeats. -/
theorem Outline.Legible.exists_first {outline : Outline}
    (legible : outline.Legible) (label : Option String) :
    ∃ letter text, outline.spelling label = letter :: text ∧
      letter ≠ '[' ∧ letter ≠ '<' := by
  cases legible with
  | @leaf code isCode =>
      obtain ⟨-, notArray, notSequence⟩ :
          code ≠ '\x7b' ∧ code ≠ '[' ∧ code ≠ '<' := by simpa using isCode
      rw [Outline.spelling]
      exact ⟨code, _, rfl, notArray, notSequence⟩
  | message =>
      rw [Outline.spelling]
      exact ⟨'\x7b', _, rfl, by decide, by decide⟩

section Entries

variable {read : OutlineReader}

theorem readRepeated_append {field name : String} {number : Nat}
    {content : Outline}
    (repetition : Nat → Repetition) (clean : ',' ∉ name.toList)
    (recovers : ∀ text, read false (content.spelling none ++ text) =
      some (none, content, text))
    (text : List Char) :
    readRepeated read field repetition
        (['('] ++ (nameLetters name ++ ',' :: (field.toList ++
          (Nat.toDigits 10 number ++
            ')' :: (content.spelling none ++ text))))) =
      some (⟨name, repetition number, content⟩, text) := by
  unfold readRepeated
  rw [skip_append]
  simp only [bind, Option.bind]
  rw [readName_append clean (by decide)]
  simp only [skip_append, readNumber_append, recovers]
  rfl

theorem readOutlineEntry_single {letter : Char} {letters rest : List Char}
    {name : String} {content : Outline} (notArray : letter ≠ '[')
    (notSequence : letter ≠ '<')
    (recovered : read true (letter :: letters) =
      some (some name, content, rest)) :
    readOutlineEntry read (letter :: letters) =
      some (⟨name, .single, content⟩, rest) := by
  unfold readOutlineEntry
  split
  case h_1 isArray => exact absurd (List.cons.inj isArray).1 notArray
  case h_2 isSequence => exact absurd (List.cons.inj isSequence).1 notSequence
  case h_3 =>
    rw [recovered]
    rfl

theorem readOutlineEntry_append {entry : OutlineEntry Outline}
    (clean : ',' ∉ entry.name.toList) (legible : entry.content.Legible)
    (recovers : ∀ text,
      read (entry.repetition.label entry.name).isSome
          (entry.content.spelling (entry.repetition.label entry.name) ++ text) =
        some (entry.repetition.label entry.name, entry.content, text))
    (text : List Char) :
    readOutlineEntry read (entrySpelling entry ++ text) =
      some (entry, text) := by
  obtain ⟨name, repetition, content⟩ := entry
  rw [entrySpelling]
  cases repetition with
  | single =>
      obtain ⟨letter, letters, spelled, notArray, notSequence⟩ :=
        legible.exists_first (some name)
      have recovered := recovers text
      simp only [Repetition.label, spelled] at recovered
      simp only [Repetition.opening, Repetition.label, spelled,
        List.nil_append]
      exact readOutlineEntry_single notArray notSequence recovered
  | array size =>
      simp only [Repetition.opening, List.append_assoc, List.cons_append,
        List.nil_append, readOutlineEntry]
      exact readRepeated_append .array clean recovers text
  | sequence maximum =>
      simp only [Repetition.opening, List.append_assoc, List.cons_append,
        List.nil_append, readOutlineEntry]
      exact readRepeated_append .sequence clean recovers text

theorem readOutlineEntries_append {read : EntryReader}
    {entries : List (OutlineEntry Outline)}
    (recovers : ∀ entry ∈ entries, ∀ text,
      read (entrySpelling entry ++ text) = some (entry, text))
    (text : List Char) :
    readOutlineEntries read entries.length (entriesSpelling entries ++ text) =
      some (entries, text) := by
  induction entries with
  | nil => rfl
  | cons entry entries ih =>
      obtain ⟨first, rest⟩ := List.forall_mem_cons.mp recovers
      rw [entriesSpelling, List.append_assoc, List.length_cons,
        readOutlineEntries, first]
      simp only [bind, Option.bind, ih rest]
      rfl

end Entries

theorem entrySpelling_length_le {entry : OutlineEntry Outline}
    {entries : List (OutlineEntry Outline)} (isEntry : entry ∈ entries) :
    (entrySpelling entry).length ≤ (entriesSpelling entries).length := by
  induction entries with
  | nil => contradiction
  | cons first entries ih =>
      rw [entriesSpelling, List.length_append]
      rcases List.mem_cons.mp isEntry with rfl | later
      · exact Nat.le_add_right _ _
      · exact Nat.le_add_left_of_le (ih later)

theorem contentSpelling_length_le (entry : OutlineEntry Outline) :
    (entry.content.spelling (entry.repetition.label entry.name)).length ≤
      (entrySpelling entry).length := by
  rw [entrySpelling, List.length_append]
  exact Nat.le_add_left _ _

/-- Reading the spelling of a legible outline gives the outline back and leaves
what follows. -/
theorem readOutline_append {outline : Outline} (legible : outline.Legible)
    {levels : Nat} {label : Option String} (clean : LabelClean label)
    (enough : (outline.spelling label).length ≤ levels) (text : List Char) :
    readOutline levels label.isSome (outline.spelling label ++ text) =
      some (label, outline, text) := by
  induction legible generalizing levels label text with
  | @leaf code isCode =>
      rw [Outline.spelling] at enough ⊢
      cases levels with
      | zero => simp at enough
      | succ levels =>
          have notMessage : code ≠ '\x7b' :=
            (not_or.mp (List.mem_cons.not.mp isCode)).1
          have read := readLeafLabel_append clean text
          simp only [List.append_assoc, List.cons_append, List.nil_append]
          rw [readOutline]
          · simp only [bind, Option.bind, read]
            rfl
          · simpa using notMessage
  | @message mangled entries mangledClean namesClean contentsLegible ih =>
      rw [Outline.spelling] at enough ⊢
      cases levels with
      | zero => simp at enough
      | succ levels =>
          have fits (entry : OutlineEntry Outline)
              (isEntry : entry ∈ entries) :
              (entry.content.spelling
                (entry.repetition.label entry.name)).length ≤ levels := by
            have inEntry := contentSpelling_length_le entry
            have inEntries := entrySpelling_length_le isEntry
            simp only [List.length_append, List.length_cons] at enough
            omega
          have recovers (entry : OutlineEntry Outline)
              (isEntry : entry ∈ entries) :=
            readOutlineEntry_append (namesClean entry isEntry).1
              (contentsLegible entry isEntry)
              (ih entry isEntry
                (entry.repetition.labelClean (namesClean entry isEntry))
                (fits entry isEntry))
          simp only [List.append_assoc, List.cons_append, List.nil_append]
          rw [readOutline]
          simp only [bind, Option.bind, readMessageLabel_append clean,
            skip_append, readTo_append mangledClean, readNumber_append,
            readOutlineEntries_append recovers, String.ofList_toList]
          rfl

end RoundTrip

section Metastrings

theorem readOutline_unlabelled {outline : Outline} (legible : outline.Legible)
    {levels : Nat} (enough : (outline.spelling none).length ≤ levels)
    (text : List Char) :
    readOutline levels false (outline.spelling none ++ text) =
      some (none, outline, text) :=
  have clean : LabelClean none := fun _ isName => nomatch isName
  readOutline_append legible clean enough text

theorem readMetastring_of_spelled {outline : Outline} {text : String}
    (legible : outline.Legible)
    (spelled : text.toList = formatVersion.toList ++ outline.spelling none) :
    readMetastring text = some outline := by
  have read := readOutline_unlabelled legible (Nat.le_refl _) []
  rw [List.append_nil] at read
  unfold readMetastring
  rw [spelled, skip_append]
  simp only [bind, Option.bind, read]

/-- No legible outline is spelled by a proper prefix of the spelling of
another. -/
theorem eq_of_spelling_prefix {outline outline' : Outline}
    (legible : outline.Legible) (legible' : outline'.Legible)
    (isPrefix : outline.spelling none <+: outline'.spelling none) :
    outline = outline' := by
  obtain ⟨rest, extended⟩ := isPrefix
  have shorter : (outline.spelling none).length ≤
      (outline'.spelling none).length := by
    rw [← extended, List.length_append]
    exact Nat.le_add_right _ _
  -- The longer spelling is read as either outline.
  have read := readOutline_unlabelled legible shorter rest
  have read' := readOutline_unlabelled legible' (Nat.le_refl _) []
  rw [extended] at read
  rw [List.append_nil, read] at read'
  exact (Prod.mk.inj (Prod.mk.inj (Option.some.inj read')).2).1

/-- If two descriptors without letters that end fields compile, a metastring
that is a prefix of the other is the other one, and the outlines are the same.
Descriptors with the same outline have the same metastring.  The outline can be
read off the metastring. -/
theorem metastring_uniquely_readable {options options' : Options}
    {descriptor descriptor' : Descriptor} {text text' : String}
    (compiled : (descriptor.tryCompile options).outcome = .ok text)
    (compiled' : (descriptor'.tryCompile options').outcome = .ok text')
    (legible : descriptor.Legible) (legible' : descriptor'.Legible) :
    (text.toList <+: text'.toList → text = text' ∧
        descriptor.outline? options = descriptor'.outline? options') ∧
      (descriptor.outline? options = descriptor'.outline? options' →
        text = text') ∧
      ∃ outline, descriptor.outline? options = some outline ∧
        readMetastring text = some outline := by
  obtain ⟨outline, shown, spelled⟩ :=
    Descriptor.exists_outline_of_compiled compiled
  obtain ⟨outline', shown', spelled'⟩ :=
    Descriptor.exists_outline_of_compiled compiled'
  have outlineLegible := descriptor.outline?_legible options legible shown
  have outlineLegible' := descriptor'.outline?_legible options' legible' shown'
  have same (sameOutline : outline = outline') : text = text' := by
    rw [← String.toList_inj, spelled, spelled', sameOutline]
  rw [shown, shown']
  refine ⟨fun isPrefix => ?_,
    fun sameOutline => same (Option.some.inj sameOutline),
    outline, rfl, readMetastring_of_spelled outlineLegible spelled⟩
  rw [spelled, spelled', List.prefix_append_right_inj] at isPrefix
  have sameOutline :=
    eq_of_spelling_prefix outlineLegible outlineLegible' isPrefix
  exact ⟨same sameOutline, congrArg some sameOutline⟩

/-- A message that nests an empty one in front of a sequence of leaves. -/
def sequenceAfterEmpty (leaf : Leaf) (bound : Option UInt64) : Descriptor :=
  .mk ⟨⟨"", "A"⟩,
    [⟨"x", .message, {}, some (.mk ⟨⟨"p", "B"⟩, []⟩)⟩,
      ⟨"y", .leaf leaf, .sequence bound, none⟩]⟩

theorem sequenceAfterEmpty_legible (leaf : Leaf) (bound : Option UInt64) :
    (sequenceAfterEmpty leaf bound).Legible := by
  have emptyLegible : (Descriptor.mk ⟨⟨"p", "B"⟩, []⟩).Legible :=
    (Descriptor.legible_iff _).mpr
      ⟨by decide, fun _ isMember => absurd isMember List.not_mem_nil⟩
  have typeClean : ',' ∉ "".toList ∧ ',' ∉ "A".toList := by decide
  have nameClean : ',' ∉ "y".toList ∧ ')' ∉ "y".toList := by decide
  refine (Descriptor.legible_iff _).mpr ⟨typeClean, fun member isMember => ?_⟩
  rcases List.mem_cons.mp isMember with rfl | isMember
  · exact ⟨by decide, fun _ _ refers => Option.some.inj refers ▸ emptyLegible⟩
  · obtain rfl := List.mem_singleton.mp isMember
    exact ⟨nameClean, fun _ _ refers => nomatch refers⟩

/-- A bound that is declared and one that is assumed are shown alike, and so are
leaves with the same code. -/
theorem metastring_uniquely_readable_sequenceAfterEmpty :
    (sequenceAfterEmpty .double none).outline? ⟨5⟩ =
        (sequenceAfterEmpty .longDouble (some 5)).outline? {} ∧
      ∃ text,
        ((sequenceAfterEmpty .double none).tryCompile ⟨5⟩).outcome =
            .ok text ∧
          readMetastring text =
            (sequenceAfterEmpty .double none).outline? ⟨5⟩ := by
  have compiled : ((sequenceAfterEmpty .double none).tryCompile ⟨5⟩).outcome =
      .ok ("v1\x7b(type=dds_::A_,member=2)" ++
        "\x7b(name=x_,type=p::dds_::B_,member=0)" ++
        "<(name=y_,maximum=5)d()") := by
    cbv
  have compiled' :
      ((sequenceAfterEmpty .longDouble (some 5)).tryCompile {}).outcome =
        .ok ("v1\x7b(type=dds_::A_,member=2)" ++
          "\x7b(name=x_,type=p::dds_::B_,member=0)" ++
          "<(name=y_,maximum=5)d()") := by
    cbv
  obtain ⟨same, -, outline, shown, read⟩ :=
    metastring_uniquely_readable compiled compiled'
      (sequenceAfterEmpty_legible _ _) (sequenceAfterEmpty_legible _ _)
  exact ⟨(same (List.prefix_refl _)).2, _, compiled, read.trans shown.symm⟩

end Metastrings

end Metastring
