import Metastring.Json.Spec
import Metastring.Proofs.JsonValues

/-!
# Lists and structs in JSON

A struct is presented as an object or as an array.  An object has its entries in
any order, among them any entries with unknown keys, and may lack fields that
have their default values.  An array has the fields in declaration order and may
lack a tail of such fields.

What is proved here about reading them only asks how the single fields are read.
The fields of a draft depend on which fields have been read and not on their
order, so the draft behind an object is known from the fields it gives.
-/

namespace Metastring.Json

section Grammar

/-- Texts with commas between them, in brackets. -/
def enclosed (opening closing : Char) (parts : List (List Char)) : List Char :=
  opening :: ([','].intercalate parts ++ [closing])

/-- How a struct with fields in `φ` can be written: the keys of its fields in
declaration order, the texts that stand for their values, and the fields that
may be left out, because they have their default values. -/
structure StructWriting (φ : Type) where
  key : φ → String
  order : List φ
  writes : φ → List Char → Prop
  omissible : φ → Prop

section Structs

variable {φ : Type} (struct : StructWriting φ)

/-- The entries of an object that gives the listed fields.  Any entries with
unknown keys may stand among them. -/
inductive Entries : (given : List φ) → (entries : List (List Char)) → Prop
  | nil : Entries [] []
  | field {field : φ} {key value : List Char} {given : List φ}
      {entries : List (List Char)} (names : Quoted (struct.key field) key)
      (writes : struct.writes field value) (others : Entries given entries) :
      Entries (field :: given) ((key ++ ':' :: value) :: entries)
  | unknown {name : String} {key value : List Char} {given : List φ}
      {entries : List (List Char)}
      (isUnknown : ∀ field ∈ struct.order, struct.key field ≠ name)
      (names : Quoted name key) (isValue : IsValue value)
      (others : Entries given entries) :
      Entries given ((key ++ ':' :: value) :: entries)

/-- The values of consecutive fields, but for a tail that may be left out. -/
inductive Row : (fields : List φ) → (values : List (List Char)) → Prop
  | omitted {fields : List φ}
      (omissible : ∀ field ∈ fields, struct.omissible field) : Row fields []
  | given {field : φ} {fields : List φ} {value : List Char}
      {values : List (List Char)} (writes : struct.writes field value)
      (others : Row fields values) : Row (field :: fields) (value :: values)

/-- The texts that present a struct. -/
inductive PresentsStruct : (written : List Char) → Prop
  | object {given : List φ} {entries : List (List Char)}
      (gives : Entries struct given entries) (once : given.Nodup)
      (complete : ∀ field, field ∉ given → struct.omissible field) :
      PresentsStruct (enclosed '\x7b' '\x7d' entries)
  | array {values : List (List Char)} (row : Row struct struct.order values) :
      PresentsStruct (enclosed '[' ']' values)

end Structs

/-- The texts that present a list of things, each with texts of its own. -/
def PresentsList (presented : List (List Char → Prop)) (written : List Char) :
    Prop :=
  ∃ values, List.Forall₂ (fun presents value => presents value) presented
      values ∧ written = enclosed '[' ']' values

end Grammar

section Readers

variable {α : Type}

/-- A reader reads all texts that present a value as the value, and nothing
behind them. -/
def Reads (read : List Char → Decoded (α × List Char))
    (presents : List Char → Prop) (value : α) : Prop :=
  ∀ written rest, presents written → Ends rest →
    read (written ++ rest) = .ok (value, rest)

theorem skipSpace_of_opens {text : List Char} (opens : Opens text)
    (rest : List Char) : skipSpace (text ++ rest) = text ++ rest := by
  obtain ⟨head, tail, rfl, notSpace, -⟩ := opens
  exact skipSpace_of_not notSpace _

theorem Quoted.opens {text : String} {written : List Char}
    (quotes : Quoted text written) : Opens written := by
  obtain ⟨inner, -, rfl⟩ := quotes
  exact ⟨'"', _, rfl, rfl, by decide⟩

/-- A text starts with an opening bracket. -/
def Bracketed (text : List Char) : Prop :=
  ∃ tail, text = '\x7b' :: tail ∨ text = '[' :: tail

theorem Bracketed.opens {text : List Char} (bracketed : Bracketed text) :
    Opens text := by
  obtain ⟨tail, rfl | rfl⟩ := bracketed <;>
    exact ⟨_, tail, rfl, rfl, by decide⟩

theorem PresentsStruct.bracketed {φ : Type} {struct : StructWriting φ}
    {written : List Char} (presents : PresentsStruct struct written) :
    Bracketed written := by
  cases presents with
  | object => exact ⟨_, .inl rfl⟩
  | array => exact ⟨_, .inr rfl⟩

/-- What is left of the parts behind the first one: each with its comma. -/
def continued (parts : List (List Char)) : List Char :=
  parts.flatMap (',' :: ·)

@[simp]
theorem continued_cons (part : List Char) (parts : List (List Char)) :
    continued (part :: parts) = ',' :: (part ++ continued parts) := by
  simp [continued]

theorem intercalate_cons (part : List Char) (parts : List (List Char)) :
    [','].intercalate (part :: parts) = part ++ continued parts := by
  induction parts generalizing part with
  | nil => simp [continued]
  | cons next parts ih =>
      rw [List.intercalate_cons_cons, ih, continued_cons]
      simp

theorem ends_continued (parts : List (List Char)) {rest : List Char}
    (ends : Ends rest) : Ends (continued parts ++ rest) := by
  cases parts with
  | nil => exact ends
  | cons part parts => exact .comma _

theorem length_lt_continued (parts : List (List Char)) (last : Char)
    (rest : List Char) :
    parts.length < (continued parts ++ last :: rest).length + 1 := by
  induction parts with
  | nil => simp
  | cons part parts ih =>
      simp at ih ⊢
      omega

end Readers

section Lists

variable {α : Type} {read : List Char → Decoded (α × List Char)}
  {presented : List (List Char → Prop)} {values : List α}

theorem elementsWithin_append
    (reads : List.Forall₂ (Reads read) presented values)
    {texts : List (List Char)}
    (present : List.Forall₂ (fun presents text => presents text) presented
      texts) (rest : List Char) {bound : Nat} (enough : texts.length < bound) :
    elementsWithin read bound (continued texts ++ ']' :: rest) =
      .ok (values, rest) := by
  induction reads generalizing texts bound with
  | nil =>
      cases present
      cases bound with
      | zero => omega
      | succ bound => rfl
  | @cons presents value _ values readsFirst _ ih =>
      cases present with
      | @cons _ text _ texts presentsFirst others =>
          cases bound with
          | zero => omega
          | succ bound =>
              have readFirst := readsFirst text _ presentsFirst
                (ends_continued texts (.bracket rest))
              have readOthers := ih others (Nat.lt_of_succ_lt_succ enough)
              rw [continued_cons, List.cons_append, List.append_assoc,
                elementsWithin, skipSpace_of_not rfl]
              simp only [readFirst, readOthers, bind, Except.bind]
              rfl

/-- Where each element is read as its value, a list is read as the list of the
values. -/
theorem listed_reads (reads : List.Forall₂ (Reads read) presented values)
    (opens : ∀ presents ∈ presented, ∀ text, presents text → Opens text) :
    Reads (listed (elements read)) (PresentsList presented) values := by
  rintro _ rest ⟨texts, present, rfl⟩ _
  rw [enclosed, List.cons_append, List.append_assoc, List.singleton_append,
    listed, skipSpace_of_not rfl]
  cases present with
  | nil =>
      cases reads
      rfl
  | @cons presents text presented texts presentsFirst others =>
      cases reads with
      | @cons _ value _ values readsFirst readsOthers =>
          have readFirst := readsFirst text _ presentsFirst
            (ends_continued texts (.bracket rest))
          have readOthers := elementsWithin_append readsOthers others rest
            (length_lt_continued texts ']' rest)
          obtain ⟨head, tail, rfl, notSpace, notEnd⟩ :=
            opens presents (List.mem_cons_self ..) text presentsFirst
          rw [List.cons_append] at readFirst
          simp only [intercalate_cons, List.append_assoc, List.cons_append,
            elements, skipSpace_of_not notSpace]
          split
          case h_1 isEnd => exact absurd (List.cons.inj isEnd).1 notEnd
          case h_2 =>
            simp only [readFirst, readOthers, bind, Except.bind]
            rfl

end Lists

section Objects

variable {φ δ α : Type}

/-- A reader of fields reads the fields of a struct into a draft, which depends
on which fields it has been given, and passes over unknown keys. -/
structure ReadsFields (struct : StructWriting φ)
    (field : String → δ → List Char → Decoded (δ × List Char))
    (draft : List φ → δ) : Prop where
  known : ∀ before wanted value rest, wanted ∉ before →
    struct.writes wanted value → Ends rest →
      field (struct.key wanted) (draft before) (':' :: (value ++ rest)) =
        .ok (draft (before ++ [wanted]), rest)
  unknown : ∀ before name value rest,
    (∀ wanted ∈ struct.order, struct.key wanted ≠ name) → IsValue value →
      Ends rest →
        field name (draft before) (':' :: (value ++ rest)) =
          .ok (draft before, rest)

variable {struct : StructWriting φ}
  {field : String → δ → List Char → Decoded (δ × List Char)}
  {draft : List φ → δ}

theorem fieldAt_append {name : String} {key : List Char}
    (names : Quoted name key) (current : δ) (rest : List Char) :
    fieldAt field current (key ++ rest) = field name current rest := by
  obtain ⟨tail, rfl, read⟩ := quoted_append names rest
  rw [List.cons_append, fieldAt, afterWord_quote]
  simp only [read, bind, Except.bind]

theorem Entries.opens {given : List φ} {entry : List Char}
    {entries : List (List Char)}
    (gives : Entries struct given (entry :: entries)) :
    ∃ tail, entry = '"' :: tail := by
  cases gives with
  | field names | unknown _ names =>
      obtain ⟨inner, -, rfl⟩ := names
      exact ⟨_, rfl⟩

variable (reads : ReadsFields struct field draft)
include reads

/-- An entry adds the field it gives to the draft, or nothing. -/
theorem ReadsFields.fieldAt_entry (before : List φ) {given : List φ}
    {entry : List Char} {entries : List (List Char)}
    (gives : Entries struct given (entry :: entries))
    (once : (before ++ given).Nodup) {rest : List Char} (ends : Ends rest) :
    ∃ before' given', Entries struct given' entries ∧
      before' ++ given' = before ++ given ∧
        fieldAt field (draft before) (entry ++ rest) =
          .ok (draft before', rest) := by
  cases gives with
  | @field wanted key value given _ names writes others =>
      -- Each field is given once, so the draft does not have this one yet.
      have fresh : wanted ∉ before := fun isBefore =>
        (List.nodup_append.mp once).2.2 wanted isBefore wanted
          (List.mem_cons_self ..) rfl
      refine ⟨before ++ [wanted], given, others, by simp, ?_⟩
      rw [List.append_assoc, List.cons_append, fieldAt_append names]
      exact reads.known before wanted value rest fresh writes ends
  | @unknown name key value _ _ isUnknown names isValue others =>
      refine ⟨before, given, others, rfl, ?_⟩
      rw [List.append_assoc, List.cons_append, fieldAt_append names]
      exact reads.unknown before name value rest isUnknown isValue ends

theorem ReadsFields.fieldsWithin_append {before given : List φ}
    {entries : List (List Char)} (gives : Entries struct given entries)
    (once : (before ++ given).Nodup) (rest : List Char) {bound : Nat}
    (enough : entries.length < bound) :
    fieldsWithin field bound (draft before)
        (continued entries ++ '\x7d' :: rest) =
      .ok (draft (before ++ given), rest) := by
  induction entries generalizing before given bound with
  | nil =>
      cases gives
      cases bound with
      | zero => omega
      | succ bound =>
          rw [List.append_nil]
          rfl
  | cons entry entries ih =>
      cases bound with
      | zero => omega
      | succ bound =>
          obtain ⟨before', given', others, same, readFirst⟩ :=
            reads.fieldAt_entry before gives once
              (ends_continued entries (.brace rest))
          have readOthers := ih others (same ▸ once)
            (Nat.lt_of_succ_lt_succ enough)
          rw [continued_cons, List.cons_append, List.append_assoc,
            fieldsWithin, skipSpace_of_not rfl]
          simp only [readFirst, bind, Except.bind]
          rw [readOthers, same]

/-- An object is read into the draft of the fields that it gives. -/
theorem ReadsFields.fields_append {given : List φ} {entries : List (List Char)}
    (gives : Entries struct given entries) (once : given.Nodup)
    (rest : List Char) :
    fields field (draft []) ([','].intercalate entries ++ '\x7d' :: rest) =
      .ok (draft given, rest) := by
  cases entries with
  | nil =>
      cases gives
      rfl
  | cons entry entries =>
      obtain ⟨before, given', others, same, readFirst⟩ :=
        reads.fieldAt_entry [] gives once
          (ends_continued entries (.brace rest))
      rw [List.nil_append] at same
      have readOthers := reads.fieldsWithin_append others (same ▸ once) rest
        (length_lt_continued entries '\x7d' rest)
      obtain ⟨tail, rfl⟩ := gives.opens
      rw [intercalate_cons, List.append_assoc, List.cons_append, fields,
        skipSpace_of_not rfl]
      rw [List.cons_append] at readFirst
      split
      case h_1 isEnd => exact absurd (List.cons.inj isEnd).1 (by decide)
      case h_2 =>
        simp only [readFirst, bind, Except.bind]
        rw [readOthers, same]

end Objects

section Arrays

variable {φ α : Type} {struct : StructWriting φ}
  {read : List Char → Decoded (α × List Char)} {value : α} {field : φ}
  {fields : List φ}

/-- The first element of an array is there unless all fields are left out. -/
theorem element_first (reads : Reads read (struct.writes field) value)
    {first : List Char} (writes : struct.writes field first)
    (opens : Opens first) (values : List (List Char)) (rest : List Char) :
    element read true ([','].intercalate (first :: values) ++ ']' :: rest) =
      .ok (some value, continued values ++ ']' :: rest) := by
  have readFirst := reads first _ writes
    (ends_continued values (.bracket rest))
  obtain ⟨head, tail, rfl, notSpace, notEnd⟩ := opens
  rw [intercalate_cons, List.append_assoc, List.cons_append, element,
    skipSpace_of_not notSpace]
  rw [List.cons_append] at readFirst
  split
  case h_1 isEnd => exact absurd (List.cons.inj isEnd).1 notEnd
  case h_2 =>
    simp only [if_true, readFirst, bind, Except.bind, pure, Except.pure]

/-- A further element of an array is there, or it is left out together with all
that would follow. -/
theorem element_further (reads : Reads read (struct.writes field) value)
    {values : List (List Char)} (row : Row struct (field :: fields) values)
    (rest : List Char) :
    ∃ given others, Row struct fields others ∧
      (given = some value ∨ given = none ∧ struct.omissible field) ∧
        element read false (continued values ++ ']' :: rest) =
          .ok (given, continued others ++ ']' :: rest) := by
  cases row with
  | omitted omissible =>
      obtain ⟨isOmissible, others⟩ := List.forall_mem_cons.mp omissible
      exact ⟨none, [], .omitted others, .inr ⟨rfl, isOmissible⟩, rfl⟩
  | @given _ _ text values writes others =>
      refine ⟨some value, values, others, .inl rfl, ?_⟩
      have readFirst := reads text _ writes
        (ends_continued values (.bracket rest))
      rw [continued_cons, List.cons_append, List.append_assoc, element,
        skipSpace_of_not rfl]
      split
      case h_1 isEnd => exact absurd (List.cons.inj isEnd).1 (by decide)
      case h_2 =>
        simp only [Bool.false_eq_true, if_false, if_true, afterWord, readFirst,
          bind, Except.bind]
        rfl

end Arrays

section Structs

variable {φ α : Type} {struct : StructWriting φ}
  {object array : List Char → Decoded (α × List Char)} {value : α}

/-- A struct is read from objects and arrays if it is read from both. -/
theorem structured_reads (wanted : Wanted)
    (readsObject : ∀ given entries rest, Entries struct given entries →
      given.Nodup → (∀ field, field ∉ given → struct.omissible field) →
        object ([','].intercalate entries ++ '\x7d' :: rest) =
          .ok (value, rest))
    (readsArray : ∀ values rest, Row struct struct.order values →
      array ([','].intercalate values ++ ']' :: rest) = .ok (value, rest)) :
    Reads (structured wanted object array) (PresentsStruct struct) value := by
  intro written rest presents _
  cases presents with
  | object gives once complete =>
      rw [enclosed, List.cons_append, List.append_assoc,
        List.singleton_append, structured, skipSpace_of_not rfl]
      exact readsObject _ _ rest gives once complete
  | array row =>
      rw [enclosed, List.cons_append, List.append_assoc,
        List.singleton_append, structured, skipSpace_of_not rfl]
      exact readsArray _ rest row

end Structs

end Metastring.Json
