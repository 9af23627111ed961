import Metastring.Json.Writer
import Metastring.Proofs.Drafts
import Metastring.Proofs.JsonStructs

/-!
# Whatever presents a specification in JSON is read as it

The same specification can be presented in many ways.  Every message and every
member is written either as an object or as an array, independently of what is
inside it.  An object has its entries in any order, among them any entries with
unknown keys, and may lack fields that have their default values.  An array has
the fields in declaration order and may lack a tail of such fields.  A kind goes
by any of its spellings, and a text is quoted with any escapes.

Every one of these presentations is read as the specification, and the text that
is written for a specification is one of them.
-/

namespace Metastring.Json

section Grammar

/-- The texts that present a kind. -/
inductive PresentsKind (kind : DeclaredKind) : (written : List Char) → Prop
  | spelling {spelling : String} {written : List Char}
      (spells : (spelling, kind) ∈ DeclaredKind.spellings)
      (quotes : Quoted spelling written) : PresentsKind kind written
  | entry {spelling : String} {written : List Char}
      (spells : (spelling, kind) ∈ DeclaredKind.spellings)
      (quotes : Quoted spelling written) :
      PresentsKind kind
        ('\x7b' :: (written ++ [':', 'n', 'u', 'l', 'l', '\x7d']))

/-- The text that presents a flag. -/
def flagLetters : Bool → List Char
  | true => ['t', 'r', 'u', 'e']
  | false => ['f', 'a', 'l', 's', 'e']

/-- The texts that present a block that there may be. -/
def PresentsBlock : Option (List Char → Prop) → (written : List Char) → Prop
  | none, written => written = ['n', 'u', 'l', 'l']
  | some presents, written => presents written

def messageWriting (type : ScopedName) (members : List (List Char → Prop)) :
    StructWriting MessageField where
  key := MessageField.key
  order := [.scope, .name, .members]
  writes
    | .scope => Quoted type.scope
    | .name => Quoted type.name
    | .members => PresentsList members
  omissible
    | .scope => type.scope = ""
    | .name => False
    | .members => members = []

def memberWriting (name : String) (kind : DeclaredKind) (shape : Shape)
    (block : Option (List Char → Prop)) : StructWriting MemberField where
  key := MemberField.key
  order := [.name, .kind, .isArray, .arraySize, .isUpperBound, .message]
  writes
    | .name => Quoted name
    | .kind => PresentsKind kind
    | .isArray => (· = flagLetters shape.isArray)
    | .arraySize => (· = Nat.toDigits 10 shape.arraySize.toNat)
    | .isUpperBound => (· = flagLetters shape.isUpperBound)
    | .message => PresentsBlock block
  omissible
    | .name | .kind => False
    | .isArray => shape.isArray = false
    | .arraySize => shape.arraySize = 0
    | .isUpperBound => shape.isUpperBound = false
    | .message => block = none

mutual

/-- The texts that present a specification. -/
def Presents : MessageSpec → (written : List Char) → Prop
  | .mk ⟨type, members⟩ =>
    PresentsStruct (messageWriting type (membersPresented members))
termination_by structural spec => spec

/-- The texts that present each of the members. -/
def membersPresented : List MemberSpec → List (List Char → Prop)
  | [] => []
  | member :: rest => PresentsMember member :: membersPresented rest
termination_by structural members => members

/-- The texts that present a member. -/
def PresentsMember : MemberSpec → (written : List Char) → Prop
  | ⟨name, kind, shape, none⟩ =>
    PresentsStruct (memberWriting name kind shape none)
  | ⟨name, kind, shape, some block⟩ =>
    PresentsStruct (memberWriting name kind shape (some (Presents block)))
termination_by structural member => member

end

end Grammar

section Values

theorem readTextAs_reads (wanted : Wanted) (text : String) :
    Reads (readTextAs wanted) (Quoted text) text := by
  intro written rest quotes _
  obtain ⟨tail, rfl, read⟩ := quoted_append quotes rest
  exact read

theorem readFlag_reads (flag : Bool) :
    Reads readFlag (· = flagLetters flag) flag := by
  rintro _ rest rfl _
  cases flag <;> rfl

theorem readSize_reads (size : UInt64) :
    Reads readSize (· = Nat.toDigits 10 size.toNat) size := by
  rintro _ rest rfl ends
  obtain ⟨value, isSize, read⟩ := finiteNumber_toDigits size ends
  have opens := (IsValue.number
    (.positive (isWhole_toDigits size.toNat) .none .none)).opens
  rw [List.append_nil, List.append_nil] at opens
  rw [readSize, skipSpace_of_opens opens]
  simp only [read, isSize]

theorem readKind_of_spells {spelling : String} {kind : DeclaredKind}
    (spells : (spelling, kind) ∈ DeclaredKind.spellings) :
    readKind spelling = .ok kind := by
  have known : ∀ entry ∈ DeclaredKind.spellings,
      DeclaredKind.ofSpelling? entry.1 = some entry.2 := by decide
  rw [readKind, known _ spells]

theorem readKindWithin_reads {levels : Nat} (enough : levels ≠ 0)
    (kind : DeclaredKind) :
    Reads (readKindWithin levels) (PresentsKind kind) kind := by
  intro written rest presents _
  cases presents with
  | spelling spells quotes =>
      obtain ⟨tail, rfl, read⟩ := quoted_append quotes rest
      rw [List.cons_append, readKindWithin, skipSpace_of_not rfl]
      simp only [read, readKind_of_spells spells, bind, Except.bind]
      rfl
  | @entry spelling written spells quotes =>
      obtain ⟨tail, rfl, read⟩ := quoted_append quotes
        (':' :: 'n' :: 'u' :: 'l' :: 'l' :: '\x7d' :: rest)
      have readSpelling : readTextAs .kindName
          ('"' :: (tail ++ ':' :: 'n' :: 'u' :: 'l' :: 'l' :: '\x7d' :: rest)) =
          .ok (spelling, ':' :: 'n' :: 'u' :: 'l' :: 'l' :: '\x7d' :: rest) :=
        read
      simp only [List.cons_append, List.append_assoc, List.nil_append]
      rw [readKindWithin, skipSpace_of_not rfl]
      simp only [if_neg enough, readSpelling, readKind_of_spells spells,
        afterColon_colon, bind, Except.bind]
      rfl

theorem readBlock_reads_none
    (read : List Char → Decoded (MessageSpec × List Char)) :
    Reads (readBlock read) (PresentsBlock none) none := by
  rintro _ rest rfl _
  rfl

theorem readBlock_reads_some
    {read : List Char → Decoded (MessageSpec × List Char)}
    {presents : List Char → Prop} {block : MessageSpec}
    (reads : Reads read presents block)
    (bracketed : ∀ written, presents written → Bracketed written) :
    Reads (readBlock read) (PresentsBlock (some presents)) (some block) := by
  intro written rest isPresented ends
  have readMessage := reads written rest isPresented ends
  -- A message starts with a bracket, so it is not taken for null.
  obtain ⟨tail, rfl | rfl⟩ := bracketed written isPresented
  all_goals
    rw [List.cons_append] at readMessage ⊢
    rw [readBlock, skipSpace_of_not rfl]
    split
    case h_1 isNull => exact absurd (List.cons.inj isNull).1 (by decide)
    case h_2 =>
      rw [readMessage]
      rfl

end Values

section Messages

variable {readMembers : List Char → Decoded (List MemberSpec × List Char)}
  (type : ScopedName) {members : List MemberSpec}
  {presented : List (List Char → Prop)}
  (reads : Reads readMembers (PresentsList presented) members)
include reads

theorem messageField_readsFields :
    ReadsFields (messageWriting type presented) (messageField readMembers)
      (messageDraft type members) where
  known before wanted value rest fresh writes ends := by
    have notGiven := mt (messageDraft_has type members before wanted).mp fresh
    have known : MessageField.ofKey?
        ((messageWriting type presented).key wanted) = some wanted :=
      MessageField.ofKey?_key wanted
    simp only [messageField, known, if_neg notGiven, afterColon_colon, bind,
      Except.bind]
    cases wanted with
    | scope =>
        simp only [readTextAs_reads .text type.scope value rest writes ends]
        simp [messageDraft, pure, Except.pure]
    | name =>
        simp only [readTextAs_reads .text type.name value rest writes ends]
        simp [messageDraft, pure, Except.pure]
    | members =>
        simp only [reads value rest writes ends]
        simp [messageDraft, pure, Except.pure]
  unknown before name value rest isUnknown isValue ends := by
    have unknown := MessageField.ofKey?_of_unknown isUnknown
    simp only [messageField, unknown, afterColon_colon, bind, Except.bind,
      skipValue_append isValue ends]
    rfl

variable (empty : presented = [] → members = [])
include empty

theorem messageObject_append {given : List MessageField}
    {entries : List (List Char)} (rest : List Char)
    (gives : Entries (messageWriting type presented) given entries)
    (once : given.Nodup)
    (complete : ∀ field, field ∉ given →
      (messageWriting type presented).omissible field) :
    messageObject readMembers
        ([','].intercalate entries ++ '\x7d' :: rest) =
      .ok (.mk ⟨type, members⟩, rest) := by
  have readFields :=
    (messageField_readsFields type reads).fields_append gives once rest
  have name : MessageField.name ∈ given := by_contra (complete .name)
  have completed :
      (messageDraft type members given).complete = .ok (.mk ⟨type, members⟩) :=
    MessageDraft.complete_eq type (if_pos name) (knownOr_ite (complete .scope))
      (knownOr_ite fun omitted => empty (complete .members omitted))
  have start : messageDraft type members [] = {} := by simp [messageDraft]
  rw [start] at readFields
  simp only [messageObject, readFields, completed, bind, Except.bind]
  rfl

theorem messageArray_append {values : List (List Char)} (rest : List Char)
    (row : Row (messageWriting type presented)
      (messageWriting type presented).order values) :
    messageArray readMembers ([','].intercalate values ++ ']' :: rest) =
      .ok (.mk ⟨type, members⟩, rest) := by
  cases row with
  | omitted omissible =>
      exact (omissible .name (.tail _ (List.mem_cons_self ..))).elim
  | @given _ _ scope values writes row =>
      have readScope := element_first (readTextAs_reads .text type.scope) writes
        writes.opens values rest
      obtain ⟨name, values, row, knownName, readName⟩ :=
        element_further (readTextAs_reads .text type.name) row rest
      obtain ⟨known, values, row, knownMembers, readKnown⟩ :=
        element_further reads row rest
      obtain rfl : name = some type.name := knownName.resolve_right (·.2)
      cases row
      have completed : MessageDraft.complete
          ⟨some type.scope, some type.name, known⟩ =
            .ok (.mk ⟨type, members⟩) :=
        MessageDraft.complete_eq type rfl (.inl rfl)
          (knownMembers.imp_right (.imp_right empty))
      have ended : afterWord [']'] (skipSpace (continued [] ++ ']' :: rest)) =
          .ok rest := rfl
      simp only [messageArray, readScope, readName, readKnown, completed, ended,
        Option.isNone_some, Bool.false_eq_true, if_false, bind, Except.bind]
      rfl

end Messages

section Members

variable {levels : Nat} (enough : levels ≠ 0)
  {readMessage : List Char → Decoded (MessageSpec × List Char)}
  (member : MemberSpec) {block : Option (List Char → Prop)}
  (reads : Reads (readBlock readMessage) (PresentsBlock block) member.nested)
include enough reads

theorem memberField_readsFields :
    ReadsFields (memberWriting member.name member.kind member.shape block)
      (memberField levels readMessage) (memberDraft member) where
  known before wanted value rest fresh writes ends := by
    have notGiven := mt (memberDraft_has member before wanted).mp fresh
    have known : MemberField.ofKey?
        ((memberWriting member.name member.kind member.shape block).key
          wanted) = some wanted :=
      MemberField.ofKey?_key wanted
    simp only [memberField, known, if_neg notGiven, afterColon_colon, bind,
      Except.bind]
    cases wanted with
    | name =>
        simp only [readTextAs_reads .text member.name value rest writes ends]
        simp [memberDraft, pure, Except.pure]
    | kind =>
        simp only [readKindWithin_reads enough member.kind value rest writes
          ends]
        simp [memberDraft, pure, Except.pure]
    | isArray =>
        simp only [readFlag_reads member.shape.isArray value rest writes ends]
        simp [memberDraft, pure, Except.pure]
    | arraySize =>
        simp only [readSize_reads member.shape.arraySize value rest writes ends]
        simp [memberDraft, pure, Except.pure]
    | isUpperBound =>
        simp only [readFlag_reads member.shape.isUpperBound value rest writes
          ends]
        simp [memberDraft, pure, Except.pure]
    | message =>
        simp only [reads value rest writes ends]
        simp [memberDraft, pure, Except.pure]
  unknown before name value rest isUnknown isValue ends := by
    have unknown := MemberField.ofKey?_of_unknown isUnknown
    simp only [memberField, unknown, afterColon_colon, bind, Except.bind,
      skipValue_append isValue ends]
    rfl

variable (empty : block = none → member.nested = none)
include empty

theorem memberObject_append {given : List MemberField}
    {entries : List (List Char)} (rest : List Char)
    (gives : Entries
      (memberWriting member.name member.kind member.shape block) given entries)
    (once : given.Nodup)
    (complete : ∀ field, field ∉ given →
      (memberWriting member.name member.kind member.shape block).omissible
        field) :
    memberObject levels readMessage
        ([','].intercalate entries ++ '\x7d' :: rest) = .ok (member, rest) := by
  have readFields :=
    (memberField_readsFields enough member reads).fields_append gives once rest
  have name : MemberField.name ∈ given := by_contra (complete .name)
  have kind : MemberField.kind ∈ given := by_contra (complete .kind)
  have completed : (memberDraft member given).complete = .ok member :=
    MemberDraft.complete_eq member (if_pos name) (if_pos kind)
      (knownOr_ite (complete .isArray)) (knownOr_ite (complete .arraySize))
      (knownOr_ite (complete .isUpperBound))
      (knownOr_ite fun omitted => empty (complete .message omitted))
  have start : memberDraft member [] = {} := by simp [memberDraft]
  rw [start] at readFields
  simp only [memberObject, readFields, completed, bind, Except.bind]
  rfl

theorem memberArray_append {values : List (List Char)} (rest : List Char)
    (row : Row (memberWriting member.name member.kind member.shape block)
      (memberWriting member.name member.kind member.shape block).order
      values) :
    memberArray levels readMessage ([','].intercalate values ++ ']' :: rest) =
      .ok (member, rest) := by
  cases row with
  | omitted omissible => exact (omissible .name (List.mem_cons_self ..)).elim
  | @given _ _ name values writes row =>
      have readName := element_first (readTextAs_reads .text member.name) writes
        writes.opens values rest
      obtain ⟨kind, values, row, knownKind, readKind⟩ :=
        element_further (readKindWithin_reads enough member.kind) row rest
      obtain ⟨isArray, values, row, knownFlag, readIsArray⟩ :=
        element_further (readFlag_reads member.shape.isArray) row rest
      obtain ⟨arraySize, values, row, knownSize, readArraySize⟩ :=
        element_further (readSize_reads member.shape.arraySize) row rest
      obtain ⟨isUpperBound, values, row, knownBound, readIsUpperBound⟩ :=
        element_further (readFlag_reads member.shape.isUpperBound) row rest
      obtain ⟨message, values, row, knownMessage, readMessage'⟩ :=
        element_further reads row rest
      obtain rfl : kind = some member.kind := knownKind.resolve_right (·.2)
      cases row
      have completed : MemberDraft.complete
          ⟨some member.name, some member.kind, isArray, arraySize,
            isUpperBound, message⟩ = .ok member :=
        MemberDraft.complete_eq member rfl rfl knownFlag knownSize knownBound
          (knownMessage.imp_right (.imp_right empty))
      have ended : afterWord [']'] (skipSpace (continued [] ++ ']' :: rest)) =
          .ok rest := rfl
      simp only [memberArray, readName, readKind, readIsArray, readArraySize,
        readIsUpperBound, readMessage', completed, ended, Option.isNone_some,
        Bool.false_eq_true, if_false, bind, Except.bind]
      rfl

end Members

section Specifications

theorem Presents.bracketed {spec : MessageSpec} {written : List Char}
    (presents : Presents spec written) : Bracketed written := by
  obtain ⟨⟨type, members⟩⟩ := spec
  rw [Presents] at presents
  exact presents.bracketed

theorem PresentsMember.bracketed {member : MemberSpec} {written : List Char}
    (presents : PresentsMember member written) : Bracketed written := by
  obtain ⟨name, kind, shape, nested⟩ := member
  cases nested <;>
  · rw [PresentsMember] at presents
    exact presents.bracketed

theorem opens_of_membersPresented {members : List MemberSpec}
    {presents : List Char → Prop}
    (isPresented : presents ∈ membersPresented members) {text : List Char}
    (presented : presents text) : Opens text := by
  induction members with
  | nil => simp [membersPresented] at isPresented
  | cons member members ih =>
      rw [membersPresented] at isPresented
      rcases List.mem_cons.mp isPresented with rfl | later
      · exact PresentsMember.bracketed presented |>.opens
      · exact ih later

/-- A message is read from what presents it where its members are read. -/
theorem readMessage_reads_of_members {levels : Nat} (type : ScopedName)
    {members : List MemberSpec} {presented : List (List Char → Prop)}
    (reads : Reads (readMembers levels) (PresentsList presented) members)
    (empty : presented = [] → members = []) :
    Reads (readMessage (levels + 1))
      (PresentsStruct (messageWriting type presented)) (.mk ⟨type, members⟩) := by
  rw [readMessage]
  exact structured_reads .message
    (fun _ _ rest => messageObject_append type reads empty rest)
    (fun _ rest => messageArray_append type reads empty rest)

/-- A member is read from what presents it where its block is read. -/
theorem readMember_reads_of_block {levels : Nat} (enough : levels ≠ 0)
    (member : MemberSpec) {block : Option (List Char → Prop)}
    (reads : Reads (readBlock (readMessage levels)) (PresentsBlock block)
      member.nested)
    (empty : block = none → member.nested = none) :
    Reads (readMember (levels + 1))
      (PresentsStruct (memberWriting member.name member.kind member.shape block))
      member := by
  rw [readMember]
  exact structured_reads .member
    (fun _ _ rest => memberObject_append enough member reads empty rest)
    (fun _ rest => memberArray_append enough member reads empty rest)

mutual

/-- Where there are three brackets for each level and one for a kind, a message
is read from every text that presents it. -/
theorem readMessage_reads : (spec : MessageSpec) → (levels : Nat) →
    (enough : 3 * spec.levels + 1 ≤ levels) →
      Reads (readMessage levels) (Presents spec) spec
  | .mk ⟨type, members⟩, levels, enough => by
      rw [MessageSpec.levels, MessageSpec.descriptor, Descriptor.height]
        at enough
      obtain ⟨inner, rfl⟩ : ∃ inner, levels = inner + 2 :=
        ⟨levels - 2, by omega⟩
      have readsEach := readMember_reads_each members inner (by omega)
      have reads : Reads (readMembers (inner + 1))
          (PresentsList (membersPresented members)) members := by
        rw [readMembers]
        exact listed_reads readsEach fun _ isPresented _ presented =>
          opens_of_membersPresented isPresented presented
      have empty (none : membersPresented members = []) : members = [] := by
        cases members with
        | nil => rfl
        | cons => simp [membersPresented] at none
      rw [Presents]
      exact readMessage_reads_of_members type reads empty
termination_by structural spec => spec

theorem readMember_reads_each : (members : List MemberSpec) → (levels : Nat) →
    (enough : 3 * membersHeight (memberDescriptors members) + 2 ≤ levels) →
      List.Forall₂ (Reads (readMember levels)) (membersPresented members)
        members
  | [], _, _ => .nil
  | member :: members, levels, enough => by
      rw [memberDescriptors, membersHeight] at enough
      rw [membersPresented]
      exact .cons (readMember_reads member levels (by omega))
        (readMember_reads_each members levels (by omega))
termination_by structural members => members

theorem readMember_reads : (member : MemberSpec) → (levels : Nat) →
    (enough : 3 * memberHeight (memberDescriptor member) + 2 ≤ levels) →
      Reads (readMember levels) (PresentsMember member) member
  | ⟨name, kind, shape, none⟩, levels, enough => by
      obtain ⟨inner, rfl⟩ : ∃ inner, levels = inner + 1 :=
        ⟨levels - 1, by omega⟩
      have kindFits : inner ≠ 0 := by omega
      have reads := readBlock_reads_none (readMessage inner)
      rw [PresentsMember]
      exact readMember_reads_of_block kindFits ⟨name, kind, shape, none⟩ reads
        fun _ => rfl
  | ⟨name, kind, shape, some block⟩, levels, enough => by
      rw [memberDescriptor, memberHeight] at enough
      obtain ⟨inner, rfl⟩ : ∃ inner, levels = inner + 1 :=
        ⟨levels - 1, by omega⟩
      have kindFits : inner ≠ 0 := by omega
      have reads := readBlock_reads_some
        (readMessage_reads block inner (by rw [MessageSpec.levels]; omega))
        fun _ presents => presents.bracketed
      rw [PresentsMember]
      exact readMember_reads_of_block kindFits
        ⟨name, kind, shape, some block⟩ reads nofun
termination_by structural member => member

end

end Specifications

section Writing

theorem writeEntry_toList (key value : String) :
    (writeEntry key value).toList =
      (writeText key).toList ++ ':' :: value.toList := by
  simp [writeEntry]

theorem writeObject_toList (entries : List String) :
    (writeObject entries).toList =
      enclosed '\x7b' '\x7d' (entries.map String.toList) := by
  simp [writeObject, enclosed]

theorem writeFlag_toList (flag : Bool) :
    (writeFlag flag).toList = flagLetters flag := by
  cases flag <;> rfl

theorem spells_name (kind : DeclaredKind) :
    (kind.name, kind) ∈ DeclaredKind.spellings := by
  cases kind with
  | leaf leaf => cases leaf <;> decide
  | message => decide

theorem Entries.writeEntry {φ : Type} {struct : StructWriting φ} (field : φ)
    {given : List φ} {value : String} {entries : List String}
    (writes : struct.writes field value.toList)
    (others : Entries struct given (entries.map String.toList)) :
    Entries struct (field :: given)
      ((writeEntry (struct.key field) value :: entries).map String.toList) := by
  rw [List.map_cons, writeEntry_toList]
  exact .field (quoted_writeText _) writes others

theorem entries_memberEntries (member : MemberSpec)
    {block : Option (List Char → Prop)} {given : List MemberField}
    {entries : List String}
    (others : Entries
      (memberWriting member.name member.kind member.shape block) given
      (entries.map String.toList)) :
    Entries (memberWriting member.name member.kind member.shape block)
      ([.name, .kind, .isArray, .arraySize, .isUpperBound] ++ given)
      ((memberEntries member ++ entries).map String.toList) := by
  refine .writeEntry .name (quoted_writeText _) (.writeEntry .kind ?_
    (.writeEntry .isArray ?_ (.writeEntry .arraySize ?_
      (.writeEntry .isUpperBound ?_ others))))
  · exact .spelling (spells_name member.kind) (quoted_writeText _)
  · exact writeFlag_toList member.shape.isArray
  · exact decimal_toList member.shape.arraySize.toNat
  · exact writeFlag_toList member.shape.isUpperBound

theorem presents_message (type : ScopedName) {presented : List (List Char → Prop)}
    {list : String} (presents : PresentsList presented list.toList) :
    PresentsStruct (messageWriting type presented)
      (writeObject [writeEntry "namespace" (writeText type.scope),
        writeEntry "name" (writeText type.name),
        writeEntry "members" list]).toList := by
  have last : Entries (messageWriting type presented) [.members]
      ([writeEntry "members" list].map String.toList) :=
    .writeEntry MessageField.members presents .nil
  have gives : Entries (messageWriting type presented) [.scope, .name, .members]
      ([writeEntry "namespace" (writeText type.scope),
        writeEntry "name" (writeText type.name),
        writeEntry "members" list].map String.toList) :=
    .writeEntry MessageField.scope (quoted_writeText _)
      (.writeEntry MessageField.name (quoted_writeText _) last)
  rw [writeObject_toList]
  refine .object gives (by decide) fun field omitted => ?_
  cases field <;> simp at omitted

mutual

/-- What is written for a specification presents it. -/
theorem presents_writeSpec : (spec : MessageSpec) →
    Presents spec (writeSpec spec).toList
  | .mk ⟨type, members⟩ => by
      have list : PresentsList (membersPresented members)
          ("[" ++ ",".intercalate (writeMembers members) ++ "]").toList := by
        refine ⟨_, presents_writeMembers members, ?_⟩
        simp [enclosed]
      rw [Presents, writeSpec]
      exact presents_message type list
termination_by structural spec => spec

theorem presents_writeMembers : (members : List MemberSpec) →
    List.Forall₂ (fun presents text => presents text)
      (membersPresented members) ((writeMembers members).map String.toList)
  | [] => by
      rw [membersPresented, writeMembers]
      exact .nil
  | member :: members => by
      rw [membersPresented, writeMembers, List.map_cons]
      exact .cons (presents_writeMember member) (presents_writeMembers members)
termination_by structural members => members

theorem presents_writeMember : (member : MemberSpec) →
    PresentsMember member
      (writeObject (memberEntries member ++ writeBlock member)).toList
  | ⟨name, kind, shape, none⟩ => by
      have last : Entries (memberWriting name kind shape none) []
          (([] : List String).map String.toList) := .nil
      have gives := entries_memberEntries ⟨name, kind, shape, none⟩ last
      rw [PresentsMember, writeBlock, writeObject_toList]
      refine .object gives (by decide) fun field omitted => ?_
      cases field <;> simp [memberWriting] at omitted ⊢
  | ⟨name, kind, shape, some block⟩ => by
      have presents := presents_writeSpec block
      have last : Entries (memberWriting name kind shape (some (Presents block)))
          [.message]
          ([writeEntry "message" (writeSpec block)].map String.toList) :=
        .writeEntry MemberField.message presents .nil
      have gives := entries_memberEntries ⟨name, kind, shape, some block⟩ last
      rw [PresentsMember, writeBlock, writeObject_toList]
      refine .object gives (by decide) fun field omitted => ?_
      cases field <;> simp at omitted
termination_by structural member => member

end

end Writing

/-- A specification with up to 42 levels is read from every text that presents
it, and the text that is written for it is one of these. -/
theorem presentations_are_read (spec : MessageSpec)
    (bounded : spec.levels ≤ 42) :
    (∀ text : String, Presents spec text.toList → readSpec text = .ok spec) ∧
      Presents spec (writeSpec spec).toList ∧
        readSpec (writeSpec spec) = .ok spec := by
  have read (text : String) (presents : Presents spec text.toList) :
      readSpec text = .ok spec := by
    have reads := readMessage_reads spec levelLimit
      (by rw [levelLimit]; omega) text.toList [] presents .nil
    rw [List.append_nil] at reads
    rw [readSpec, reads]
    rfl
  exact ⟨read, presents_writeSpec spec, read _ (presents_writeSpec spec)⟩

/-- A message with one member, a float. -/
def oneFloat : MessageSpec :=
  .mk ⟨⟨"", "A"⟩, [⟨"y", .leaf .float, {}, none⟩]⟩

/-- An object that presents it.  It starts with an unknown key, its member is an
array, the kind of the member is an object, and its name is escaped. -/
def oneFloatText : String :=
  "\x7b\"x\":[0],\"members\":[[\"y\",\x7b\"float32\":null\x7d]]," ++
    "\"name\":\"\\u0041\"\x7d"

theorem presents_oneFloat : Presents oneFloat oneFloatText.toList := by
  have kind : PresentsKind (.leaf .float) ('\x7b' ::
      ((writeText "float32").toList ++ [':', 'n', 'u', 'l', 'l', '\x7d'])) :=
    .entry (by decide) (quoted_writeText _)
  have row : Row (memberWriting "y" (.leaf .float) {} none)
      [.name, .kind, .isArray, .arraySize, .isUpperBound, .message]
      [(writeText "y").toList, _] :=
    .given (quoted_writeText _) (.given kind (.omitted fun field isLeftOut => by
      revert isLeftOut
      cases field <;> simp [memberWriting]))
  have members : PresentsList
      (membersPresented [⟨"y", .leaf .float, {}, none⟩]) _ :=
    ⟨_, .cons (.array row) .nil, rfl⟩
  have zero : IsValue ['0'] :=
    .number (.positive (isWhole_toDigits 0) .none .none)
  have name : Quoted "A" ['"', '\\', 'u', '0', '0', '4', '1', '"'] :=
    have denotes : unit? '0' '0' '4' '1' = some 65 := rfl
    ⟨_, .unit denotes (by decide) .nil, rfl⟩
  have gives : Entries (messageWriting ⟨"", "A"⟩
      (membersPresented [⟨"y", .leaf .float, {}, none⟩])) [.members, .name] _ :=
    .unknown (by decide) (quoted_writeText "x") (.array (.one zero))
      (.field (quoted_writeText _) members
        (.field (quoted_writeText _) name .nil))
  have presents := PresentsStruct.object gives (by decide) fun field omitted => by
    revert omitted
    cases field <;> simp [messageWriting]
  rw [oneFloat, Presents]
  exact presents

theorem presentations_are_read_oneFloat :
    oneFloat.levels ≤ 42 ∧ Presents oneFloat oneFloatText.toList ∧
      readSpec oneFloatText = .ok oneFloat :=
  have bounded : oneFloat.levels ≤ 42 := by decide
  ⟨bounded, presents_oneFloat,
    (presentations_are_read oneFloat bounded).1 _ presents_oneFloat⟩

end Metastring.Json
