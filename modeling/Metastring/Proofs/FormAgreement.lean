import Metastring.Proofs.Drafts
import Metastring.Proofs.FileCompilation
import Metastring.Proofs.FlowDocuments
import Metastring.Proofs.SpecNodes

/-!
# A written specification reads alike in both forms

Read in YAML, a specification that was written in JSON comes back: every field
is found under its key, and each message takes up three of the collections that
may be open at once.  So a descriptor file with this text is loaded as the same
specification, and has the same outcomes, whatever the extension of its name.
-/

namespace Metastring

namespace Yaml

section Nodes

variable (document : Document) {α δ : Type}

/-- A reader takes a node for a value, and leaves what lies behind. -/
def ReadsNode (read : Item → Ahead → Decoded (α × Ahead)) (node : FlowNode)
    (value : α) : Prop :=
  ∀ rest aliases, atNode document read ⟨node.items ++ rest, aliases⟩ =
    .ok (value, ⟨rest, aliases⟩)

/-- The first item of a node neither ends a collection nor is an alias. -/
theorem exists_first_item (node : FlowNode) :
    ∃ first more, node.items = first :: more ∧ first ≠ .sequenceEnd ∧
      first ≠ .mappingEnd ∧ ∀ slot, first ≠ .alias slot := by
  cases node with
  | quoted content | plain content | sequence elements | mapping entries =>
      rw [FlowNode.items]
      exact ⟨_, _, rfl, by simp⟩

variable {document}

theorem atNode_of_first {first : Item} (notAlias : ∀ slot, first ≠ .alias slot)
    (read : Item → Ahead → Decoded (α × Ahead)) (more : List Item)
    (aliases : Nat) :
    atNode document read ⟨first :: more, aliases⟩ =
      read first ⟨more, aliases⟩ := by
  unfold atNode
  split
  case h_1 empty => simp at empty
  case h_2 slot others isAlias =>
    exact absurd (List.cons.inj isAlias).1 (notAlias slot)
  case h_3 item others _ same =>
    obtain ⟨rfl, rfl⟩ := List.cons.inj same
    rfl

theorem readsNode_of_read {read : Item → Ahead → Decoded (α × Ahead)}
    {node : FlowNode} {value : α} {first : Item} {more : List Item}
    (isFirst : node.items = first :: more) (notAlias : ∀ slot, first ≠ .alias slot)
    (reads : ∀ rest aliases, read first ⟨more ++ rest, aliases⟩ =
      .ok (value, ⟨rest, aliases⟩)) :
    ReadsNode document read node value := by
  intro rest aliases
  rw [isFirst, List.cons_append, atNode_of_first notAlias]
  exact reads rest aliases

/-- What is read can be completed to a value. -/
theorem ReadsNode.complete {read : Item → Ahead → Decoded (δ × Ahead)}
    {complete : δ → Decoded α} {node : FlowNode} {draft : δ} {value : α}
    (reads : ReadsNode document read node draft)
    (completes : complete draft = .ok value) :
    ReadsNode document (fun item ahead => do
      let (draft, ahead) ← read item ahead
      return (← complete draft, ahead)) node value := by
  intro rest aliases
  obtain ⟨first, more, isFirst, -, -, notAlias⟩ := exists_first_item node
  have read := reads rest aliases
  rw [isFirst, List.cons_append, atNode_of_first notAlias] at read ⊢
  simp only [read, completes, bind, Except.bind, pure, Except.pure]

theorem readsNode_text (wanted : Wanted) (text : String) :
    ReadsNode document (readText wanted) (textNode text) text := by
  rw [textNode]
  refine readsNode_of_read (by rw [FlowNode.items]) (by simp)
    fun rest aliases => ?_
  simp [readText]

theorem readsNode_flag (flag : Bool) :
    ReadsNode document readFlag (flagNode flag) flag := by
  rw [flagNode]
  refine readsNode_of_read (by rw [FlowNode.items]) (by simp)
    fun rest aliases => ?_
  cases flag <;> rfl

theorem natural?_toDigits (number : Nat) :
    natural? (Nat.toDigits 10 number) = some number := by
  rw [← digits?_toDigits number]
  obtain ⟨⟨nonempty, areDigits⟩, noPadding⟩ := Json.isWhole_toDigits number
  generalize Nat.toDigits 10 number = letters at nonempty areDigits noPadding ⊢
  obtain ⟨letter, rest, rfl⟩ := List.exists_cons_of_ne_nil nonempty
  have noSign : letter ≠ '+' := by
    rintro rfl
    exact absurd (areDigits _ List.mem_cons_self) (by decide)
  by_cases isZero : letter = '0'
  · obtain rfl := isZero
    rw [noPadding rest rfl]
    rfl
  · simp [natural?, magnitude?, noSign, isZero]

theorem readsNode_size (size : UInt64) :
    ReadsNode document readSize
      (.plain (Nat.toDigits 10 size.toNat)) size := by
  refine readsNode_of_read (by rw [FlowNode.items]) (by simp)
    fun rest aliases => ?_
  have inRange : size.toNat < UInt64.size := size.toNat_lt
  simp [readSize, isPlain, natural?_toDigits, size?, inRange]

theorem readsNode_kind (kind : DeclaredKind) :
    ReadsNode document readKindNode (textNode kind.name) kind := by
  rw [textNode]
  refine readsNode_of_read (by rw [FlowNode.items]) (by simp)
    fun rest aliases => ?_
  have read : readKind kind.name = .ok kind :=
    Json.readKind_of_spells (Json.spells_name kind)
  simp [readKindNode, taggedSpelling?, read]

end Nodes

section Collections

variable {document : Document} {α δ : Type}

/-- Each of some nodes is at least one item. -/
theorem length_le_flatten {ν : Type} {nodes : List ν} {items : ν → List Item}
    (nonempty : ∀ node ∈ nodes, items node ≠ []) :
    nodes.length ≤ (nodes.map items).flatten.length := by
  induction nodes with
  | nil => exact Nat.le_refl 0
  | cons node nodes ih =>
      obtain ⟨first, others⟩ := List.forall_mem_cons.mp nonempty
      have positive := List.length_pos_iff.mpr first
      have fewer := ih others
      rw [List.map_cons, List.flatten_cons, List.length_append,
        List.length_cons]
      omega

theorem elementsWithin_nodes {read : Item → Ahead → Decoded (α × Ahead)}
    {nodes : List FlowNode} {values : List α}
    (reads : List.Forall₂ (ReadsNode document read) nodes values) {bound : Nat}
    (enough : nodes.length < bound) (rest : List Item) (aliases : Nat) :
    elementsWithin document read bound
        ⟨(nodes.map FlowNode.items).flatten ++ .sequenceEnd :: rest, aliases⟩ =
      .ok (values, ⟨rest, aliases⟩) := by
  induction reads generalizing bound with
  | nil =>
      cases bound with
      | zero => simp at enough
      | succ bound => rfl
  | @cons node value nodes values readsFirst _ ih =>
      cases bound with
      | zero => simp at enough
      | succ bound =>
          have others := ih (Nat.lt_of_succ_lt_succ enough)
          obtain ⟨first, more, isFirst, notEnd, -⟩ := exists_first_item node
          have read := readsFirst ((nodes.map FlowNode.items).flatten ++
            .sequenceEnd :: rest) aliases
          rw [List.map_cons, List.flatten_cons, List.append_assoc]
          rw [isFirst, List.cons_append] at read ⊢
          unfold elementsWithin
          split
          case h_1 isEnd => exact absurd (List.cons.inj isEnd).1 notEnd
          case h_2 =>
            simp only [read, others, bind, Except.bind, pure, Except.pure]

theorem readsNode_sequence {read : Item → Ahead → Decoded (α × Ahead)}
    {nodes : List FlowNode} {values : List α}
    (reads : List.Forall₂ (ReadsNode document read) nodes values) :
    ReadsNode document (listed fun ahead =>
      elementsWithin document read (ahead.items.length + 1) ahead)
        (.sequence nodes) values := by
  refine readsNode_of_read (by rw [FlowNode.items]) (by simp)
    fun rest aliases => ?_
  have enough := length_le_flatten fun (node : FlowNode) (_ : node ∈ nodes) =>
    by
      obtain ⟨first, more, isFirst, -⟩ := exists_first_item node
      exact isFirst ▸ List.cons_ne_nil first more
  rw [listed, List.append_assoc, List.singleton_append]
  refine elementsWithin_nodes reads ?_ rest aliases
  rw [List.length_append]
  omega

/-- The entries of a mapping are read one after the other and take a draft to
another one. -/
inductive FieldsRead (field : String → δ → Ahead → Decoded (δ × Ahead)) :
    δ → List (FlowEntry FlowNode) → δ → Prop
  | nil (draft : δ) : FieldsRead field draft [] draft
  | cons {draft middle last : δ} {entry : FlowEntry FlowNode}
      {entries : List (FlowEntry FlowNode)}
      (reads : ∀ rest aliases,
        field (String.ofList entry.key) draft
          ⟨entry.value.items ++ rest, aliases⟩ = .ok (middle, ⟨rest, aliases⟩))
      (others : FieldsRead field middle entries last) :
      FieldsRead field draft (entry :: entries) last

theorem entriesWithin_fields
    {field : String → δ → Ahead → Decoded (δ × Ahead)} {draft last : δ}
    {entries : List (FlowEntry FlowNode)}
    (reads : FieldsRead field draft entries last) {bound : Nat}
    (enough : entries.length < bound) (rest : List Item) (aliases : Nat) :
    entriesWithin document field bound draft
        ⟨(entries.map fun entry => .scalar none .doubleQuoted entry.key ::
          entry.value.items).flatten ++ .mappingEnd :: rest, aliases⟩ =
      .ok (last, ⟨rest, aliases⟩) := by
  induction reads generalizing bound with
  | nil =>
      cases bound with
      | zero => simp at enough
      | succ bound => rfl
  | @cons draft middle last entry entries readsFirst _ ih =>
      cases bound with
      | zero => simp at enough
      | succ bound =>
          have others := ih (Nat.lt_of_succ_lt_succ enough)
          rw [List.map_cons, List.flatten_cons, List.append_assoc,
            List.cons_append, entriesWithin]
          simp only [atNode, readText, readsFirst, others, bind, Except.bind]

/-- Mappings are read if their entries are. -/
theorem readsNode_mapping {wanted : Wanted}
    {field : String → δ → Ahead → Decoded (δ × Ahead)} {draft last : δ}
    {entries : List (FlowEntry FlowNode)}
    (reads : FieldsRead field draft entries last) :
    ReadsNode document (mapped wanted (fun draft ahead =>
      entriesWithin document field (ahead.items.length + 1) draft ahead) draft)
        (.mapping entries) last := by
  refine readsNode_of_read (by rw [FlowNode.items]) (by simp)
    fun rest aliases => ?_
  have enough := length_le_flatten
    fun (entry : FlowEntry FlowNode) (_ : entry ∈ entries) =>
      List.cons_ne_nil (Item.scalar none .doubleQuoted entry.key)
        entry.value.items
  rw [mapped, List.append_assoc, List.singleton_append]
  refine entriesWithin_fields reads ?_ rest aliases
  rw [List.length_append]
  omega

end Collections

section Messages

variable {document : Document}

/-- The node of a field of a message is read as what the message has there. -/
def MessageFieldRead (document : Document)
    (readMembers : Item → Ahead → Decoded (List MemberSpec × Ahead))
    (type : ScopedName) (members : List MemberSpec) (node : FlowNode) :
    MessageField → Prop
  | .scope => ReadsNode document (readText .text) node type.scope
  | .name => ReadsNode document (readText .text) node type.name
  | .members => ReadsNode document readMembers node members

theorem messageField_entry
    {readMembers : Item → Ahead → Decoded (List MemberSpec × Ahead)}
    {type : ScopedName} {members : List MemberSpec} {node : FlowNode}
    {field : MessageField} {given : List MessageField} (fresh : field ∉ given)
    (reads : MessageFieldRead document readMembers type members node field)
    (rest : List Item) (aliases : Nat) :
    messageField document readMembers (String.ofList field.key.toList)
        (messageDraft type members given) ⟨node.items ++ rest, aliases⟩ =
      .ok (messageDraft type members (field :: given), ⟨rest, aliases⟩) := by
  have notGiven : (messageDraft type members given).has field = false := by
    simpa using mt (messageDraft_has type members given field).mp fresh
  rw [String.ofList_toList, messageField, MessageField.ofKey?_key]
  simp only [notGiven, Bool.false_eq_true, if_false]
  cases field with
  | scope | name | members =>
      have read := reads rest aliases
      simp [read, messageDraft, bind, Except.bind, pure, Except.pure]

theorem readsNode_message {levels : Nat} (type : ScopedName)
    {members : List MemberSpec} {nodes : List FlowNode}
    (reads : List.Forall₂ (ReadsNode document (readMember document levels))
      nodes members) :
    ReadsNode document (readMessage document (levels + 2))
      (.mapping
        [⟨MessageField.scope.key.toList, textNode type.scope⟩,
          ⟨MessageField.name.key.toList, textNode type.name⟩,
          ⟨MessageField.members.key.toList, .sequence nodes⟩])
      (.mk ⟨type, members⟩) := by
  have list : MessageFieldRead document (readMembers document (levels + 1)) type
      members (.sequence nodes) .members :=
    readsNode_sequence reads
  have scope : MessageFieldRead document (readMembers document (levels + 1)) type
      members (textNode type.scope) .scope :=
    readsNode_text .text type.scope
  have name : MessageFieldRead document (readMembers document (levels + 1)) type
      members (textNode type.name) .name :=
    readsNode_text .text type.name
  have fields : FieldsRead
      (messageField document (readMembers document (levels + 1)))
      (messageDraft type members [])
      [⟨MessageField.scope.key.toList, textNode type.scope⟩,
        ⟨MessageField.name.key.toList, textNode type.name⟩,
        ⟨MessageField.members.key.toList, .sequence nodes⟩]
      (messageDraft type members [.members, .name, .scope]) :=
    .cons (messageField_entry (by simp) scope)
      (.cons (messageField_entry (by simp) name)
        (.cons (messageField_entry (by simp) list) (.nil _)))
  exact (readsNode_mapping fields).complete rfl

/-- The node of a field of a member is read as what the member has there. -/
def MemberFieldRead (document : Document)
    (readMessage : Item → Ahead → Decoded (MessageSpec × Ahead))
    (member : MemberSpec) (node : FlowNode) : MemberField → Prop
  | .name => ReadsNode document (readText .text) node member.name
  | .kind => ReadsNode document readKindNode node member.kind
  | .isArray => ReadsNode document readFlag node member.shape.isArray
  | .arraySize => ReadsNode document readSize node member.shape.arraySize
  | .isUpperBound => ReadsNode document readFlag node member.shape.isUpperBound
  | .message => ReadsNode document (readOptional readMessage) node member.nested

theorem memberField_entry
    {readMessage : Item → Ahead → Decoded (MessageSpec × Ahead)}
    {member : MemberSpec} {node : FlowNode} {field : MemberField}
    {given : List MemberField} (fresh : field ∉ given)
    (reads : MemberFieldRead document readMessage member node field)
    (rest : List Item) (aliases : Nat) :
    memberField document readMessage (String.ofList field.key.toList)
        (memberDraft member given) ⟨node.items ++ rest, aliases⟩ =
      .ok (memberDraft member (field :: given), ⟨rest, aliases⟩) := by
  have notGiven : (memberDraft member given).has field = false := by
    simpa using mt (memberDraft_has member given field).mp fresh
  rw [String.ofList_toList, memberField, MemberField.ofKey?_key]
  simp only [notGiven, Bool.false_eq_true, if_false]
  cases field with
  | name | kind | isArray | arraySize | isUpperBound | message =>
      have read := reads rest aliases
      simp [read, memberDraft, bind, Except.bind, pure, Except.pure]

/-- The fields of a member in front of its block. -/
theorem fieldsRead_member
    {readMessage : Item → Ahead → Decoded (MessageSpec × Ahead)}
    (member : MemberSpec) {block : List (FlowEntry FlowNode)}
    {last : MemberDraft}
    (others : FieldsRead (memberField document readMessage)
      (memberDraft member [.isUpperBound, .arraySize, .isArray, .kind, .name])
      block last) :
    FieldsRead (memberField document readMessage) (memberDraft member [])
      (memberFlowEntries member ++ block) last := by
  have name : MemberFieldRead document readMessage member
      (textNode member.name) .name := readsNode_text .text member.name
  have kind : MemberFieldRead document readMessage member
      (textNode member.kind.name) .kind := readsNode_kind member.kind
  have isArray : MemberFieldRead document readMessage member
      (flagNode member.shape.isArray) .isArray :=
    readsNode_flag member.shape.isArray
  have arraySize : MemberFieldRead document readMessage member
      (.plain (Nat.toDigits 10 member.shape.arraySize.toNat)) .arraySize :=
    readsNode_size member.shape.arraySize
  have isUpperBound : MemberFieldRead document readMessage member
      (flagNode member.shape.isUpperBound) .isUpperBound :=
    readsNode_flag member.shape.isUpperBound
  exact .cons (memberField_entry (by simp) name)
    (.cons (memberField_entry (by simp) kind)
      (.cons (memberField_entry (by simp) isArray)
        (.cons (memberField_entry (by simp) arraySize)
          (.cons (memberField_entry (by simp) isUpperBound) others))))

theorem readsNode_optional {α : Type}
    {read : Item → Ahead → Decoded (α × Ahead)}
    {entries : List (FlowEntry FlowNode)} {value : α}
    (reads : ReadsNode document read (.mapping entries) value) :
    ReadsNode document (readOptional read) (.mapping entries) (some value) := by
  intro rest aliases
  have notAlias (slot : Nat) : Item.mappingStart none ≠ .alias slot := nofun
  have read := reads rest aliases
  rw [FlowNode.items, List.cons_append, atNode_of_first notAlias] at read ⊢
  simp only [readOptional, read, bind, Except.bind, pure, Except.pure,
    Bool.false_eq_true, if_false]

mutual

/-- Where three collections may be opened for each level, a message is read from
its node. -/
theorem readMessage_node : (spec : MessageSpec) → (levels : Nat) →
    (enough : 3 * spec.levels ≤ levels) →
      ReadsNode document (readMessage document levels) spec.node spec
  | .mk ⟨type, members⟩, levels, enough => by
      rw [MessageSpec.levels, MessageSpec.descriptor, Descriptor.height]
        at enough
      obtain ⟨inner, rfl⟩ : ∃ inner, levels = inner + 2 :=
        ⟨levels - 2, by omega⟩
      rw [MessageSpec.node]
      exact readsNode_message type (readMember_nodes members inner (by omega))
termination_by structural spec => spec

theorem readMember_nodes : (members : List MemberSpec) → (levels : Nat) →
    (enough : 3 * membersHeight (memberDescriptors members) + 1 ≤ levels) →
      List.Forall₂ (ReadsNode document (readMember document levels))
        (memberNodes members) members
  | [], _, _ => .nil
  | member :: members, levels, enough => by
      rw [memberDescriptors, membersHeight] at enough
      obtain ⟨inner, rfl⟩ : ∃ inner, levels = inner + 1 :=
        ⟨levels - 1, by omega⟩
      obtain ⟨last, reads, completes⟩ := readBlock_entry member inner (by omega)
      have fields := fieldsRead_member member reads
      rw [memberNodes]
      exact .cons ((readsNode_mapping fields).complete completes)
        (readMember_nodes members (inner + 1) (by omega))
termination_by structural members => members

/-- Behind the other fields the block completes a member. -/
theorem readBlock_entry : (member : MemberSpec) → (levels : Nat) →
    (enough : 3 * memberHeight (memberDescriptor member) ≤ levels) →
      ∃ last, FieldsRead (memberField document (readMessage document levels))
        (memberDraft member [.isUpperBound, .arraySize, .isArray, .kind, .name])
        (blockEntry member) last ∧ last.complete = .ok member
  | ⟨name, kind, shape, none⟩, levels, enough =>
      ⟨_, .nil _, rfl⟩
  | ⟨name, kind, shape, some block⟩, levels, enough => by
      rw [memberDescriptor, memberHeight] at enough
      have reads : MemberFieldRead document (readMessage document levels)
          ⟨name, kind, shape, some block⟩ block.node .message := by
        have inner := readMessage_node block levels enough
        obtain ⟨⟨type, members⟩⟩ := block
        rw [MessageSpec.node] at inner ⊢
        exact readsNode_optional inner
      exact ⟨_, .cons (memberField_entry (by simp) reads) (.nil _), rfl⟩
termination_by structural member => member

end

end Messages

section Specifications

/-- A written specification is read back. -/
theorem readSpec_writeSpec {spec : MessageSpec} (bounded : spec.levels ≤ 42)
    (printable : ArePrintable spec.texts) :
    readSpec (Json.writeSpec spec) = .ok spec := by
  have writable := spec.node_writable printable
  have written := writeSpec_letters spec
  have isDocument : document spec.node.letters =
      ⟨spec.node.items, [], true⟩ := by
    obtain ⟨⟨type, members⟩⟩ := spec
    rw [MessageSpec.node] at writable ⊢
    exact document_letters writable
  have enough : 3 * spec.levels ≤ levelLimit := by
    rw [levelLimit]
    omega
  have readsNode : ReadsNode ⟨spec.node.items, [], true⟩
      (readMessage ⟨spec.node.items, [], true⟩ levelLimit) spec.node spec :=
    readMessage_node spec levelLimit enough
  have reads := readsNode [] (100 * spec.node.items.length)
  rw [List.append_nil] at reads
  rw [readSpec, written, isDocument, specOf]
  simp only [reads, bind, Except.bind, pure, Except.pure, if_true]

end Specifications

end Yaml

theorem Json.readSpec_writeSpec {spec : MessageSpec}
    (bounded : spec.levels ≤ 42) :
    Json.readSpec (Json.writeSpec spec) = .ok spec := by
  have enough : 3 * spec.levels + 1 ≤ Json.levelLimit := by
    rw [Json.levelLimit]
    omega
  have reads := Json.readMessage_reads spec Json.levelLimit enough _ []
    (Json.presents_writeSpec spec) .nil
  rw [List.append_nil] at reads
  rw [Json.readSpec, reads]
  rfl

section Files

/-- A file with a written specification is loaded as the specification, by
whatever name. -/
theorem loadSpec_writeSpec {spec : MessageSpec} (bounded : spec.levels ≤ 42)
    (printable : ArePrintable spec.texts) (path : Path) :
    loadSpec path (.ok (Utf8.encode (Json.writeSpec spec))) = .ok spec := by
  have reads (form : FileForm) :
      form.readSpec (Json.writeSpec spec) = .ok spec := by
    cases form with
    | json => exact Json.readSpec_writeSpec bounded
    | yaml => exact Yaml.readSpec_writeSpec bounded printable
  rw [loadSpec, Utf8.decode_encode]
  simp only [reads]
  rfl

end Files

/-- A specification of up to 42 levels, the texts of which are printable ASCII,
is read back from what is written for it, in YAML as in JSON.  So files with
this text have the same outcomes, when they are compiled and when they are
inspected, whatever their names. -/
theorem written_specs_read_alike (spec : MessageSpec)
    (bounded : spec.levels ≤ 42) (printable : ArePrintable spec.texts) :
    Yaml.readSpec (Json.writeSpec spec) = .ok spec ∧
      Json.readSpec (Json.writeSpec spec) = .ok spec ∧
        (∀ path, loadSpec path (.ok (Utf8.encode (Json.writeSpec spec))) =
          .ok spec) ∧
          ∀ (place : Workplace) (path path' : Path),
            place.content path = .ok (Utf8.encode (Json.writeSpec spec)) →
            place.content path' = .ok (Utf8.encode (Json.writeSpec spec)) →
              compileAlone place.content place.options path =
                  compileAlone place.content place.options path' ∧
                place.inspectFile path = place.inspectFile path' := by
  have loads := loadSpec_writeSpec bounded printable
  refine ⟨Yaml.readSpec_writeSpec bounded printable,
    Json.readSpec_writeSpec bounded, loads, ?_⟩
  intro place path path' isWritten isWritten'
  have load : loadSpec path (place.content path) = .ok spec :=
    isWritten ▸ loads path
  have load' : loadSpec path' (place.content path') = .ok spec :=
    isWritten' ▸ loads path'
  constructor
  · rw [compileAlone, compileAlone, load, load']
  · rw [Workplace.inspectFile, Workplace.inspectFile, load, load']

/-- A message with texts that YAML would take for something else if they were
not quoted. -/
def oddlyNamed : MessageSpec :=
  .mk ⟨⟨"", "say \"true\" \\ # no: 1"⟩, [⟨"- x ", .message, ⟨true, 3, false⟩,
    some (.mk ⟨⟨"a__b", "null"⟩, [⟨"  y", .leaf .float, {}, none⟩]⟩)⟩]⟩

theorem written_specs_read_alike_oddlyNamed :
    oddlyNamed.levels ≤ 42 ∧ ArePrintable oddlyNamed.texts ∧
      Yaml.readSpec (Json.writeSpec oddlyNamed) = .ok oddlyNamed ∧
        Json.readSpec (Json.writeSpec oddlyNamed) = .ok oddlyNamed := by
  have bounded : oddlyNamed.levels ≤ 42 := by decide
  have printable : ArePrintable oddlyNamed.texts := by
    simp only [ArePrintable, ← List.all_eq_true]
    rfl
  obtain ⟨inYaml, inJson, -⟩ :=
    written_specs_read_alike oddlyNamed bounded printable
  exact ⟨bounded, printable, inYaml, inJson⟩

end Metastring
