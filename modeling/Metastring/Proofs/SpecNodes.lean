import Metastring.Draft
import Metastring.Proofs.FlowNodes
import Metastring.Proofs.JsonPresentation

/-!
# Specifications as flow nodes

The text that is written for a specification in JSON is a mapping in flow style
at the same time: quoted texts for scopes, names and kinds, plain words for
truth values and sizes, a sequence for the members.  Its strings can be written
in flow style if all their letters are printable ASCII.
-/

namespace Metastring

section Writing

/-- The flow node of a truth value. -/
def flagNode (flag : Bool) : Yaml.FlowNode :=
  .plain (Json.flagLetters flag)

def textNode (text : String) : Yaml.FlowNode :=
  .quoted text.toList

/-- The entries of a member but for its block. -/
def memberFlowEntries (member : MemberSpec) :
    List (Yaml.FlowEntry Yaml.FlowNode) :=
  [⟨MemberField.name.key.toList, textNode member.name⟩,
    ⟨MemberField.kind.key.toList, textNode member.kind.name⟩,
    ⟨MemberField.isArray.key.toList, flagNode member.shape.isArray⟩,
    ⟨MemberField.arraySize.key.toList,
      .plain (Nat.toDigits 10 member.shape.arraySize.toNat)⟩,
    ⟨MemberField.isUpperBound.key.toList, flagNode member.shape.isUpperBound⟩]

mutual

/-- The flow node of a specification. -/
def MessageSpec.node : MessageSpec → Yaml.FlowNode
  | .mk ⟨type, members⟩ =>
    .mapping
      [⟨MessageField.scope.key.toList, textNode type.scope⟩,
        ⟨MessageField.name.key.toList, textNode type.name⟩,
        ⟨MessageField.members.key.toList, .sequence (memberNodes members)⟩]
termination_by structural spec => spec

def memberNodes : List MemberSpec → List Yaml.FlowNode
  | [] => []
  | member :: rest =>
    .mapping (memberFlowEntries member ++ blockEntry member) :: memberNodes rest
termination_by structural members => members

/-- The entry of a member's block, if there is one. -/
def blockEntry : MemberSpec → List (Yaml.FlowEntry Yaml.FlowNode)
  | ⟨_, _, _, none⟩ => []
  | ⟨_, _, _, some message⟩ =>
    [⟨MemberField.message.key.toList, message.node⟩]
termination_by structural member => member

end

mutual

/-- The texts in a specification: scopes and names. -/
def MessageSpec.texts : MessageSpec → List String
  | .mk ⟨type, members⟩ => type.scope :: type.name :: memberTexts members
termination_by structural spec => spec

def memberTexts : List MemberSpec → List String
  | [] => []
  | member :: rest => member.name :: (blockTexts member ++ memberTexts rest)
termination_by structural members => members

/-- The texts in a member's block. -/
def blockTexts : MemberSpec → List String
  | ⟨_, _, _, none⟩ => []
  | ⟨_, _, _, some message⟩ => message.texts
termination_by structural member => member

end

/-- All letters of some texts can be printed. -/
def ArePrintable (texts : List String) : Prop :=
  ∀ text ∈ texts, ∀ letter ∈ text.toList, Yaml.isPrintable letter

theorem writeText_toList (text : String) :
    (Json.writeText text).toList = (textNode text).letters := by
  rw [textNode, Yaml.FlowNode.letters]
  simp [Json.writeText, Yaml.quotedText, Yaml.escaped]

theorem enclosed_eq (opening closing : Char) (parts : List (List Char)) :
    Json.enclosed opening closing parts =
      opening :: (Yaml.separated ',' parts ++ [closing]) := by
  cases parts with
  | nil => rfl
  | cons part parts => rw [Json.enclosed, Json.intercalate_cons]; rfl

theorem entry_letters (key value : String) :
    (Json.writeEntry key value).toList =
      Yaml.quotedText key.toList ++ ':' :: value.toList := by
  have written := writeText_toList key
  rw [textNode, Yaml.FlowNode.letters] at written
  rw [Json.writeEntry_toList, written]

/-- The letters of an entry as they stand in a mapping. -/
def entryLetters (entry : Yaml.FlowEntry Yaml.FlowNode) : List Char :=
  Yaml.quotedText entry.key ++ ':' :: entry.value.letters

theorem memberEntries_letters (member : MemberSpec) :
    (Json.memberEntries member).map String.toList =
      (memberFlowEntries member).map entryLetters := by
  have flag (flag : Bool) :
      (Json.writeFlag flag).toList = (flagNode flag).letters := by
    rw [flagNode, Yaml.FlowNode.letters, Json.writeFlag_toList]
  have size (size : UInt64) : (decimal size.toNat).toList =
      (Yaml.FlowNode.plain (Nat.toDigits 10 size.toNat)).letters := by
    rw [Yaml.FlowNode.letters, decimal_toList]
  simp only [Json.memberEntries, memberFlowEntries, List.map_cons,
    List.map_nil, entryLetters, entry_letters, writeText_toList, flag, size]
  rfl

theorem mapping_letters {entries : List String}
    {flowEntries : List (Yaml.FlowEntry Yaml.FlowNode)}
    (same : entries.map String.toList = flowEntries.map entryLetters) :
    (Json.writeObject entries).toList =
      (Yaml.FlowNode.mapping flowEntries).letters := by
  rw [Yaml.FlowNode.letters, Json.writeObject_toList, same, enclosed_eq]
  rfl

theorem sequence_letters {elements : List String} {nodes : List Yaml.FlowNode}
    (same : elements.map String.toList = nodes.map Yaml.FlowNode.letters) :
    ("[" ++ ",".intercalate elements ++ "]").toList =
      (Yaml.FlowNode.sequence nodes).letters := by
  have written : ("[" ++ ",".intercalate elements ++ "]").toList =
      Json.enclosed '[' ']' (elements.map String.toList) := by
    simp [Json.enclosed]
  rw [Yaml.FlowNode.letters, written, same, enclosed_eq]

mutual

/-- What is written for a specification are the letters of its node. -/
theorem writeSpec_letters : (spec : MessageSpec) →
    (Json.writeSpec spec).toList = spec.node.letters
  | .mk ⟨type, members⟩ => by
      have list := sequence_letters (writeMembers_letters members)
      rw [Json.writeSpec, MessageSpec.node]
      apply mapping_letters
      simp only [List.map_cons, List.map_nil, entryLetters, entry_letters,
        writeText_toList, list]
      rfl
termination_by structural spec => spec

theorem writeMembers_letters : (members : List MemberSpec) →
    (Json.writeMembers members).map String.toList =
      (memberNodes members).map Yaml.FlowNode.letters
  | [] => rfl
  | member :: members => by
      have entries : (Json.memberEntries member ++
          Json.writeBlock member).map String.toList =
            (memberFlowEntries member ++ blockEntry member).map entryLetters := by
        rw [List.map_append, List.map_append, memberEntries_letters,
          writeBlock_letters member]
      rw [Json.writeMembers, memberNodes, List.map_cons, List.map_cons,
        mapping_letters entries, writeMembers_letters members]
termination_by structural members => members

theorem writeBlock_letters : (member : MemberSpec) →
    (Json.writeBlock member).map String.toList =
      (blockEntry member).map entryLetters
  | ⟨_, _, _, none⟩ => rfl
  | ⟨_, _, _, some block⟩ => by
      rw [Json.writeBlock, blockEntry, List.map_cons, List.map_cons,
        entry_letters, writeSpec_letters block]
      rfl
termination_by structural member => member

end

end Writing

section Letters

theorem flagNode_writable (flag : Bool) : (flagNode flag).Writable := by
  have areAlphanum : ∀ letter ∈ Json.flagLetters flag, letter.isAlphanum := by
    rw [← List.all_eq_true]
    cases flag <;> rfl
  refine .plain ?_ areAlphanum
  cases flag <;> simp [Json.flagLetters]

theorem sizeNode_writable (size : Nat) :
    (Yaml.FlowNode.plain (Nat.toDigits 10 size)).Writable := by
  refine .plain Nat.toDigits_ne_nil fun letter isMember => ?_
  have isDigit := isDigit_of_mem_toDigits isMember
  simp [Char.isAlphanum, isDigit]

theorem kindNode_writable (kind : DeclaredKind) :
    (textNode kind.name).Writable := by
  refine .quoted ?_
  rw [← List.all_eq_true]
  cases kind with
  | leaf leaf => cases leaf <;> rfl
  | message => rfl

/-- A key that can be written, and a value. -/
def EntryWritable (entry : Yaml.FlowEntry Yaml.FlowNode) : Prop :=
  (∀ letter ∈ entry.key, Yaml.isPrintable letter) ∧
    Yaml.byteSize (Yaml.quotedText entry.key) ≤ 1024 ∧ entry.value.Writable

theorem mapping_writable {entries : List (Yaml.FlowEntry Yaml.FlowNode)}
    (writable : ∀ entry ∈ entries, EntryWritable entry) :
    (Yaml.FlowNode.mapping entries).Writable :=
  .mapping (fun entry isEntry => (writable entry isEntry).1)
    (fun entry isEntry => (writable entry isEntry).2.1)
    (fun entry isEntry => (writable entry isEntry).2.2)

theorem entry_writable_of_key {key : String} {value : Yaml.FlowNode}
    (printable : key.toList.all Yaml.isPrintable)
    (short : Yaml.byteSize (Yaml.quotedText key.toList) ≤ 1024)
    (writable : value.Writable) : EntryWritable ⟨key.toList, value⟩ :=
  ⟨List.all_eq_true.mp printable, short, writable⟩

theorem MessageField.entry_writable (field : MessageField)
    {value : Yaml.FlowNode} (writable : value.Writable) :
    EntryWritable ⟨field.key.toList, value⟩ := by
  apply entry_writable_of_key _ _ writable
  · cases field <;> rfl
  · cases field <;> decide

theorem MemberField.entry_writable (field : MemberField)
    {value : Yaml.FlowNode} (writable : value.Writable) :
    EntryWritable ⟨field.key.toList, value⟩ := by
  apply entry_writable_of_key _ _ writable
  · cases field <;> rfl
  · cases field <;> decide

theorem memberFlowEntries_writable (member : MemberSpec)
    (printable : ∀ letter ∈ member.name.toList, Yaml.isPrintable letter) :
    ∀ entry ∈ memberFlowEntries member, EntryWritable entry := by
  simp only [memberFlowEntries, List.forall_mem_cons]
  exact ⟨MemberField.entry_writable _ (.quoted printable),
    MemberField.entry_writable _ (kindNode_writable _),
    MemberField.entry_writable _ (flagNode_writable _),
    MemberField.entry_writable _ (sizeNode_writable _),
    MemberField.entry_writable _ (flagNode_writable _), nofun⟩

mutual

/-- The node of a specification of printable texts can be written. -/
theorem MessageSpec.node_writable : (spec : MessageSpec) →
    ArePrintable spec.texts → spec.node.Writable
  | .mk ⟨type, members⟩, printable => by
      rw [MessageSpec.texts] at printable
      obtain ⟨scope, others⟩ := List.forall_mem_cons.mp printable
      obtain ⟨name, inMembers⟩ := List.forall_mem_cons.mp others
      have list : (Yaml.FlowNode.sequence (memberNodes members)).Writable :=
        .sequence (memberNodes_writable members inMembers)
      rw [MessageSpec.node]
      apply mapping_writable
      simp only [List.forall_mem_cons]
      exact ⟨MessageField.entry_writable _ (.quoted scope),
        MessageField.entry_writable _ (.quoted name),
        MessageField.entry_writable _ list, nofun⟩
termination_by structural spec => spec

theorem memberNodes_writable : (members : List MemberSpec) →
    ArePrintable (memberTexts members) →
      ∀ node ∈ memberNodes members, node.Writable
  | [], _ => nofun
  | member :: members, printable => by
      rw [memberTexts] at printable
      obtain ⟨name, others⟩ := List.forall_mem_cons.mp printable
      obtain ⟨inBlock, further⟩ := List.forall_mem_append.mp others
      have entries := List.forall_mem_append.mpr
        ⟨memberFlowEntries_writable member name,
          blockEntry_writable member inBlock⟩
      rw [memberNodes]
      exact List.forall_mem_cons.mpr ⟨mapping_writable entries,
        memberNodes_writable members further⟩
termination_by structural members => members

theorem blockEntry_writable : (member : MemberSpec) →
    ArePrintable (blockTexts member) →
      ∀ entry ∈ blockEntry member, EntryWritable entry
  | ⟨_, _, _, none⟩, _ => nofun
  | ⟨_, _, _, some block⟩, printable => by
      rw [blockTexts] at printable
      rw [blockEntry, List.forall_mem_singleton]
      exact MemberField.entry_writable _ (block.node_writable printable)
termination_by structural member => member

end

end Letters

end Metastring
