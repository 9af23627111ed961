import Metastring.Proofs.FlowTokens

/-!
# Flow nodes are documents

The tokens of a node in flow style are recognised as the node: whatever goals
and tokens lie behind, the goal of a node is reached with the events of the
node, in a number of steps that its tokens allow for.  So a text that is one
mapping in flow style is a document with the items of the mapping.
-/

namespace Metastring.Yaml

section Steps

/-- The events of a step in front of what comes later. -/
def andThen (events : List Event) (later : List Event × Option (List Token)) :
    List Event × Option (List Token) :=
  (events ++ later.1, later.2)

/-- In a number of steps, goals are reached with the given events at tokens that
may be followed by any others, and other goals may lie behind. -/
def Recognises (steps : Nat) (goals : List Goal) (tokens : List Token)
    (events : List Event) : Prop :=
  ∀ handles bound others rest,
    eventsFrom handles (steps + bound) (goals ++ others) (tokens ++ rest) =
      andThen events (eventsFrom handles bound others rest)

theorem Recognises.nil : Recognises 0 [] [] [] := by
  intro handles bound others rest
  rw [Nat.zero_add]
  rfl

theorem Recognises.append {steps steps' : Nat} {goals goals' : List Goal}
    {tokens tokens' : List Token} {events events' : List Event}
    (first : Recognises steps goals tokens events)
    (second : Recognises steps' goals' tokens' events') :
    Recognises (steps + steps') (goals ++ goals') (tokens ++ tokens')
      (events ++ events') := by
  intro handles bound others rest
  rw [Nat.add_assoc, List.append_assoc, List.append_assoc, first, second]
  simp only [andThen, List.append_assoc]

/-- A step towards a goal, and what remains of the goal. -/
theorem Recognises.step {goal : Goal} {goals : List Goal} {steps : Nat}
    {tokens tokens' : List Token} {events events' : List Event}
    (expands : ∀ handles rest, goal.expand handles (tokens ++ rest) =
      some ⟨events, goals, tokens' ++ rest⟩)
    (remains : Recognises steps goals tokens' events') :
    Recognises (steps + 1) [goal] tokens (events ++ events') := by
  intro handles bound others rest
  rw [Nat.add_right_comm, List.singleton_append, eventsFrom, expands]
  simp only [remains handles bound others rest, andThen, List.append_assoc]

/-- A step without an event. -/
theorem Recognises.onward {goal : Goal} {goals : List Goal} {steps : Nat}
    {tokens tokens' : List Token} {events : List Event}
    (expands : ∀ handles rest, goal.expand handles (tokens ++ rest) =
      some ⟨[], goals, tokens' ++ rest⟩)
    (remains : Recognises steps goals tokens' events) :
    Recognises (steps + 1) [goal] tokens events :=
  Recognises.step expands remains

/-- A goal that is reached in one step. -/
theorem Recognises.single {goal : Goal} {tokens : List Token}
    {events : List Event}
    (expands : ∀ handles rest, goal.expand handles (tokens ++ rest) =
      some ⟨events, [], rest⟩) :
    Recognises 1 [goal] tokens events := by
  have reached := Recognises.step expands .nil
  rwa [List.append_nil] at reached

end Steps

section Rows

/-- An event has no anchor and shows an item, whatever names are known. -/
def Event.Shows (event : Event) (item : Item) : Prop :=
  event.anchor = none ∧ ∀ anchors, event.item? anchors = some item

/-- A goal for the entries of a flow collection comes to its end at a token,
with an event. -/
structure Ends (row : Bool → Goal) (stop : Token) (event : Event) : Prop where
  expands : ∀ isFirst handles rest,
    (row isFirst).expand handles (stop :: rest) = some ⟨[event], [], rest⟩

/-- Tokens are recognised as an entry of a flow collection: one step leads over
the comma, and all other steps together are less than two for each token. -/
def Entry (row : Bool → Goal) (tokens : List Token) (items : List Item) :
    Prop :=
  ∃ steps goals tokens' events, steps + 1 ≤ 2 * tokens.length ∧
    List.Forall₂ Event.Shows events items ∧
      Recognises steps goals tokens' events ∧
        ∀ isFirst handles rest,
          (row isFirst).expand handles
            ((if isFirst then tokens else .flowEntry :: tokens) ++ rest) =
              some ⟨[], goals ++ [row false], tokens' ++ rest⟩

variable {row : Bool → Goal} {stop : Token} {event : Event} {item : Item}
  {parts : List (List Token)} {items : List (List Item)}

theorem Recognises.further (ends : Ends row stop event)
    (shows : event.Shows item) (entries : List.Forall₂ (Entry row) parts items) :
    ∃ steps events,
      steps ≤ 2 * (parts.flatMap (.flowEntry :: ·)).length + 1 ∧
        List.Forall₂ Event.Shows events (items.flatten ++ [item]) ∧
          Recognises steps [row false]
            (parts.flatMap (.flowEntry :: ·) ++ [stop]) events := by
  induction entries with
  | nil =>
      exact ⟨1, [event], by simp, .cons shows .nil,
        .single fun handles rest => ends.expands false handles rest⟩
  | @cons part partItems parts items entry _ ih =>
      obtain ⟨steps, events, enough, shown, reached⟩ := ih
      obtain ⟨inner, goals, tokens, events', fewer, shown', reached', expands⟩ :=
        entry
      refine ⟨inner + steps + 1, events' ++ events, ?_, ?_, ?_⟩
      · simp only [List.flatMap_cons, List.length_append, List.length_cons]
        omega
      · rw [List.flatten_cons, List.append_assoc]
        exact List.rel_append shown' shown
      · refine Recognises.onward (fun handles rest => ?_)
          (reached'.append reached)
        have expanded := expands false handles
          (parts.flatMap (.flowEntry :: ·) ++ [stop] ++ rest)
        simpa using expanded

/-- The entries of a flow collection and its end. -/
theorem Recognises.entries (ends : Ends row stop event) (shows : event.Shows item)
    (entries : List.Forall₂ (Entry row) parts items) :
    ∃ steps events, steps ≤ 2 * (separated .flowEntry parts).length + 1 ∧
      List.Forall₂ Event.Shows events (items.flatten ++ [item]) ∧
        Recognises steps [row true] (separated .flowEntry parts ++ [stop])
          events := by
  cases entries with
  | nil =>
      exact ⟨1, [event], by simp, .cons shows .nil,
        .single fun handles rest => ends.expands true handles rest⟩
  | @cons part partItems parts items entry others =>
      obtain ⟨steps, events, enough, shown, reached⟩ :=
        Recognises.further ends shows others
      obtain ⟨inner, goals, tokens, events', fewer, shown', reached', expands⟩ :=
        entry
      refine ⟨inner + steps + 1, events' ++ events, ?_, ?_, ?_⟩
      · simp only [separated, List.length_append]
        omega
      · rw [List.flatten_cons, List.append_assoc]
        exact List.rel_append shown' shown
      · refine Recognises.onward (fun handles rest => ?_)
          (reached'.append reached)
        have expanded := expands true handles
          (parts.flatMap (.flowEntry :: ·) ++ [stop] ++ rest)
        simpa [separated] using expanded

end Rows

section Nodes

/-- A token that a node in flow style begins with. -/
def BeginsNode (token : Token) : Prop :=
  token ∈ [.flowSequenceStart, .flowMappingStart] ∨
    ∃ style content, token = .scalar style content

theorem exists_first_token (node : FlowNode) :
    ∃ first more, node.tokens = first :: more ∧ BeginsNode first := by
  cases node with
  | quoted content | plain content =>
      rw [FlowNode.tokens]
      exact ⟨_, _, rfl, .inr ⟨_, _, rfl⟩⟩
  | sequence elements =>
      rw [FlowNode.tokens]
      exact ⟨_, _, rfl, .inl (by simp)⟩
  | mapping entries =>
      rw [FlowNode.tokens]
      exact ⟨_, _, rfl, .inl (by simp)⟩

/-- A node is recognised by its tokens wherever it stands, in less than two
steps for each of them. -/
def RecognisesNode (node : FlowNode) : Prop :=
  ∃ steps events, steps + 1 ≤ 2 * node.tokens.length ∧
    List.Forall₂ Event.Shows events node.items ∧
      ∀ surroundings, Recognises steps [.node surroundings] node.tokens events

theorem recognises_scalar (surroundings : Surroundings) (style : Style)
    (content : List Char) :
    Recognises 1 [.node surroundings] [.scalar style content]
      [.scalar {} style content] := by
  refine .single fun handles rest => ?_
  cases surroundings <;> rfl

/-- A node may stand between brackets as it is. -/
theorem RecognisesNode.element {node : FlowNode} (reached : RecognisesNode node) :
    Entry .flowSequence node.tokens node.items := by
  obtain ⟨steps, events, enough, shown, recognises⟩ := reached
  refine ⟨steps, [.node .flow], node.tokens, events, enough, shown,
    recognises .flow, fun isFirst handles rest => ?_⟩
  obtain ⟨first, more, same, begins⟩ := exists_first_token node
  rw [same]
  obtain isStart | ⟨style, content, rfl⟩ := begins
  · fin_cases isStart <;> cases isFirst <;> rfl
  · cases isFirst <;> rfl

/-- In a mapping it stands behind the marks of its key and its value. -/
theorem RecognisesNode.entry {node : FlowNode} (reached : RecognisesNode node)
    (key : List Char) :
    Entry .flowMapping
      (.key :: .scalar .doubleQuoted key :: .value :: node.tokens)
      (.scalar none .doubleQuoted key :: node.items) := by
  obtain ⟨steps, events, enough, shown, recognises⟩ := reached
  have value : Recognises (steps + 1) [.flowValue] (.value :: node.tokens)
      events := by
    refine Recognises.onward (fun handles rest => ?_) (recognises .flow)
    obtain ⟨first, more, same, begins⟩ := exists_first_token node
    rw [same]
    obtain isStart | ⟨style, content, rfl⟩ := begins
    · fin_cases isStart <;> rfl
    · rfl
  have both := (recognises_scalar .flow .doubleQuoted key).append value
  refine ⟨_, _, _, _, ?_, .cons ⟨rfl, fun _ => rfl⟩ shown, both,
    fun isFirst handles rest => ?_⟩
  · simp only [List.length_cons]
    omega
  · cases isFirst <;> rfl

theorem ends_sequence : Ends .flowSequence .flowSequenceEnd .sequenceEnd := by
  constructor
  intro isFirst handles rest
  rfl

theorem ends_mapping : Ends .flowMapping .flowMappingEnd .mappingEnd := by
  constructor
  intro isFirst handles rest
  rfl

/-- The goal of a node is reached by the tokens of the node. -/
theorem FlowNode.Writable.recognises {node : FlowNode}
    (writable : node.Writable) : RecognisesNode node := by
  induction writable with
  | quoted _ | plain _ _ =>
      rw [RecognisesNode, FlowNode.tokens, FlowNode.items]
      exact ⟨1, _, by simp, .cons ⟨rfl, fun _ => rfl⟩ .nil,
        fun surroundings => recognises_scalar surroundings _ _⟩
  | @sequence elements _ ih =>
      rw [RecognisesNode, FlowNode.tokens, FlowNode.items]
      have entries := forall₂_of_images fun element isElement =>
        (ih element isElement).element
      obtain ⟨steps, events, enough, shown, reached⟩ :=
        Recognises.entries ends_sequence ⟨rfl, fun _ => rfl⟩ entries
      refine ⟨steps + 1, [.sequenceStart {}] ++ events, ?_,
        .cons ⟨rfl, fun _ => rfl⟩ shown, fun surroundings => ?_⟩
      · simp only [List.length_cons, List.length_append]
        omega
      · refine Recognises.step (fun handles rest => ?_) reached
        cases surroundings <;> rfl
  | @mapping entries _ _ _ ih =>
      rw [RecognisesNode, FlowNode.tokens, FlowNode.items]
      have areEntries := forall₂_of_images fun entry isEntry =>
        (ih entry isEntry).entry entry.key
      obtain ⟨steps, events, enough, shown, reached⟩ :=
        Recognises.entries ends_mapping ⟨rfl, fun _ => rfl⟩ areEntries
      refine ⟨steps + 1, [.mappingStart {}] ++ events, ?_,
        .cons ⟨rfl, fun _ => rfl⟩ shown, fun surroundings => ?_⟩
      · simp only [List.length_cons, List.length_append]
        omega
      · refine Recognises.step (fun handles rest => ?_) reached
        cases surroundings <;> rfl

end Nodes

section Documents

/-- A document of nodes without anchors and aliases has the items that its
events show. -/
theorem ofEvents_eq {events : List Event} {items : List Item}
    (shown : List.Forall₂ Event.Shows events items) (isWhole : Bool)
    (place : Nat) :
    Document.ofEvents isWhole {} place events = ⟨items, [], isWhole⟩ := by
  induction shown generalizing place with
  | nil => rfl
  | cons shows _ ih =>
      obtain ⟨noAnchor, isItem⟩ := shows
      rw [Document.ofEvents, isItem, noAnchor]
      simp only [Anchors.file, ih]

/-- A text that is a mapping in flow style is a document with the items of the
mapping. -/
theorem document_letters {entries : List (FlowEntry FlowNode)}
    (writable : (FlowNode.mapping entries).Writable) :
    document (FlowNode.mapping entries).letters =
      ⟨(FlowNode.mapping entries).items, [], true⟩ := by
  obtain ⟨steps, events, enough, shown, recognises⟩ := writable.recognises
  have recognised : documentEvents
      ((FlowNode.mapping entries).tokens ++ [.streamEnd]) =
        (events, some [.streamEnd]) := by
    have started : documentEvents
        ((FlowNode.mapping entries).tokens ++ [.streamEnd]) =
          eventsOf [] (.node .block)
            ((FlowNode.mapping entries).tokens ++ [.streamEnd]) := by
      rw [FlowNode.tokens]
      rfl
    obtain ⟨bound, isBound⟩ : ∃ bound,
        8 * ((FlowNode.mapping entries).tokens ++ [Token.streamEnd]).length + 8 =
          steps + bound :=
      Nat.exists_eq_add_of_le (by simp only [List.length_append]; omega)
    have reached := recognises .block Handle.standard bound [] [Token.streamEnd]
    rw [started, eventsOf, isBound]
    refine reached.trans ?_
    simp [eventsFrom, andThen]
  rw [document, tokens_letters writable, recognised]
  exact ofEvents_eq shown true 0

end Documents

end Metastring.Yaml
