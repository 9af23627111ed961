import Metastring.Yaml.Token

/-!
# Events of a YAML document

The tokens of a document are recognised with a stack of goals, the innermost
one first.  A step looks at the next tokens, yields at most one event, and
replaces the innermost goal by what remains of it.  A node that is missing
counts as an empty plain scalar.  At a fault the events before it still count.
-/

namespace Metastring.Yaml

/-- What may stand in front of a node. -/
structure Properties where
  anchor : Option (List Char) := none
  tag : Option (List UInt8) := none
deriving DecidableEq, Inhabited

/-- The events of a document: its nodes in the order of the text. -/
inductive Event where
  | alias (name : List Char)
  | scalar (properties : Properties) (style : Style) (content : List Char)
  | sequenceStart (properties : Properties)
  | sequenceEnd
  | mappingStart (properties : Properties)
  | mappingEnd
deriving DecidableEq, Inhabited

namespace Event

def missing : Event :=
  .scalar {} .plain []

end Event

/-! ## Tag handles -/

/-- A tag handle and what it stands for. -/
structure Handle where
  letters : List Char
  meaning : List UInt8
deriving DecidableEq, Inhabited

namespace Handle

/-- The handles that need not be declared.  A declaration takes precedence. -/
def standard : List Handle :=
  [⟨['!'], [33]⟩,
    ⟨['!', '!'], "tag:yaml.org,2002:".toList.flatMap String.utf8EncodeChar⟩]

end Handle

/-- The tag that a written one stands for; an unknown handle is a fault. -/
def WrittenTag.resolve (tag : WrittenTag) (handles : List Handle) :
    Option (List UInt8) :=
  if tag.handle = [] then some tag.suffix
  else
    (handles.find? (·.letters = tag.handle)).map (·.meaning ++ tag.suffix)

/-- Read the directives in front of a document.  A document has one version
and declares a handle once; the versions are 1.1 and 1.2. -/
def directivesFrom (hasVersion : Bool) (handles : List Handle) :
    List Token → Option (List Handle × List Token)
  | .directive (.version major minor) :: rest =>
    if hasVersion then none
    else if major = 1 ∧ (minor = 1 ∨ minor = 2) then
      directivesFrom true handles rest
    else none
  | .directive (.handle letters meaning) :: rest =>
    if handles.any (·.letters = letters) then none
    else directivesFrom hasVersion (⟨letters, meaning⟩ :: handles) rest
  | rest => some (handles, rest)

/-! ## Goals -/

/-- Where a node stands.  Behind a key of a block mapping, a block sequence
need not be indented further. -/
inductive Surroundings where
  | flow
  | block
  | blockMapping
deriving DecidableEq, Inhabited

/-- What is still to be recognised of a document.  The goals of a collection
are its further entries and its end. -/
inductive Goal where
  | document
  | node (surroundings : Surroundings)
  | blockSequence
  | bareSequence
  | blockMapping
  | blockValue
  | flowSequence (isFirst : Bool)
  | flowMapping (isFirst : Bool)
  | flowValue
  | noFlowValue
  /-- The parts of a pair that is an entry of a flow sequence. -/
  | pairKey
  | pairValue
  | pairEnd
deriving DecidableEq, Inhabited

/-- What a step yields: its event, if any, the goals that remain, and the
tokens behind. -/
structure Step where
  events : List Event
  goals : List Goal
  rest : List Token
deriving Inhabited

/-- Go on to a node, which is missing if the next token is one of those that
may follow it. -/
def nodeUnless (following : List Token) (surroundings : Surroundings)
    (goals : List Goal) (tokens : List Token) : Option Step :=
  match tokens with
  | [] => none
  | token :: _ =>
    if following.contains token then some ⟨[.missing], goals, tokens⟩
    else some ⟨[], .node surroundings :: goals, tokens⟩

/-- Read what stands in front of a node. -/
def properties (handles : List Handle) :
    List Token → Option (Properties × List Token)
  | .anchor name :: .tag tag :: rest => do
    return (⟨name, ← tag.resolve handles⟩, rest)
  | .tag tag :: .anchor name :: rest => do
    return (⟨name, ← tag.resolve handles⟩, rest)
  | .anchor name :: rest => some (⟨name, none⟩, rest)
  | .tag tag :: rest => do return (⟨none, ← tag.resolve handles⟩, rest)
  | rest => some ({}, rest)

/-- Recognise a node behind its properties.  Properties alone are the ones of
an empty scalar. -/
def nodeContent (surroundings : Surroundings) (properties : Properties)
    (tokens : List Token) : Option Step :=
  match tokens with
  | [] => none
  | token :: rest =>
    match token, surroundings with
    | .blockEntry, .blockMapping =>
      some ⟨[.sequenceStart properties], [.bareSequence], tokens⟩
    | .scalar style content, _ =>
      some ⟨[.scalar properties style content], [], rest⟩
    | .flowSequenceStart, _ =>
      some ⟨[.sequenceStart properties], [.flowSequence true], rest⟩
    | .flowMappingStart, _ =>
      some ⟨[.mappingStart properties], [.flowMapping true], rest⟩
    | .blockSequenceStart, .block | .blockSequenceStart, .blockMapping =>
      some ⟨[.sequenceStart properties], [.blockSequence], rest⟩
    | .blockMappingStart, .block | .blockMappingStart, .blockMapping =>
      some ⟨[.mappingStart properties], [.blockMapping], rest⟩
    | _, _ =>
      if properties = {} then none
      else some ⟨[.scalar properties .plain []], [], tokens⟩

def expandNode (handles : List Handle) (surroundings : Surroundings) :
    List Token → Option Step
  | .alias name :: rest => some ⟨[.alias name], [], rest⟩
  | tokens => do
    let (properties, rest) ← properties handles tokens
    nodeContent surroundings properties rest

/-- Recognise the node of a document behind its start. -/
def expandDocument : List Token → Option Step
  | .directive directive :: rest =>
    some ⟨[.missing], [], .directive directive :: rest⟩
  | tokens =>
    nodeUnless [.documentStart, .documentEnd, .streamEnd] .block [] tokens

/-- Recognise an entry of a block sequence or its end. -/
def expandBlockSequence : List Token → Option Step
  | .blockEntry :: rest =>
    nodeUnless [.blockEntry, .blockEnd] .block [.blockSequence] rest
  | .blockEnd :: rest => some ⟨[.sequenceEnd], [], rest⟩
  | _ => none

/-- Recognise an entry of a block sequence that is not indented, or its end,
which is wherever no entry follows. -/
def expandBareSequence : List Token → Option Step
  | [] => none
  | .blockEntry :: rest =>
    nodeUnless [.blockEntry, .key, .value, .blockEnd] .block [.bareSequence]
      rest
  | rest => some ⟨[.sequenceEnd], [], rest⟩

def expandBlockMapping : List Token → Option Step
  | .key :: rest =>
    nodeUnless [.key, .value, .blockEnd] .blockMapping
      [.blockValue, .blockMapping] rest
  | .blockEnd :: rest => some ⟨[.mappingEnd], [], rest⟩
  | _ => none

def expandBlockValue : List Token → Option Step
  | [] => none
  | .value :: rest =>
    nodeUnless [.key, .value, .blockEnd] .blockMapping [] rest
  | rest => some ⟨[.missing], [], rest⟩

/-- Pass over the comma in front of an entry of a flow collection; the first
entry has none. -/
def entryTokens (isFirst : Bool) (tokens : List Token) :
    Option (List Token) :=
  if isFirst then some tokens
  else
    match tokens with
    | .flowEntry :: rest => some rest
    | _ => none

def expandFlowSequence (isFirst : Bool) : List Token → Option Step
  | .flowSequenceEnd :: rest => some ⟨[.sequenceEnd], [], rest⟩
  | tokens => do
    match ← entryTokens isFirst tokens with
    | .key :: rest =>
      return ⟨[.mappingStart {}],
        [.pairKey, .pairValue, .pairEnd, .flowSequence false], rest⟩
    | .flowSequenceEnd :: rest => return ⟨[.sequenceEnd], [], rest⟩
    | rest => return ⟨[], [.node .flow, .flowSequence false], rest⟩

/-- Recognise the key of a pair.  Where it is missing, the token that shows it
is passed over. -/
def expandPairKey : List Token → Option Step
  | [] => none
  | .value :: rest | .flowEntry :: rest | .flowSequenceEnd :: rest =>
    some ⟨[.missing], [], rest⟩
  | tokens => some ⟨[], [.node .flow], tokens⟩

def expandPairValue : List Token → Option Step
  | [] => none
  | .value :: rest => nodeUnless [.flowEntry, .flowSequenceEnd] .flow [] rest
  | rest => some ⟨[.missing], [], rest⟩

def expandFlowMapping (isFirst : Bool) : List Token → Option Step
  | .flowMappingEnd :: rest => some ⟨[.mappingEnd], [], rest⟩
  | tokens => do
    match ← entryTokens isFirst tokens with
    | .key :: rest =>
      nodeUnless [.value, .flowEntry, .flowMappingEnd] .flow
        [.flowValue, .flowMapping false] rest
    | .flowMappingEnd :: rest => return ⟨[.mappingEnd], [], rest⟩
    | rest =>
      return ⟨[], [.node .flow, .noFlowValue, .flowMapping false], rest⟩

def expandFlowValue : List Token → Option Step
  | [] => none
  | .value :: rest => nodeUnless [.flowEntry, .flowMappingEnd] .flow [] rest
  | rest => some ⟨[.missing], [], rest⟩

/-- Yield an event without passing over a token, of which there has to be
one. -/
def yieldBefore (event : Event) : List Token → Option Step
  | [] => none
  | rest => some ⟨[event], [], rest⟩

namespace Goal

/-- Take one step towards a goal. -/
def expand (handles : List Handle) : Goal → List Token → Option Step
  | document => expandDocument
  | node surroundings => expandNode handles surroundings
  | blockSequence => expandBlockSequence
  | bareSequence => expandBareSequence
  | blockMapping => expandBlockMapping
  | blockValue => expandBlockValue
  | flowSequence isFirst => expandFlowSequence isFirst
  | flowMapping isFirst => expandFlowMapping isFirst
  | flowValue => expandFlowValue
  | noFlowValue => yieldBefore .missing
  | pairKey => expandPairKey
  | pairValue => expandPairValue
  | pairEnd => yieldBefore .mappingEnd

end Goal

/-! ## Documents -/

/-- Reach the given goals in at most `bound` steps.  The events come with the
tokens behind them, or with none where there is a fault. -/
def eventsFrom (handles : List Handle) :
    (bound : Nat) → List Goal → List Token → List Event × Option (List Token)
  | _, [], rest => ([], some rest)
  | 0, _ :: _, _ => ([], none)
  | bound + 1, goal :: goals, tokens =>
    match goal.expand handles tokens with
    | none => ([], none)
    | some step =>
      let (events, rest) :=
        eventsFrom handles bound (step.goals ++ goals) step.rest
      (step.events ++ events, rest)

/-- Reach a goal.  A token takes part in no more than eight steps. -/
def eventsOf (handles : List Handle) (goal : Goal) (tokens : List Token) :
    List Event × Option (List Token) :=
  eventsFrom (handles ++ Handle.standard) (8 * tokens.length + 8) [goal] tokens

/-- The events of a document with an explicit start, which may have directives
in front of it. -/
def explicitDocument (tokens : List Token) :
    List Event × Option (List Token) :=
  match directivesFrom false [] tokens with
  | some (handles, .documentStart :: rest) => eventsOf handles .document rest
  | _ => ([], none)

/-- The events of the first document among the tokens, and the tokens behind
it.  An empty stream has one document, whose node is missing. -/
def documentEvents (tokens : List Token) : List Event × Option (List Token) :=
  match tokens with
  | [] => ([], none)
  | .streamEnd :: _ => ([.missing], some tokens)
  | .directive _ :: _ | .documentStart :: _ => explicitDocument tokens
  | _ => eventsOf [] (.node .block) tokens

end Metastring.Yaml
