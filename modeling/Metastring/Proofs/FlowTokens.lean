import Metastring.Proofs.FlowNodes

/-!
# Flow nodes are split into their tokens

The scanner of a text is followed through a node that is written in flow style
without blanks.  Inside flow collections the indentation has no say, a quoted
text behind an opening brace or a comma is kept as a possible simple key, and
the colon behind it makes it one, for which no blank is needed.  A plain word
ends at the separator behind it.
-/

namespace Metastring.Yaml

namespace Scanner

section Places

/-- A scanner that has split off some tokens and stands in front of a text,
inside flow collections and outside all block collections.  No key is demanded
here. -/
structure Stands (depth : Nat) (tokens : List Token) (text : List Char)
    (scanner : Scanner) : Prop where
  text_eq : scanner.cursor.text = text
  tokens_eq : scanner.tokens.toList = tokens
  indents_eq : scanner.indents = []
  depth_eq : scanner.outerKeys.length = depth
  key_free : ∀ place, scanner.key = some place → place.isRequired = false
  outerKeys_free :
    ∀ place, some place ∈ scanner.outerKeys → place.isRequired = false

variable {depth depth' : Nat} {tokens tokens' : List Token}
  {text text' : List Char} {scanner next : Scanner}

/-- What is left of a possible key at a position. -/
def freshKey (position : Position) (key : Option SimpleKey) :
    Option SimpleKey :=
  key.filter fun place => !place.isStale position

/-- The scanner without the possible keys that are too far away. -/
def withFreshKeys (scanner : Scanner) : Scanner :=
  { scanner with
    key := freshKey scanner.cursor.position scanner.key
    outerKeys := scanner.outerKeys.map (freshKey scanner.cursor.position) }

theorem expire_eq {key : Option SimpleKey}
    (free : ∀ place, key = some place → place.isRequired = false)
    (position : Position) :
    SimpleKey.expire position key = some (freshKey position key) := by
  cases key with
  | none => rfl
  | some place =>
      have isFree := free place rfl
      cases isStale : place.isStale position <;>
        simp [SimpleKey.expire, freshKey, Option.filter, isStale, isFree]

theorem mapM_expire_eq {keys : List (Option SimpleKey)}
    (free : ∀ place, some place ∈ keys → place.isRequired = false)
    (position : Position) :
    keys.mapM (SimpleKey.expire position) =
      some (keys.map (freshKey position)) := by
  induction keys with
  | nil => rfl
  | cons key keys ih =>
      have first : SimpleKey.expire position key =
          some (freshKey position key) :=
        expire_eq (fun place isKey => free place (by simp [isKey])) position
      have others := ih fun place isMember =>
        free place (List.mem_cons_of_mem key isMember)
      simp [List.mapM_cons, first, others]

theorem Stands.expireKeys_eq (stands : Stands depth tokens text scanner) :
    scanner.expireKeys = some scanner.withFreshKeys := by
  simp only [expireKeys, expire_eq stands.key_free,
    mapM_expire_eq stands.outerKeys_free]
  rfl

theorem eq_some_of_freshKey {position : Position} {key : Option SimpleKey}
    {place : SimpleKey} (isFresh : freshKey position key = some place) :
    key = some place :=
  (Option.filter_eq_some_iff.mp isFresh).1

theorem freshKey_eq_some {position : Position} {key : Option SimpleKey}
    {place : SimpleKey} (isKey : key = some place)
    (notStale : place.isStale position = false) :
    freshKey position key = some place :=
  Option.filter_eq_some_iff.mpr ⟨isKey, by simp [notStale]⟩

theorem Stands.withFreshKeys (stands : Stands depth tokens text scanner) :
    Stands depth tokens text scanner.withFreshKeys where
  text_eq := stands.text_eq
  tokens_eq := stands.tokens_eq
  indents_eq := stands.indents_eq
  depth_eq := by
    rw [← stands.depth_eq]
    exact List.length_map _
  key_free := fun place isFresh =>
    stands.key_free place (eq_some_of_freshKey isFresh)
  outerKeys_free := fun place isMember => by
    obtain ⟨key, isKey, isFresh⟩ := List.mem_map.mp isMember
    exact stands.outerKeys_free place (eq_some_of_freshKey isFresh ▸ isKey)

end Places

section Blanks

/-- A text that does not start with a blank or a comment. -/
def Unblank (text : List Char) : Prop :=
  ∀ letter, text.head? = some letter →
    isPrintable letter ∧ letter ≠ ' ' ∧ letter ≠ '#'

theorem unblank_cons {letter : Char} (printable : isPrintable letter)
    (notSpace : letter ≠ ' ') (notComment : letter ≠ '#') (rest : List Char) :
    Unblank (letter :: rest) := by
  rintro _ ⟨⟩
  exact ⟨printable, notSpace, notComment⟩

variable {scanner : Scanner}

theorem skipToToken_eq (unblank : Unblank scanner.cursor.text) :
    scanner.skipToToken = scanner := by
  obtain ⟨⟨position, text⟩, tokens, indents, key, outerKeys, allowsKey⟩ := scanner
  cases text with
  | nil =>
      simp [skipToToken, skipLines, skipMark, atOneOf, Cursor.skipWhile,
        Cursor.skip, Cursor.skipComment, moveTo]
  | cons letter rest =>
      obtain ⟨printable, notSpace, notComment⟩ := unblank letter rfl
      have notTab : letter ≠ '\t' := ne_of_isPrintable printable rfl
      have notMark : letter ≠ '\uFEFF' := ne_of_isPrintable printable rfl
      simp [skipToToken, skipLines, skipMark, atOneOf, Cursor.skipWhile,
        Cursor.skip, Cursor.skipComment, moveTo, notSpace, notComment, notTab,
        notMark, isBreak_of_isPrintable printable]

theorem closeBlocks_eq (outside : scanner.indents = []) (test : Nat → Bool) :
    scanner.closeBlocks test = scanner := by
  obtain ⟨cursor, tokens, indents, key, outerKeys, allowsKey⟩ := scanner
  obtain rfl : indents = [] := outside
  simp [closeBlocks]

/-- Where nothing is to be passed over, a token is read on the spot. -/
theorem Stands.fetch_eq {depth depth' : Nat} {tokens tokens' : List Token}
    {text text' : List Char} {next : Scanner}
    (stands : Stands depth tokens text scanner) (unblank : Unblank text)
    (here : scanner.withFreshKeys.fetchHere = some next)
    (stands' : Stands depth' tokens' text' next) :
    scanner.fetch = some next.withFreshKeys := by
  rw [← stands.text_eq] at unblank
  have closed := closeBlocks_eq stands.withFreshKeys.indents_eq
  simp only [fetch, skipToToken_eq unblank, stands.expireKeys_eq, closed, here,
    stands'.expireKeys_eq, Option.bind_eq_bind, Option.bind_some]

end Blanks

section Runs

/-- Reading tokens from one place comes to reading them from another one further
on. -/
def Continues (scanner next : Scanner) : Prop :=
  ∀ bound, scanner.cursor.text.length < bound →
    ∃ bound', next.cursor.text.length < bound' ∧
      tokensFrom bound scanner = tokensFrom bound' next

variable {scanner next : Scanner}

theorem Continues.refl (scanner : Scanner) : Continues scanner scanner :=
  fun bound enough => ⟨bound, enough, rfl⟩

theorem Continues.trans {last : Scanner} (before : Continues scanner next)
    (after : Continues next last) : Continues scanner last := by
  intro bound enough
  obtain ⟨bound', enough', same⟩ := before bound enough
  obtain ⟨bound'', enough'', same'⟩ := after bound' enough'
  exact ⟨bound'', enough'', same.trans same'⟩

/-- Reading a token that takes some of the text, which leaves the end of the
stream for later. -/
theorem Continues.of_fetch (fetched : scanner.fetch = some next)
    (shorter : next.cursor.text.length < scanner.cursor.text.length)
    (notEnd : next.tokens.back? ≠ some .streamEnd) : Continues scanner next := by
  intro bound enough
  cases bound with
  | zero => omega
  | succ bound =>
      refine ⟨bound, by omega, ?_⟩
      simp only [tokensFrom, fetched, notEnd, if_false]

/-- A token that is read on the spot takes some of the text. -/
theorem Stands.continues {depth depth' : Nat} {tokens tokens' : List Token}
    {letters rest : List Char}
    (stands : Stands depth tokens (letters ++ rest) scanner)
    (nonempty : letters ≠ []) (unblank : Unblank (letters ++ rest))
    (here : scanner.withFreshKeys.fetchHere = some next)
    (stands' : Stands depth' tokens' rest next)
    (notEnd : tokens'.getLast? ≠ some .streamEnd) :
    Continues scanner next.withFreshKeys := by
  refine .of_fetch (stands.fetch_eq unblank here stands') ?_ ?_
  · have shorter := List.length_pos_iff.mpr nonempty
    have same : next.withFreshKeys.cursor.text = rest := stands'.text_eq
    rw [stands.text_eq, same, List.length_append]
    omega
  · have same : next.withFreshKeys.tokens = next.tokens := rfl
    rwa [same, ← Array.getLast?_toList, stands'.tokens_eq]

end Runs

section Marks

variable {depth : Nat} {tokens : List Token} {rest : List Char}
  {scanner : Scanner}

theorem Stands.inFlow_eq {text : List Char}
    (stands : Stands (depth + 1) tokens text scanner) :
    scanner.inFlow = true := by
  have deeper := stands.depth_eq
  cases isOuter : scanner.outerKeys with
  | nil => simp [isOuter] at deeper
  | cons key outerKeys => simp [inFlow, isOuter]

theorem Stands.dropKey_eq {text : List Char}
    (stands : Stands depth tokens text scanner) :
    scanner.dropKey = some { scanner with key := none } := by
  unfold dropKey
  cases isKey : scanner.key with
  | none => simp [← isKey]
  | some place => simp [stands.key_free place isKey]

/-- A possible key that is kept in flow style is never demanded. -/
theorem Stands.keepKey_eq {text : List Char}
    (stands : Stands depth tokens text scanner) :
    scanner.keepKey = some (if scanner.allowsKey then
      { scanner with
        key := some ⟨tokens.length, scanner.cursor.position, false⟩ }
      else scanner) := by
  unfold keepKey
  split
  case isTrue =>
    have size : scanner.tokens.size = tokens.length := by
      rw [← stands.tokens_eq, Array.length_toList]
    simp [stands.dropKey_eq, stands.indents_eq, size]
  case isFalse => rfl

theorem Stands.kept {text : List Char}
    (stands : Stands depth tokens text scanner) :
    Stands depth tokens text (if scanner.allowsKey then
      { scanner with
        key := some ⟨tokens.length, scanner.cursor.position, false⟩ }
      else scanner) := by
  split
  case isTrue =>
    refine { stands with key_free := ?_ }
    rintro _ ⟨⟩
    rfl
  case isFalse => exact stands

theorem Stands.withoutKey {text : List Char}
    (stands : Stands depth tokens text scanner) :
    Stands depth tokens text { scanner with key := none } :=
  { stands with key_free := nofun }

/-- A token is split off and the text continues behind it. -/
theorem Stands.emit {text : List Char}
    (stands : Stands depth tokens text scanner) (allowed : Bool)
    (cursor : Cursor) (behind : cursor.text = rest) (token : Token) :
    Stands depth (tokens ++ [token]) rest
      (((scanner.allowKey allowed).moveTo cursor).emit token) where
  text_eq := behind
  tokens_eq := by
    rw [← stands.tokens_eq]
    exact Array.toList_push
  indents_eq := stands.indents_eq
  depth_eq := stands.depth_eq
  key_free := stands.key_free
  outerKeys_free := stands.outerKeys_free

/-- An opening bracket takes the scanner into one more collection. -/
theorem Stands.fetchFlowStart {bracket : Char}
    (stands : Stands depth tokens (bracket :: rest) scanner) (token : Token) :
    ∃ next, scanner.fetchFlowStart token = some next ∧
      Stands (depth + 1) (tokens ++ [token]) rest next ∧
        next.allowsKey = true := by
  rw [Scanner.fetchFlowStart, stands.keepKey_eq]
  generalize kept : (if scanner.allowsKey then _ else scanner) = scanner'
  have stands' := kept ▸ stands.kept
  refine ⟨_, rfl, ?_, rfl⟩
  constructor
  case text_eq => exact congrArg (List.drop 1) stands'.text_eq
  case tokens_eq =>
    rw [← stands'.tokens_eq]
    exact Array.toList_push
  case indents_eq => exact stands'.indents_eq
  case depth_eq => exact congrArg (· + 1) stands'.depth_eq
  case key_free => exact nofun
  case outerKeys_free =>
    intro place isMember
    rcases List.mem_cons.mp isMember with isKey | isOuter
    · exact stands'.key_free place isKey.symm
    · exact stands'.outerKeys_free place isOuter

/-- A closing bracket takes the scanner back to the collection around. -/
theorem Stands.fetchFlowEnd {bracket : Char}
    (stands : Stands (depth + 1) tokens (bracket :: rest) scanner)
    (token : Token) :
    ∃ next, scanner.fetchFlowEnd token = some next ∧
      Stands depth (tokens ++ [token]) rest next := by
  rw [Scanner.fetchFlowEnd, stands.dropKey_eq]
  cases isOuter : scanner.outerKeys with
  | nil =>
      have deeper := stands.depth_eq
      simp [isOuter] at deeper
  | cons key outerKeys =>
      simp only [Option.bind_eq_bind, Option.bind_some]
      have closed : Stands depth tokens (bracket :: rest)
          { scanner with key, outerKeys } := by
        refine { stands with
          depth_eq := ?_, key_free := ?_, outerKeys_free := ?_ }
        · have deeper := stands.depth_eq
          rw [isOuter, List.length_cons] at deeper
          exact Nat.succ.inj deeper
        · rintro place rfl
          exact stands.outerKeys_free place (by simp [isOuter])
        · intro place isMember
          exact stands.outerKeys_free place (by simp [isOuter, isMember])
      exact ⟨_, rfl, closed.emit false _
        (congrArg (List.drop 1) closed.text_eq) token⟩

theorem Stands.fetchFlowEntry {comma : Char}
    (stands : Stands depth tokens (comma :: rest) scanner) :
    ∃ next, scanner.fetchFlowEntry = some next ∧
      Stands depth (tokens ++ [.flowEntry]) rest next ∧
        next.allowsKey = true := by
  rw [Scanner.fetchFlowEntry, stands.dropKey_eq]
  exact ⟨_, rfl, stands.withoutKey.emit true _
    (congrArg (List.drop 1) stands.text_eq) .flowEntry, rfl⟩

theorem insertIdx_length {α : Type} (before after : List α) (x : α) :
    (before ++ after).insertIdx before.length x = before ++ x :: after := by
  induction before with
  | nil => rfl
  | cons first before ih =>
      rw [List.cons_append, List.length_cons, List.insertIdx_succ_cons, ih]
      rfl

/-- A colon behind a possible key puts the mark of a key in front of it. -/
theorem Stands.fetchValue {colon : Char} {before added : List Token}
    (stands : Stands (depth + 1) (before ++ added) (colon :: rest) scanner)
    {place : SimpleKey} (isKey : scanner.key = some place)
    (number : place.number = before.length) :
    ∃ next, scanner.fetchValue = some next ∧
      Stands (depth + 1) (before ++ .key :: added ++ [.value]) rest next := by
  have within : place.number ≤ scanner.tokens.size := by
    rw [← Array.length_toList, stands.tokens_eq, List.length_append, number]
    omega
  have inserted : (scanner.tokens.insertIdxIfInBounds place.number
      .key).toList = before ++ .key :: added := by
    rw [Array.insertIdxIfInBounds, dif_pos within, Array.toList_insertIdx,
      stands.tokens_eq, number, insertIdx_length]
  have marked : Stands (depth + 1) (before ++ .key :: added) (colon :: rest)
      { scanner.insert place.number .key with key := none, allowsKey := false } :=
    { stands with tokens_eq := inserted, key_free := nofun }
  have unopened (column : Nat) :
      (scanner.insert place.number .key).openBlock column place.number
        .blockMappingStart = scanner.insert place.number .key := by
    have inFlow : (scanner.insert place.number .key).inFlow = true :=
      stands.inFlow_eq
    simp [openBlock, inFlow]
  rw [Scanner.fetchValue, isKey]
  simp only [unopened]
  exact ⟨_, rfl, marked.emit false _ (congrArg (List.drop 1) marked.text_eq) _⟩

/-- A quoted text is one token.  Where simple keys are allowed, its place is
kept as a possible one. -/
theorem Stands.fetchQuoted {content : List Char}
    (printable : ∀ letter ∈ content, isPrintable letter)
    (stands : Stands depth tokens (quotedText content ++ rest) scanner) :
    ∃ next, scanner.fetchQuoted .double = some next ∧
      Stands depth (tokens ++ [.scalar .doubleQuoted content]) rest next ∧
        (scanner.allowsKey = true →
          next.key =
            some ⟨tokens.length, scanner.cursor.position, false⟩) ∧
        next.cursor.position =
          scanner.cursor.position.forward (quotedText content) := by
  have reads : quotedScalar .double scanner.cursor =
      some (content,
        ⟨scanner.cursor.position.forward (quotedText content), rest⟩) := by
    rw [← quotedScalar_append printable scanner.cursor.position rest,
      ← stands.text_eq]
  rw [Scanner.fetchQuoted, stands.keepKey_eq]
  simp only [Option.bind_eq_bind, Option.bind_some]
  generalize kept : (if scanner.allowsKey then _ else scanner) = scanner'
  have stands' := kept ▸ stands.kept
  have sameCursor : scanner'.cursor = scanner.cursor := by
    rw [← kept]
    split <;> rfl
  rw [sameCursor, reads]
  have behind : (Cursor.mk (scanner.cursor.position.forward
      (quotedText content)) rest).text = rest := rfl
  refine ⟨_, rfl, stands'.emit false _ behind _, fun allowed => ?_, rfl⟩
  rw [← kept, if_pos allowed]
  rfl

theorem Stands.fetchPlain {content : List Char} (nonempty : content ≠ [])
    (areAlphanum : ∀ letter ∈ content, letter.isAlphanum)
    (stops : atOneOf [',', ']', '\x7d'] rest)
    (stands : Stands (depth + 1) tokens (content ++ rest) scanner) :
    ∃ next, scanner.fetchPlain = some next ∧
      Stands (depth + 1) (tokens ++ [.scalar .plain content]) rest next := by
  have reads : plainScalar true scanner.contentIndent scanner.cursor =
      some ⟨content, .spaces [],
        ⟨scanner.cursor.position.forward content, rest⟩⟩ := by
    rw [← plainScalar_append nonempty areAlphanum scanner.contentIndent
      scanner.cursor.position stops, ← stands.text_eq]
  rw [Scanner.fetchPlain, stands.keepKey_eq]
  simp only [Option.bind_eq_bind, Option.bind_some]
  generalize kept : (if scanner.allowsKey then _ else scanner) = scanner'
  have stands' := kept ▸ stands.kept
  have same : scanner'.cursor = scanner.cursor ∧
      scanner'.contentIndent = scanner.contentIndent := by
    rw [← kept]
    split <;> exact ⟨rfl, rfl⟩
  rw [stands'.inFlow_eq, same.1, same.2, reads]
  have behind : (Cursor.mk (scanner.cursor.position.forward content)
      rest).text = rest := rfl
  exact ⟨_, rfl, stands'.emit false _ behind _⟩

end Marks

section Steps

variable {depth : Nat} {tokens : List Token} {rest : List Char}
  {scanner : Scanner}

/-- The brackets of the two kinds of flow collections, and their tokens. -/
inductive Brackets : (opening : Char) → (start : Token) → (closing : Char) →
    (stop : Token) → Prop
  | sequence : Brackets '[' .flowSequenceStart ']' .flowSequenceEnd
  | mapping : Brackets '\x7b' .flowMappingStart '\x7d' .flowMappingEnd

variable {opening closing : Char} {start stop : Token}

theorem Stands.opened (brackets : Brackets opening start closing stop)
    (stands : Stands depth tokens (opening :: rest) scanner) :
    ∃ next, Continues scanner next ∧
      Stands (depth + 1) (tokens ++ [start]) rest next ∧
        next.allowsKey = true := by
  obtain ⟨next, fetched, stands', allowed⟩ :=
    stands.withFreshKeys.fetchFlowStart start
  have here : scanner.withFreshKeys.fetchHere = some next := by
    rw [← fetched]
    cases brackets <;>
      simp [fetchHere, stands.withFreshKeys.text_eq, atDocumentMarker]
  have unblank : Unblank ([opening] ++ rest) := by
    cases brackets <;> exact unblank_cons rfl (by decide) (by decide) rest
  have notEnd : (tokens ++ [start]).getLast? ≠ some .streamEnd := by
    cases brackets <;> simp
  exact ⟨_, stands.continues (List.cons_ne_nil _ _) unblank here stands' notEnd,
    stands'.withFreshKeys, allowed⟩

theorem Stands.closed (brackets : Brackets opening start closing stop)
    (stands : Stands (depth + 1) tokens (closing :: rest) scanner) :
    ∃ next, Continues scanner next ∧
      Stands depth (tokens ++ [stop]) rest next := by
  obtain ⟨next, fetched, stands'⟩ := stands.withFreshKeys.fetchFlowEnd stop
  have here : scanner.withFreshKeys.fetchHere = some next := by
    rw [← fetched]
    cases brackets <;>
      simp [fetchHere, stands.withFreshKeys.text_eq, atDocumentMarker]
  have unblank : Unblank ([closing] ++ rest) := by
    cases brackets <;> exact unblank_cons rfl (by decide) (by decide) rest
  have notEnd : (tokens ++ [stop]).getLast? ≠ some .streamEnd := by
    cases brackets <;> simp
  exact ⟨_, stands.continues (List.cons_ne_nil _ _) unblank here stands' notEnd,
    stands'.withFreshKeys⟩

theorem Stands.comma (stands : Stands depth tokens (',' :: rest) scanner) :
    ∃ next, Continues scanner next ∧
      Stands depth (tokens ++ [.flowEntry]) rest next ∧
        next.allowsKey = true := by
  obtain ⟨next, fetched, stands', allowed⟩ :=
    stands.withFreshKeys.fetchFlowEntry
  have here : scanner.withFreshKeys.fetchHere = some next := by
    rw [← fetched]
    simp [fetchHere, stands.withFreshKeys.text_eq, atDocumentMarker]
  have unblank : Unblank ([','] ++ rest) :=
    unblank_cons rfl (by decide) (by decide) rest
  exact ⟨_, stands.continues (List.cons_ne_nil _ _) unblank here stands'
    (by simp), stands'.withFreshKeys, allowed⟩

theorem Stands.word {content : List Char} (nonempty : content ≠ [])
    (areAlphanum : ∀ letter ∈ content, letter.isAlphanum)
    (stops : atOneOf [',', ']', '\x7d'] rest)
    (stands : Stands (depth + 1) tokens (content ++ rest) scanner) :
    ∃ next, Continues scanner next ∧
      Stands (depth + 1) (tokens ++ [.scalar .plain content]) rest next := by
  obtain ⟨next, fetched, stands'⟩ :=
    stands.withFreshKeys.fetchPlain nonempty areAlphanum stops
  obtain ⟨letter, letters, rfl⟩ := List.exists_cons_of_ne_nil nonempty
  have isAlphanum := areAlphanum letter List.mem_cons_self
  have printable := FlowNode.isPrintable_of_isAlphanum isAlphanum
  have notSpace : letter ≠ ' ' := ne_of_isAlphanum isAlphanum rfl
  have notMarker : atDocumentMarker (letter :: (letters ++ rest)) = false :=
    atDocumentMarker_cons (ne_of_isAlphanum isAlphanum rfl)
      (ne_of_isAlphanum isAlphanum rfl) _
  have here : scanner.withFreshKeys.fetchHere = some next := by
    rw [← fetched]
    simp (disch := decide) [fetchHere, stands.withFreshKeys.text_eq, notMarker,
      beginsPlain, indicators, ne_of_isAlphanum isAlphanum,
      isSpace_of_isPrintable printable notSpace,
      isBreak_of_isPrintable printable]
  have unblank : Unblank (letter :: letters ++ rest) :=
    unblank_cons printable notSpace (ne_of_isAlphanum isAlphanum rfl) _
  exact ⟨_, stands.continues nonempty unblank here stands' (by simp),
    stands'.withFreshKeys⟩

/-- A quoted text is passed over.  The possible key that is kept for it where
keys are allowed is not too far away, unless the text is long. -/
theorem Stands.quoted {content : List Char}
    (printable : ∀ letter ∈ content, isPrintable letter)
    (stands : Stands depth tokens (quotedText content ++ rest) scanner) :
    ∃ next, Continues scanner next ∧
      Stands depth (tokens ++ [.scalar .doubleQuoted content]) rest next ∧
        (scanner.allowsKey = true →
          byteSize (quotedText content) ≤ 1024 →
            ∃ place, next.key = some place ∧ place.number = tokens.length ∧
              place.isStale next.cursor.position = false) := by
  obtain ⟨next, fetched, stands', kept, position⟩ :=
    stands.withFreshKeys.fetchQuoted printable
  have here : scanner.withFreshKeys.fetchHere = some next := by
    rw [← fetched]
    simp [fetchHere, stands.withFreshKeys.text_eq, atDocumentMarker, quotedText]
  have unblank : Unblank (quotedText content ++ rest) :=
    unblank_cons rfl (by decide) (by decide) _
  refine ⟨_, stands.continues (List.cons_ne_nil _ _) unblank here stands'
    (by simp), stands'.withFreshKeys, fun allowed short => ?_⟩
  have notStale : SimpleKey.isStale
      ⟨tokens.length, scanner.withFreshKeys.cursor.position, false⟩
      next.cursor.position = false := by
    rw [position]
    simp [SimpleKey.isStale, Position.forward]
    omega
  refine ⟨_, freshKey_eq_some (kept allowed) notStale, rfl, notStale⟩

/-- A quoted text in front of a colon is a key. -/
theorem Stands.key {content : List Char}
    (printable : ∀ letter ∈ content, isPrintable letter)
    (short : byteSize (quotedText content) ≤ 1024)
    (stands : Stands (depth + 1) tokens (quotedText content ++ ':' :: rest)
      scanner)
    (allowed : scanner.allowsKey = true) :
    ∃ next, Continues scanner next ∧
      Stands (depth + 1) (tokens ++
        [.key, .scalar .doubleQuoted content, .value]) rest next := by
  obtain ⟨middle, continues, stands', kept⟩ := stands.quoted printable
  obtain ⟨place, isKey, number, notStale⟩ := kept allowed short
  have isFresh : middle.withFreshKeys.key = some place :=
    freshKey_eq_some isKey notStale
  obtain ⟨next, fetched, stands''⟩ :=
    stands'.withFreshKeys.fetchValue isFresh number
  have here : middle.withFreshKeys.fetchHere = some next := by
    rw [← fetched]
    simp [fetchHere, stands'.withFreshKeys.text_eq, atDocumentMarker,
      stands'.withFreshKeys.inFlow_eq]
  have unblank : Unblank ([':'] ++ rest) :=
    unblank_cons rfl (by decide) (by decide) rest
  have behind := stands'.continues (List.cons_ne_nil _ _) unblank here stands''
    (by simp)
  refine ⟨_, continues.trans behind, ?_⟩
  simpa using stands''.withFreshKeys

end Steps

section Nodes

/-- Letters in a flow collection are split into the given tokens if a separator
follows. -/
def Splits (letters : List Char) (added : List Token) : Prop :=
  ∀ (depth : Nat) (tokens : List Token) (rest : List Char) (scanner : Scanner),
    atOneOf [',', ']', '\x7d'] rest →
      Stands (depth + 1) tokens (letters ++ rest) scanner →
        ∃ next, Continues scanner next ∧
          Stands (depth + 1) (tokens ++ added) rest next

/-- The same of letters that may start with a simple key. -/
def SplitsEntry (letters : List Char) (added : List Token) : Prop :=
  ∀ (depth : Nat) (tokens : List Token) (rest : List Char) (scanner : Scanner),
    atOneOf [',', ']', '\x7d'] rest → scanner.allowsKey = true →
      Stands (depth + 1) tokens (letters ++ rest) scanner →
        ∃ next, Continues scanner next ∧
          Stands (depth + 1) (tokens ++ added) rest next

theorem Splits.entry {letters : List Char} {added : List Token}
    (splits : Splits letters added) : SplitsEntry letters added :=
  fun depth tokens rest scanner separates _ stands =>
    splits depth tokens rest scanner separates stands

theorem Splits.keyed {key letters : List Char} {added : List Token}
    (printable : ∀ letter ∈ key, isPrintable letter)
    (short : byteSize (quotedText key) ≤ 1024) (splits : Splits letters added) :
    SplitsEntry (quotedText key ++ ':' :: letters)
      (.key :: .scalar .doubleQuoted key :: .value :: added) := by
  intro depth tokens rest scanner separates allowed stands
  rw [List.append_assoc, List.cons_append] at stands
  obtain ⟨middle, toMiddle, standsMiddle⟩ :=
    stands.key printable short allowed
  obtain ⟨next, toNext, standsNext⟩ :=
    splits depth _ rest middle separates standsMiddle
  refine ⟨next, toMiddle.trans toNext, ?_⟩
  simpa using standsNext

variable {parts : List (List Char)} {added : List (List Token)}
  {opening closing : Char} {start stop : Token}

theorem separates_further (brackets : Brackets opening start closing stop)
    (parts : List (List Char)) (rest : List Char) :
    atOneOf [',', ']', '\x7d']
      (parts.flatMap (',' :: ·) ++ closing :: rest) := by
  cases parts with
  | nil => cases brackets <;> rfl
  | cons part parts => rfl

/-- What is left of a row of parts behind the first one is split part by
part. -/
theorem Stands.further (brackets : Brackets opening start closing stop)
    (areSplit : List.Forall₂ SplitsEntry parts added) {depth : Nat}
    {tokens : List Token} {rest : List Char} {scanner : Scanner}
    (stands : Stands (depth + 1) tokens
      (parts.flatMap (',' :: ·) ++ closing :: rest) scanner) :
    ∃ next, Continues scanner next ∧
      Stands (depth + 1) (tokens ++ added.flatMap (.flowEntry :: ·))
        (closing :: rest) next := by
  induction areSplit generalizing tokens scanner with
  | nil => exact ⟨scanner, .refl scanner, by simpa using stands⟩
  | @cons part addedPart parts added splits _ ih =>
      rw [List.flatMap_cons, List.append_assoc, List.cons_append] at stands
      obtain ⟨behind, toBehind, standsBehind, allowed⟩ := stands.comma
      obtain ⟨middle, toMiddle, standsMiddle⟩ := splits depth _ _ behind
        (separates_further brackets parts rest) allowed standsBehind
      obtain ⟨next, toNext, standsNext⟩ := ih standsMiddle
      refine ⟨next, (toBehind.trans toMiddle).trans toNext, ?_⟩
      simpa using standsNext

/-- A flow collection is split into the tokens of its parts and its
brackets. -/
theorem Stands.collection (brackets : Brackets opening start closing stop)
    (areSplit : List.Forall₂ SplitsEntry parts added) {depth : Nat}
    {tokens : List Token} {rest : List Char} {scanner : Scanner}
    (stands : Stands depth tokens
      (opening :: (separated ',' parts ++ [closing]) ++ rest) scanner) :
    ∃ next, Continues scanner next ∧
      Stands depth
        (tokens ++ start :: (separated .flowEntry added ++ [stop])) rest
        next := by
  rw [List.cons_append] at stands
  obtain ⟨inside, toInside, standsInside, allowed⟩ := stands.opened brackets
  have filled : ∃ last, Continues inside last ∧
      Stands (depth + 1) (tokens ++ [start] ++ separated .flowEntry added)
        (closing :: rest) last := by
    cases areSplit with
    | nil =>
        exact ⟨inside, .refl inside, by simpa [separated] using standsInside⟩
    | @cons part addedPart parts added splits others =>
        rw [separated, List.append_assoc, List.append_assoc] at standsInside
        obtain ⟨middle, toMiddle, standsMiddle⟩ := splits depth _ _ inside
          (separates_further brackets parts rest) allowed standsInside
        obtain ⟨last, toLast, standsLast⟩ :=
          standsMiddle.further brackets others
        refine ⟨last, toMiddle.trans toLast, ?_⟩
        simpa [separated] using standsLast
  obtain ⟨last, toLast, standsLast⟩ := filled
  obtain ⟨next, toNext, standsNext⟩ := standsLast.closed brackets
  refine ⟨next, (toInside.trans toLast).trans toNext, ?_⟩
  simpa using standsNext

theorem splits_of_writable {node : FlowNode} (writable : node.Writable) :
    Splits node.letters node.tokens := by
  induction writable with
  | quoted printable =>
      intro depth tokens rest scanner _ stands
      rw [FlowNode.letters] at stands
      obtain ⟨next, continues, stands', -⟩ := stands.quoted printable
      rw [FlowNode.tokens]
      exact ⟨next, continues, stands'⟩
  | plain nonempty areAlphanum =>
      intro depth tokens rest scanner separates stands
      rw [FlowNode.letters] at stands
      rw [FlowNode.tokens]
      exact stands.word nonempty areAlphanum separates
  | sequence _ ih =>
      intro depth tokens rest scanner _ stands
      rw [FlowNode.letters] at stands
      rw [FlowNode.tokens]
      have areSplit := forall₂_of_images fun element isElement =>
        (ih element isElement).entry
      exact stands.collection .sequence areSplit
  | mapping printable short _ ih =>
      intro depth tokens rest scanner _ stands
      rw [FlowNode.letters] at stands
      rw [FlowNode.tokens]
      have areSplit := forall₂_of_images fun entry isEntry =>
        (ih entry isEntry).keyed (printable entry isEntry)
          (short entry isEntry)
      exact stands.collection .mapping areSplit

end Nodes

section Texts

theorem stands_start (text : List Char) :
    Stands 0 [] (text ++ []) { cursor := .start text } where
  text_eq := (List.append_nil text).symm
  tokens_eq := rfl
  indents_eq := rfl
  depth_eq := rfl
  key_free := nofun
  outerKeys_free := nofun

theorem Stands.fetchStreamEnd {tokens : List Token} {scanner : Scanner}
    (stands : Stands 0 tokens [] scanner) :
    ∃ next, scanner.fetchStreamEnd = some next ∧
      Stands 0 (tokens ++ [.streamEnd]) [] next := by
  have moved (cursor : Cursor) (behind : cursor.text = []) :
      Stands 0 tokens [] (scanner.moveTo cursor) :=
    { stands with text_eq := behind }
  rw [Scanner.fetchStreamEnd]
  generalize isMoved : (if scanner.cursor.position.column = 0 then scanner
    else scanner.moveTo _) = scanner'
  have stands' : Stands 0 tokens [] scanner' := by
    rw [← isMoved]
    split
    case isTrue => exact stands
    case isFalse => exact moved _ stands.text_eq
  simp only [closeBlocks_eq stands'.indents_eq, stands'.dropKey_eq,
    Option.bind_eq_bind, Option.bind_some]
  exact ⟨_, rfl, stands'.withoutKey.emit false _ stands'.text_eq _⟩

/-- At the end of the text the end of the stream is split off. -/
theorem Stands.tokensFrom_end {tokens : List Token} {scanner : Scanner}
    (stands : Stands 0 tokens [] scanner) {bound : Nat} (enough : 0 < bound) :
    scanner.tokensFrom bound = tokens ++ [.streamEnd] := by
  obtain ⟨next, fetched, stands'⟩ := stands.withFreshKeys.fetchStreamEnd
  have here : scanner.withFreshKeys.fetchHere = some next := by
    rw [← fetched]
    simp [fetchHere, stands.withFreshKeys.text_eq]
  have isEnd : next.withFreshKeys.tokens.back? = some .streamEnd := by
    rw [← Array.getLast?_toList, stands'.withFreshKeys.tokens_eq]
    simp
  cases bound with
  | zero => omega
  | succ bound =>
      have unblank : Unblank [] := nofun
      simp only [tokensFrom, stands.fetch_eq unblank here stands', isEnd,
        if_true]
      exact stands'.withFreshKeys.tokens_eq

end Texts

end Scanner

/-- A mapping that is a whole text is split into its tokens. -/
theorem tokens_letters {entries : List (FlowEntry FlowNode)}
    (writable : (FlowNode.mapping entries).Writable) :
    tokens (FlowNode.mapping entries).letters =
      (FlowNode.mapping entries).tokens ++ [.streamEnd] := by
  have allowed : (FlowNode.mapping entries).letters.all isAllowed := by
    rw [List.all_eq_true]
    intro letter isMember
    exact isAllowed_of_isPrintable (writable.letters_printable letter isMember)
  rw [tokens, if_pos allowed]
  cases writable with
  | mapping printable short values =>
      have areSplit := forall₂_of_images fun entry isEntry =>
        (Scanner.splits_of_writable (values entry isEntry)).keyed
          (printable entry isEntry) (short entry isEntry)
      rw [FlowNode.letters, FlowNode.tokens]
      obtain ⟨next, continues, stands⟩ :=
        (Scanner.stands_start _).collection .mapping areSplit
      obtain ⟨bound, enough, same⟩ := continues _ (Nat.lt_succ_self _)
      exact same.trans (stands.tokensFrom_end (Nat.zero_lt_of_lt enough))

end Metastring.Yaml
