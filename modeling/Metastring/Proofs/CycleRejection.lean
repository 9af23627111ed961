import Metastring.Proofs.MessageGraph
import Metastring.Proofs.WalkMachine

/-!
# Cycles are rejected and nothing else

Metadata may have any cycles, and its compilation ends all the same.  Run as a
machine that knows of no budget, it halts with the outcome of the compilation,
and at no time are more message walks open than there are different qualified
names, and one that is about to be refused.

A message on a cycle can never be walked to its end, so a cycle that can be
reached makes the compilation fail.  Conversely the names that are open during
a walk belong to messages around the current one.  Where names are distinct,
one of them can only come up again on a cycle, so without cycles no type is
refused as recursive, however often messages are shared.
-/

namespace Metastring

section Segments

variable {ρ : Type} {options : Options}
  {nested : Option String → ρ → Except CompileError String}
  {member : Member Kind ρ}

theorem Member.exists_nested_of_recursive {qualified : String}
    (refused : member.segment options nested =
      .error (.recursiveType qualified)) :
    member.kind = .message ∧ ∃ reference, member.nested = some reference ∧
      nested member.label reference = .error (.recursiveType qualified) := by
  unfold Member.segment at refused
  cases isKind : member.kind with
  | leaf leaf => simp [isKind] at refused
  | unknown id => simp [isKind] at refused
  | message =>
      cases refers : member.nested with
      | none => simp [isKind, refers] at refused
      | some reference =>
          cases walked : nested member.label reference with
          | ok text => simp [isKind, refers, walked, Except.map] at refused
          | error fault =>
              have same : fault = .recursiveType qualified := by
                simpa [isKind, refers, walked, Except.map] using refused
              exact ⟨rfl, reference, rfl, same ▸ walked⟩

end Segments

namespace Introspection

variable {handles messages : Nat} {metadata : Introspection handles messages}
  {options : Options} {flavor : Flavor} {root : Fin messages}

/-- Below a message whose walk succeeds there is no cycle: each level of
nesting takes one from the budget. -/
theorem acc_of_walk_ok {budget : Nat} {opened : List String}
    {label : Option String} {text : String} {message : Fin messages}
    {layout : Layout Kind (Fin handles)}
    (laidOut : (metadata.message message).layout = .ok layout)
    (succeeds : walk options (metadata.describe flavor) budget opened label
      layout = .ok text) :
    Acc (fun inner outer => metadata.Leads flavor outer inner) message := by
  induction budget generalizing opened label text message layout with
  | zero => simp [walk] at succeeds
  | succ budget ih =>
      refine .intro message fun inner leads => ?_
      obtain ⟨member, isMember, isMessage, handle, refers, leadsTo⟩ :=
        (leads_iff_of_layout laidOut inner).mp leads
      obtain ⟨reference, text', refers', walked'⟩ :=
        exists_nested_of_walk succeeds isMember isMessage
      obtain rfl : handle = reference :=
        Option.some.inj (refers.symm.trans refers')
      rw [walkReference, describe_of_target leadsTo] at walked'
      cases laidOut' : (metadata.message inner).layout with
      | error fault => simp [laidOut', bind, Except.bind] at walked'
      | ok layout' =>
          rw [laidOut'] at walked'
          exact ih laidOut' walked'

/-- Every opened name belongs to a message around the given one. -/
def OpenedAround (metadata : Introspection handles messages) (flavor : Flavor)
    (root : Fin messages) (opened : List String) (message : Fin messages) :
    Prop :=
  ∀ qualified ∈ opened, ∃ outer layout, metadata.Reaches flavor root outer ∧
    Relation.TransGen (metadata.Leads flavor) outer message ∧
      (metadata.message outer).layout = .ok layout ∧
        layout.type.qualified = qualified

theorem OpenedAround.cons {opened : List String} {message inner : Fin messages}
    {layout : Layout Kind (Fin handles)}
    (around : metadata.OpenedAround flavor root opened message)
    (reached : metadata.Reaches flavor root message)
    (laidOut : (metadata.message message).layout = .ok layout)
    (leads : metadata.Leads flavor message inner) :
    metadata.OpenedAround flavor root (layout.type.qualified :: opened)
      inner := by
  intro qualified isOpen
  rcases List.mem_cons.mp isOpen with rfl | isOpen
  · exact ⟨message, layout, reached, .single leads, laidOut, rfl⟩
  · obtain ⟨outer, outerLayout, reachedOuter, leadsOuter, named⟩ :=
      around qualified isOpen
    exact ⟨outer, outerLayout, reachedOuter, leadsOuter.tail leads, named⟩

/-- Without a cycle, no message repeats the name of one around it. -/
theorem OpenedAround.fresh {opened : List String} {message : Fin messages}
    {layout : Layout Kind (Fin handles)}
    (around : metadata.OpenedAround flavor root opened message)
    (acyclic : metadata.Acyclic flavor root)
    (distinct : metadata.DistinctlyNamed flavor root)
    (reached : metadata.Reaches flavor root message)
    (laidOut : (metadata.message message).layout = .ok layout) :
    layout.type.qualified ∉ opened := by
  intro isOpen
  obtain ⟨outer, outerLayout, reachedOuter, cycle, laidOut', sameName⟩ :=
    around _ isOpen
  obtain rfl := distinct outer message _ _ reachedOuter reached laidOut'
    laidOut sameName
  exact acyclic outer reached cycle

theorem walk_ne_recursive (acyclic : metadata.Acyclic flavor root)
    (distinct : metadata.DistinctlyNamed flavor root) (qualified : String)
    {budget : Nat} {opened : List String} {label : Option String}
    {message : Fin messages} {layout : Layout Kind (Fin handles)}
    (reached : metadata.Reaches flavor root message)
    (laidOut : (metadata.message message).layout = .ok layout)
    (around : metadata.OpenedAround flavor root opened message)
    (sufficient :
      BudgetSuffices (metadata.describe flavor) budget opened layout) :
    walk options (metadata.describe flavor) budget opened label layout ≠
      .error (.recursiveType qualified) := by
  have fresh := around.fresh acyclic distinct reached laidOut
  induction budget generalizing opened label message layout with
  | zero => exact absurd sufficient fresh
  | succ budget ih =>
      intro refused
      obtain ⟨member, isMember, refusedMember⟩ :=
        exists_member_of_walk_error fresh refused
      obtain ⟨isMessage, handle, refers, refusedNested⟩ :=
        Member.exists_nested_of_recursive refusedMember
      -- The refusal comes from a nested walk, so the message was found.
      rw [walkReference] at refusedNested
      cases described : metadata.describe flavor handle with
      | error fault =>
          obtain rfl : fault = .recursiveType qualified := by
            simpa [described, bind, Except.bind] using refusedNested
          exact describe_ne_recursive qualified handle described
      | ok innerLayout =>
          rw [described] at refusedNested
          obtain ⟨inner, leadsTo, laidOut'⟩ :=
            exists_target_of_describe described
          have leads : metadata.Leads flavor message inner :=
            (leads_iff_of_layout laidOut inner).mpr
              ⟨member, isMember, isMessage, handle, refers, leadsTo⟩
          have reached' := reached.tail leads
          have around' := around.cons reached laidOut leads
          refine ih reached' laidOut' around' ?_
            (around'.fresh acyclic distinct reached' laidOut')
            refusedNested
          exact sufficient fresh innerLayout
            ⟨member, isMember, isMessage, handle, refers, described⟩

/-- The state of a compilation after some steps of the walk.  A root that leads
to no layout is not walked at all. -/
def stateAfter (metadata : Introspection handles messages) (options : Options)
    (root : Root handles messages) (steps : Nat) : WalkState (Fin handles) :=
  match metadata.resolve root with
  | .error error => .halted (.error error)
  | .ok (message, flavor) =>
    match metadata.layoutOf message with
    | .error error => .halted (.error error)
    | .ok layout =>
      (WalkState.step options (metadata.describe flavor))^[steps]
        (.entering formatVersion [] none layout)

/-- The compilation of a root that leads to a layout is the walk of it. -/
structure Walks (metadata : Introspection handles messages) (options : Options)
    (root : Root handles messages) (flavor : Flavor) (message : Fin messages)
    (layout : Layout Kind (Fin handles)) : Prop where
  resolved : metadata.resolve root = .ok (some message, flavor)
  laidOut : (metadata.message message).layout = .ok layout
  state_eq : ∀ steps, metadata.stateAfter options root steps =
    (WalkState.step options (metadata.describe flavor))^[steps]
      (.entering formatVersion [] none layout)
  outcome_eq : (metadata.tryCompile options root).outcome =
    metastring options (metadata.describe flavor) metadata.names.length layout

theorem resolve_ne_recursive (qualified : String)
    (root : Root handles messages) :
    metadata.resolve root ≠ .error (.recursiveType qualified) := by
  cases root with
  | message message flavor => simp [resolve]
  | handle reference =>
      cases reference with
      | none => simp [resolve]
      | some handle =>
          rw [resolve]
          cases decoded : (metadata.handle handle).identifier.decode with
          | error fault =>
              have different :=
                decoded ▸ RawText.decode_ne_recursive qualified
                  (metadata.handle handle).identifier
              exact fun refused =>
                different (congrArg _ (Except.error.inj refused))
          | ok identifier =>
              dsimp only
              cases Flavor.ofIdentifier? identifier with
              | some flavor => simp
              | none =>
                  dsimp only [resolveLookup]
                  cases (metadata.handle handle).lookup .c with
                  | some found => simp
                  | none =>
                      cases (metadata.handle handle).lookup .cpp <;> simp

/-- A compilation either fails before the walk, and not because a type is
recursive, or is the walk of a message. -/
theorem fails_or_walks (metadata : Introspection handles messages)
    (options : Options) (root : Root handles messages) :
    (∃ fault, (metadata.tryCompile options root).outcome = .error fault ∧
        (∀ qualified, fault ≠ .recursiveType qualified) ∧
        ∀ steps, metadata.stateAfter options root steps =
          .halted (.error fault)) ∨
      ∃ flavor message layout,
        metadata.Walks options root flavor message layout := by
  have outcome := metadata.tryCompile_outcome options root
  cases resolved : metadata.resolve root with
  | error fault =>
      rw [resolved] at outcome
      refine .inl ⟨fault, outcome, ?_, ?_⟩
      · rintro qualified rfl
        exact resolve_ne_recursive qualified root resolved
      · intro steps
        simp only [stateAfter, resolved]
  | ok target =>
      obtain ⟨message, flavor⟩ := target
      rw [resolved] at outcome
      simp only [bind, Except.bind, metastringOf] at outcome
      cases laidOut : metadata.layoutOf message with
      | error fault =>
          rw [laidOut] at outcome
          refine .inl ⟨fault, outcome, ?_, ?_⟩
          · rintro qualified rfl
            exact layoutOf_ne_recursive qualified message laidOut
          · intro steps
            simp only [stateAfter, resolved, laidOut]
      | ok layout =>
          rw [laidOut] at outcome
          cases message with
          | none => simp [layoutOf] at laidOut
          | some message =>
              refine .inr ⟨flavor, message, layout, resolved, laidOut, ?_,
                outcome⟩
              intro steps
              simp only [stateAfter, resolved, laidOut]

theorem Walks.distinct {root : Root handles messages} {message : Fin messages}
    {layout : Layout Kind (Fin handles)}
    (walks : metadata.Walks options root flavor message layout) (steps : Nat) :
    (metadata.stateAfter options root steps).Distinct metadata.names := by
  rw [walks.state_eq]
  refine WalkState.distinct_run options qualified_mem_names_of_describe ?_ steps
  refine ⟨List.nodup_nil, List.nil_subset _, ?_⟩
  exact (metadata.mem_names_iff _).mpr ⟨message, layout, walks.laidOut, rfl⟩

theorem exists_halted (metadata : Introspection handles messages)
    (options : Options) (root : Root handles messages) :
    ∃ steps, metadata.stateAfter options root steps =
      .halted (metadata.tryCompile options root).outcome := by
  rcases metadata.fails_or_walks options root with
    ⟨fault, outcome, -, halted⟩ | ⟨flavor, message, layout, walks⟩
  · exact ⟨0, outcome ▸ halted 0⟩
  · obtain ⟨steps, halted⟩ := WalkState.leadsTo_metastring
      (names_suffice walks.laidOut)
    exact ⟨steps, by rw [walks.state_eq, walks.outcome_eq, halted]⟩

/-- At most one walk more is open than there are names, and that one is
refused. -/
theorem openWalks_stateAfter (metadata : Introspection handles messages)
    (options : Options) (root : Root handles messages) (steps : Nat) :
    (metadata.stateAfter options root steps).openWalks ≤
        metadata.names.length + 1 ∧
      ((metadata.stateAfter options root steps).openWalks =
          metadata.names.length + 1 →
        ∃ qualified ∈ metadata.names,
          metadata.stateAfter options root (steps + 1) =
            .halted (.error (.recursiveType qualified))) := by
  rcases metadata.fails_or_walks options root with
    ⟨fault, -, -, halted⟩ | ⟨flavor, message, layout, walks⟩
  · rw [halted]
    exact ⟨Nat.zero_le _, nofun⟩
  · refine ⟨WalkState.openWalks_le (walks.distinct steps), fun atBound => ?_⟩
    obtain ⟨qualified, isName, refused⟩ :=
      WalkState.step_of_openWalks_eq options (walks.distinct steps) atBound
    refine ⟨qualified, isName, ?_⟩
    rw [walks.state_eq, Function.iterate_succ_apply', ← walks.state_eq,
      refused]

/-- A compilation that succeeds has walked everything that can be reached, so
there is no cycle among it. -/
theorem acyclic_of_compiled {root : Root handles messages}
    {message : Fin messages} {text : String}
    (resolved : metadata.resolve root = .ok (some message, flavor))
    (compiled : (metadata.tryCompile options root).outcome = .ok text) :
    metadata.Acyclic flavor message := by
  rcases metadata.fails_or_walks options root with
    ⟨fault, outcome, -, -⟩ | ⟨flavor', message', layout, walks⟩
  · rw [outcome] at compiled
    contradiction
  · have same := Except.ok.inj (resolved.symm.trans walks.resolved)
    obtain ⟨sameMessage, rfl⟩ := Prod.mk.inj same
    obtain rfl := Option.some.inj sameMessage
    rw [walks.outcome_eq, metastring] at compiled
    cases walked : walk options (metadata.describe flavor)
        metadata.names.length [] none layout with
    | error fault => simp [walked, Except.map] at compiled
    | ok text => exact acyclic_of_acc (acc_of_walk_ok walks.laidOut walked)

theorem compile_ne_recursive {root : Root handles messages}
    (plain : ∀ flavor message,
      metadata.resolve root = .ok (some message, flavor) →
        metadata.Acyclic flavor message ∧
          metadata.DistinctlyNamed flavor message)
    (qualified : String) :
    (metadata.tryCompile options root).outcome ≠
      .error (.recursiveType qualified) := by
  rcases metadata.fails_or_walks options root with
    ⟨fault, outcome, different, -⟩ | ⟨flavor, message, layout, walks⟩
  · rw [outcome]
    exact fun refused => different qualified (Except.error.inj refused)
  · obtain ⟨acyclic, distinct⟩ := plain flavor message walks.resolved
    have notRefused : walk options (metadata.describe flavor)
        metadata.names.length [] none layout ≠
          .error (.recursiveType qualified) :=
      walk_ne_recursive acyclic distinct qualified .refl walks.laidOut
        (fun _ isOpen => absurd isOpen List.not_mem_nil)
        (names_suffice walks.laidOut)
    rw [walks.outcome_eq, metastring]
    cases walked : walk options (metadata.describe flavor)
        metadata.names.length [] none layout with
    | ok text => simp [Except.map]
    | error fault =>
        intro refused
        obtain rfl : fault = .recursiveType qualified :=
          Except.error.inj refused
        exact notRefused walked

/-- The compilation of a handle or a message, in any metadata whatever, comes
to its end.  It never has more message walks open than there are different
qualified names among the messages, and one more that is then refused.  It does
not succeed where a cycle of messages can be reached, and it refuses no type as
recursive where no cycle can be reached and different messages that can be
reached have different names. -/
theorem compile_halts (metadata : Introspection handles messages)
    (options : Options) (root : Root handles messages) :
    (∃ steps, metadata.stateAfter options root steps =
        .halted (metadata.tryCompile options root).outcome) ∧
      (metadata.names.Nodup ∧ ∀ steps,
        (metadata.stateAfter options root steps).openWalks ≤
            metadata.names.length + 1 ∧
          ((metadata.stateAfter options root steps).openWalks =
              metadata.names.length + 1 →
            ∃ qualified ∈ metadata.names,
              metadata.stateAfter options root (steps + 1) =
                .halted (.error (.recursiveType qualified)))) ∧
      (∀ flavor start message,
        metadata.resolve root = .ok (some start, flavor) →
          metadata.Reaches flavor start message →
            Relation.TransGen (metadata.Leads flavor) message message →
              ∀ text, (metadata.tryCompile options root).outcome ≠ .ok text) ∧
      ((∀ flavor start, metadata.resolve root = .ok (some start, flavor) →
          metadata.Acyclic flavor start ∧
            metadata.DistinctlyNamed flavor start) →
        ∀ qualified, (metadata.tryCompile options root).outcome ≠
          .error (.recursiveType qualified)) := by
  refine ⟨metadata.exists_halted options root,
    ⟨metadata.names_nodup, metadata.openWalks_stateAfter options root⟩, ?_,
    compile_ne_recursive⟩
  intro flavor start message resolved reached cycle text compiled
  exact acyclic_of_compiled resolved compiled message reached cycle

/-- A message that nests itself. -/
def selfNesting : Introspection 1 1 where
  handle _ := ⟨some (Utf8.encode Flavor.c.identifier), some 0, fun _ => none⟩
  message _ := ⟨none, some [0x4D], 1, some [⟨some [0x78], 18, some 0, {}, 0⟩]⟩

theorem selfNesting_leads : selfNesting.Leads .c 0 0 :=
  ⟨_, List.mem_singleton_self _, rfl, 0, rfl,
    target_of_identifier (Flavor.decode_identifier .c)⟩

theorem sharing_name {message : Fin 2} {layout : Layout Kind (Fin 3)}
    (laidOut : (sharing.message message).layout = .ok layout) :
    layout.type = if message = 0 then ⟨"a___b", "A"⟩ else ⟨"", "B"⟩ := by
  obtain ⟨inScope, named, -⟩ := (RawMessage.layout_eq_ok_iff _ _).mp laidOut
  have scopeDecoded (scope : String)
      (decoded : (sharing.message message).scope.decode = .ok scope) :
      layout.type.scope = scope :=
    Except.ok.inj (inScope.symm.trans decoded)
  have nameDecoded (name : String)
      (decoded : (sharing.message message).name.decode = .ok name) :
      layout.type.name = name :=
    Except.ok.inj (named.symm.trans decoded)
  fin_cases message
  · exact ScopedName.ext (scopeDecoded "a___b" (by cbv))
      (nameDecoded "A" (by cbv))
  · exact ScopedName.ext (scopeDecoded "" rfl) (nameDecoded "B" (by cbv))

theorem sharing_distinctlyNamed (start : Fin 2) :
    sharing.DistinctlyNamed .c start := by
  intro first second layout layout' _ _ laidOut laidOut' same
  rw [sharing_name laidOut, sharing_name laidOut'] at same
  fin_cases first <;> fin_cases second
  · rfl
  · exact absurd same (by decide)
  · exact absurd same (by decide)
  · rfl

/-- A message that nests itself is never compiled, and a message that is nested
twice is not refused. -/
theorem compile_halts_selfNesting_and_sharing :
    (∀ text, (selfNesting.tryCompile {} (.message (some 0) .c)).outcome ≠
        .ok text) ∧
      ∀ qualified,
        (sharing.tryCompile {} (.message (some 0) .c)).outcome ≠
          .error (.recursiveType qualified) := by
  obtain ⟨-, -, rejected, -⟩ :=
    compile_halts selfNesting {} (.message (some 0) .c)
  obtain ⟨-, -, -, notRefused⟩ :=
    compile_halts sharing {} (.message (some 0) .c)
  refine ⟨rejected .c 0 0 rfl .refl (.single selfNesting_leads),
    notRefused ?_⟩
  intro flavor start resolved
  obtain ⟨-, rfl⟩ := Prod.mk.inj (Except.ok.inj resolved)
  exact ⟨sharing_acyclic start, sharing_distinctlyNamed start⟩

end Introspection

end Metastring
