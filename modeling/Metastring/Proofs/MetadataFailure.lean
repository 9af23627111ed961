import Metastring.Proofs.MessageGraph
import Metastring.Proofs.MetadataFault

/-!
# Compilations of raw metadata tell the first fault

A compilation fails exactly if there is a fault at its root or anywhere in the
unfolding below, and the failure is that of the first one.  The walk is followed
message by message: what a message says by itself is told before the walk of its
body, and a body is refused for its name or tells the faults of its members in
their order.
-/

namespace Metastring

namespace Introspection

variable {handles messages : Nat} {metadata : Introspection handles messages}
  {flavor : Flavor} {options : Options}

section Handles

theorem tellsFirst_flavored (handle : Fin handles) :
    TellsFirst ((metadata.handle handle).FaultAt flavor)
      (metadata.flavored flavor handle) := by
  unfold flavored
  generalize metadata.handle handle = found
  cases identified : found.identifier.decode with
  | error fault =>
      refine .error (.of_only (.identifier identified) ?_)
      intro check fault' faulty
      cases faulty <;> simp_all
  | ok identifier =>
      simp only [bind, Except.bind]
      split
      case isTrue own =>
        refine .ok fun check fault faulty => ?_
        cases faulty <;> simp_all
      case isFalse other =>
        cases answered : found.lookup flavor with
        | some resolved =>
            refine .ok fun check fault faulty => ?_
            cases faulty <;> simp_all
        | none =>
            refine .error (.of_only (.flavor identified other answered) ?_)
            intro check fault faulty
            cases faulty <;> simp_all

theorem handleLeadsTo_iff (handle resolved : Fin handles) :
    metadata.HandleLeadsTo flavor handle resolved ↔
      metadata.flavored flavor handle = .ok resolved := by
  constructor
  · intro leads
    cases leads with
    | own identified => exact flavored_of_own identified
    | lookup identified other answered =>
        rw [metadata.flavored_of_other identified other, answered]
  · intro found
    cases identified : (metadata.handle handle).identifier.decode with
    | error fault => simp [flavored, identified, bind, Except.bind] at found
    | ok identifier =>
        by_cases own : identifier = flavor.identifier
        · rw [own] at identified
          rw [flavored_of_own identified] at found
          obtain rfl := Except.ok.inj found
          exact .own identified
        · rw [metadata.flavored_of_other identified own] at found
          cases answered : (metadata.handle handle).lookup flavor with
          | none => simp [answered] at found
          | some target =>
              rw [answered] at found
              obtain rfl := Except.ok.inj found
              exact .lookup identified own answered

end Handles

section Walks

/-- The open names are those of the given messages, innermost first. -/
def OpenedBy (metadata : Introspection handles messages)
    (around : List (Fin messages)) (opened : List String) : Prop :=
  List.Forall₂ (fun message qualified => ∃ type,
    (metadata.message message).HasType type ∧ type.qualified = qualified)
    around opened

/-- A message has the qualified name of one around it. -/
def Repeats (metadata : Introspection handles messages)
    (around : List (Fin messages)) (message : Fin messages)
    (fault : CompileError) : Prop :=
  ∃ type, (metadata.message message).HasType type ∧
    (∃ outer ∈ around, ∃ outerType,
      (metadata.message outer).HasType outerType ∧
        outerType.qualified = type.qualified) ∧
    fault = .recursiveType type.qualified

theorem OpenedBy.mem_iff {around : List (Fin messages)} {opened : List String}
    (openedBy : metadata.OpenedBy around opened) (qualified : String) :
    qualified ∈ opened ↔ ∃ outer ∈ around, ∃ type,
      (metadata.message outer).HasType type ∧ type.qualified = qualified := by
  unfold OpenedBy at openedBy
  induction openedBy with
  | nil => simp
  | @cons outer name around opened named _ ih =>
      obtain ⟨type, typed, rfl⟩ := named
      rw [List.mem_cons, List.exists_mem_cons_iff, ih]
      refine or_congr_left ⟨fun same => ⟨type, typed, same.symm⟩, ?_⟩
      rintro ⟨type', typed', rfl⟩
      rw [typed.unique typed']

/-- What is wrong with a message once it has a layout: its name is repeated, or
a member is at fault. -/
def BodyFaultAt (metadata : Introspection handles messages) (flavor : Flavor)
    (around : List (Fin messages)) (message : Fin messages)
    (place : List Check) (fault : CompileError) : Prop :=
  (place = [.repetition] ∧ metadata.Repeats around message fault) ∨
    ∃ index below, place = .member index :: below ∧
      ∃ raw, (metadata.message message).declared[index]? = some raw ∧
        metadata.MemberFaultAt flavor (message :: around) raw below fault

theorem messageFaultAt_iff {around : List (Fin messages)}
    {message : Fin messages} (place : List Check) (fault : CompileError) :
    metadata.MessageFaultAt flavor around (some message) place fault ↔
      (∃ check, place = [check] ∧
          (metadata.message message).FaultAt check fault) ∨
        metadata.BodyFaultAt flavor around message place fault := by
  constructor
  · intro faulty
    cases faulty with
    | own faulty => exact .inl ⟨_, rfl, faulty⟩
    | repetition typed isAround outerTyped same =>
        exact .inr (.inl ⟨rfl, _, typed, ⟨_, isAround, _, outerTyped, same⟩,
          rfl⟩)
    | member found faulty => exact .inr (.inr ⟨_, _, rfl, _, found, faulty⟩)
  · rintro (⟨check, rfl, faulty⟩ | ⟨rfl, type, typed,
      ⟨outer, isAround, outerType, outerTyped, same⟩, rfl⟩ |
      ⟨index, below, rfl, raw, found, faulty⟩)
    · exact .own faulty
    · exact .repetition typed isAround outerTyped same
    · exact .member found faulty

/-- Nothing is told of a message before the question whether there is one. -/
theorem MessageFaultAt.exists_head {around : List (Fin messages)}
    {message : Option (Fin messages)} {place : List Check}
    {fault : CompileError}
    (faulty : metadata.MessageFaultAt flavor around message place fault) :
    ∃ check below, place = check :: below ∧ .data ≤ check := by
  cases faulty with
  | data => exact ⟨_, _, rfl, le_refl _⟩
  | own faulty => exact ⟨_, _, rfl, faulty.bounds.1.le⟩
  | repetition => exact ⟨_, _, rfl, by simp⟩
  | member => exact ⟨_, _, rfl, by simp⟩

/-- The walk of a nested handle tells the first fault of the handle or of the
message it leads to. -/
theorem tellsFirst_reference {budget : Nat} {around : List (Fin messages)}
    {opened : List String} {label : Option String}
    {raw : RawMember (Fin handles)} {handle : Fin handles}
    (isMessage : Kind.ofId raw.typeId = .message)
    (refers : raw.nested = some handle)
    (tells : ∀ resolved, metadata.flavored flavor handle = .ok resolved →
      TellsFirst
        (metadata.MessageFaultAt flavor around (metadata.handle resolved).data)
        (metadata.layoutOf (metadata.handle resolved).data >>=
          walk options (metadata.describe flavor) budget opened label)) :
    TellsFirst (metadata.MemberFaultAt flavor around raw)
      (walkReference options (metadata.describe flavor) budget opened label
        handle) := by
  -- A handle is resolved before its message is looked at, and every check of a
  -- handle ranks before all checks of a message.
  have split : walkReference options (metadata.describe flavor) budget opened
      label handle = metadata.flavored flavor handle >>= fun resolved =>
        metadata.layoutOf (metadata.handle resolved).data >>=
          walk options (metadata.describe flavor) budget opened label := by
    unfold walkReference describe
    cases metadata.flavored flavor handle <;> rfl
  rw [split]
  have tellsNested (resolved : Fin handles)
      (leads : metadata.flavored flavor handle = .ok resolved) :
      TellsFirst (fun place fault => ∃ resolved,
          metadata.flavored flavor handle = .ok resolved ∧
            metadata.MessageFaultAt flavor around
              (metadata.handle resolved).data place fault)
        (metadata.layoutOf (metadata.handle resolved).data >>=
          walk options (metadata.describe flavor) budget opened label) := by
    refine (tells resolved leads).congr fun place fault => ?_
    simp [leads]
  have tellsHandle :
      TellsFirst ((metadata.handle handle).FaultAt flavor)
        (metadata.flavored flavor handle) := tellsFirst_flavored handle
  refine ((tellsHandle.relocate ([·]) fun first second => List.Lex.rel).bind
    tellsNested ?_).congr fun place fault => ?_
  · rintro _ fault place' fault' ⟨check, rfl, faulty⟩ ⟨resolved, -, below⟩
    obtain ⟨head, rest, rfl, fromData⟩ := below.exists_head
    exact .rel (lt_of_lt_of_le faulty.lt_data fromData)
  · constructor
    · rintro (⟨check, rfl, faulty⟩ | ⟨resolved, leads, faulty⟩)
      · exact .handle isMessage refers faulty
      · exact .nested isMessage refers
          ((handleLeadsTo_iff handle resolved).mpr leads) faulty
    · intro faulty
      cases faulty with
      | unsupportedType _ unknown => simp [isMessage] at unknown
      | missingNested _ _ absent => simp [refers] at absent
      | handle _ refers' faulty =>
          obtain rfl := Option.some.inj (refers.symm.trans refers')
          exact .inl ⟨_, rfl, faulty⟩
      | nested _ refers' leads faulty =>
          obtain rfl := Option.some.inj (refers.symm.trans refers')
          exact .inr ⟨_, (handleLeadsTo_iff handle _).mp leads, faulty⟩

/-- A member tells its kind, or a missing handle, or the first fault of the
handle and of the message it leads to. -/
theorem tellsFirst_member {budget : Nat} {around : List (Fin messages)}
    {opened : List String} {raw : RawMember (Fin handles)}
    {member : Member Kind (Fin handles)} (reads : raw.Reads member)
    (tells : ∀ handle resolved, member.kind = .message →
      member.nested = some handle →
        metadata.flavored flavor handle = .ok resolved →
          TellsFirst (metadata.MessageFaultAt flavor around
              (metadata.handle resolved).data)
            (metadata.layoutOf (metadata.handle resolved).data >>=
              walk options (metadata.describe flavor) budget opened
                member.label)) :
    TellsFirst (metadata.MemberFaultAt flavor around raw)
      (member.segment options
        (walkReference options (metadata.describe flavor) budget opened)) := by
  have named := reads.name_eq
  have sameKind := reads.kind_eq
  have sameNested := reads.nested_eq
  refine Member.tellsFirst_segment ?_ ?_ ?_ ?_
  · intro leaf isLeaf place fault faulty
    cases faulty <;> simp_all
  · intro id isUnknown
    refine .of_only (.unsupportedType named (sameKind.trans isUnknown)) ?_
    intro place fault faulty
    cases faulty <;> simp_all
  · intro isMessage absent
    rw [if_pos isMessage] at sameNested
    refine .of_only (.missingNested named (sameKind.trans isMessage)
      (sameNested.trans absent)) ?_
    intro place fault faulty
    cases faulty <;> simp_all
  · intro handle isMessage refers
    rw [if_pos isMessage] at sameNested
    exact tellsFirst_reference (sameKind.trans isMessage)
      (sameNested.trans refers)
      fun resolved leads => tells handle resolved isMessage refers leads

theorem tellsFirst_message_of_body {budget : Nat}
    {around : List (Fin messages)} {opened : List String}
    {label : Option String} {message : Option (Fin messages)}
    (tells : ∀ found layout, message = some found →
      (metadata.message found).layout = .ok layout →
        TellsFirst (metadata.BodyFaultAt flavor around found)
          (walk options (metadata.describe flavor) budget opened label
            layout)) :
    TellsFirst (metadata.MessageFaultAt flavor around message)
      (metadata.layoutOf message >>=
        walk options (metadata.describe flavor) budget opened label) := by
  cases message with
  | none =>
      refine .error (.of_only .data fun place fault faulty => ?_)
      cases faulty
      exact ⟨rfl, rfl⟩
  | some message =>
      refine (((metadata.message message).tellsFirst_layout.relocate ([·])
        fun first second => List.Lex.rel).bind
          (tells message · rfl) ?_).congr fun place fault =>
            (messageFaultAt_iff place fault).symm
      rintro _ fault place' fault' ⟨check, rfl, faulty⟩
        (⟨rfl, -⟩ | ⟨index, below, rfl, -⟩)
      · exact .rel faulty.bounds.2
      · exact .rel (faulty.bounds.2.trans (by simp))

variable {around : List (Fin messages)} {opened : List String}
  {message : Fin messages} {layout : Layout Kind (Fin handles)}

theorem tellsFirst_body_of_opened (openedBy : metadata.OpenedBy around opened)
    (laidOut : (metadata.message message).layout = .ok layout) (budget : Nat)
    (label : Option String) (isOpen : layout.type.qualified ∈ opened) :
    TellsFirst (metadata.BodyFaultAt flavor around message)
      (walk options (metadata.describe flavor) budget opened label layout) := by
  have typed := RawMessage.hasType_of_layout laidOut
  rw [walk_of_opened options _ budget label isOpen]
  refine .error ⟨[.repetition], .inl ⟨rfl, layout.type, typed,
    (openedBy.mem_iff _).mp isOpen, rfl⟩, ?_⟩
  rintro place fault (⟨rfl, type, typed', -, rfl⟩ | ⟨index, below, rfl, -⟩)
  · rw [typed.unique typed']
    exact .inr ⟨rfl, rfl⟩
  · exact .inl (.rel (by simp))

theorem bodyFaultAt_iff_of_fresh (openedBy : metadata.OpenedBy around opened)
    (laidOut : (metadata.message message).layout = .ok layout)
    (fresh : layout.type.qualified ∉ opened) (place : List Check)
    (fault : CompileError) :
    metadata.BodyFaultAt flavor around message place fault ↔
      ∃ index below, index < layout.members.length ∧
        place = .member index :: below ∧
          ∃ raw, (metadata.message message).declared[index]? = some raw ∧
            metadata.MemberFaultAt flavor (message :: around) raw below
              fault := by
  obtain ⟨-, -, -, reads⟩ := (RawMessage.layout_eq_ok_iff _ _).mp laidOut
  constructor
  · rintro (⟨-, type, typed, repeated, -⟩ | ⟨index, below, rfl, raw, found,
      faulty⟩)
    · rw [← (RawMessage.hasType_of_layout laidOut).unique typed,
        ← openedBy.mem_iff] at repeated
      exact absurd repeated fresh
    · have inside := (List.getElem?_eq_some_iff.mp found).1
      exact ⟨index, below, reads.length_eq ▸ inside, rfl, raw, found, faulty⟩
  · rintro ⟨index, below, -, rfl, raw, found, faulty⟩
    exact .inr ⟨index, below, rfl, raw, found, faulty⟩

/-- The walk of a message tells the first fault found in its unfolding, inside
the messages that are open. -/
theorem tellsFirst_message {budget : Nat}
    (openedBy : metadata.OpenedBy around opened) (label : Option String)
    {message : Option (Fin messages)}
    (sufficient : ∀ layout, metadata.layoutOf message = .ok layout →
      BudgetSuffices (metadata.describe flavor) budget opened layout) :
    TellsFirst (metadata.MessageFaultAt flavor around message)
      (metadata.layoutOf message >>=
        walk options (metadata.describe flavor) budget opened label) := by
  -- Induction on the budget.  The open names stay those of the messages around;
  -- with no budget left the name of the message is one of them.
  induction budget generalizing around opened label message with
  | zero =>
      refine tellsFirst_message_of_body fun found layout isFound laidOut => ?_
      subst isFound
      exact tellsFirst_body_of_opened openedBy laidOut 0 label
        (sufficient layout laidOut)
  | succ budget ih =>
      refine tellsFirst_message_of_body fun found layout isFound laidOut => ?_
      subst isFound
      by_cases isOpen : layout.type.qualified ∈ opened
      · exact tellsFirst_body_of_opened openedBy laidOut _ label isOpen
      refine (tellsFirst_walk_of_fresh label isOpen .member
        (fun _ _ before => by simpa using before) _
        fun index member isMember => ?_).congr fun place fault =>
          (bodyFaultAt_iff_of_fresh openedBy laidOut isOpen place fault).symm
      obtain ⟨-, -, -, reads⟩ := (RawMessage.layout_eq_ok_iff _ _).mp laidOut
      obtain ⟨raw, declared, isRead⟩ :=
        exists_getElem?_of_forall₂ reads isMember
      have told : TellsFirst
          (metadata.MemberFaultAt flavor (found :: around) raw)
          (member.segment options (walkReference options
            (metadata.describe flavor) budget
              (layout.type.qualified :: opened))) := by
        refine tellsFirst_member isRead
          fun handle resolved isMessage refers leads => ?_
        refine ih (.cons ⟨_, RawMessage.hasType_of_layout laidOut, rfl⟩
          openedBy) member.label fun inner laidOut' => ?_
        refine sufficient layout laidOut isOpen inner
          ⟨member, List.mem_of_getElem? isMember, isMessage, handle, refers, ?_⟩
        rw [describe, leads]
        exact laidOut'
      refine told.congr fun below fault => ?_
      simp [declared]

end Walks

section Roots

theorem resolveLookup_eq_error_iff {handle : Fin handles} {identifier : String}
    (fault : CompileError) :
    metadata.resolveLookup handle identifier = .error fault ↔
      (∀ flavor, (metadata.handle handle).lookup flavor = none) ∧
        fault = .unknownFlavor identifier := by
  unfold resolveLookup
  constructor
  · intro failed
    split at failed
    case h_1 => contradiction
    case h_2 noneForC =>
      split at failed
      case h_1 => contradiction
      case h_2 noneForCpp =>
        refine ⟨?_, (Except.error.inj failed).symm⟩
        rintro (_ | _)
        · exact noneForC
        · exact noneForCpp
  · rintro ⟨unanswered, rfl⟩
    rw [unanswered .c, unanswered .cpp]

/-- Below a root that is resolved, the faults are those of its message. -/
theorem rootFaultAt_iff_of_resolved {root : Root handles messages}
    {message : Option (Fin messages)}
    (resolved : metadata.resolve root = .ok (message, flavor))
    (place : List Check) (fault : CompileError) :
    metadata.RootFaultAt root place fault ↔
      metadata.MessageFaultAt flavor [] message place fault := by
  constructor
  · intro faulty
    cases faulty with
    | handle => simp [resolve] at resolved
    | identifier undecodable => simp [resolve, undecodable] at resolved
    | flavor identified other unanswered =>
        have unknown := Flavor.ofIdentifier?_eq_none_iff.mpr other
        rw [resolve_of_unknown identified unknown, (resolveLookup_eq_error_iff
          _).mpr ⟨unanswered, rfl⟩] at resolved
        contradiction
    | message resolved' faulty =>
        obtain ⟨rfl, rfl⟩ :=
          Prod.mk.inj (Except.ok.inj (resolved.symm.trans resolved'))
        exact faulty
  · exact .message resolved

/-- A root that is not resolved has one fault and nothing below it. -/
theorem firstFault_of_unresolved {root : Root handles messages}
    {fault : CompileError} (failed : metadata.resolve root = .error fault) :
    FirstFault (metadata.RootFaultAt root) fault := by
  match root with
  | .message message flavor => simp [resolve] at failed
  | .handle none =>
    obtain rfl := Except.error.inj failed
    refine .of_only .handle fun place fault' faulty => ?_
    cases faulty with
    | handle => exact ⟨rfl, rfl⟩
    | message resolved => simp [resolve] at resolved
  | .handle (some handle) =>
    cases identified : (metadata.handle handle).identifier.decode with
    | error found =>
        simp only [resolve, identified, Except.error.injEq] at failed
        subst failed
        refine .of_only (.identifier identified) fun place fault' faulty => ?_
        cases faulty with
        | identifier undecodable =>
            have same := Except.error.inj (undecodable.symm.trans identified)
            exact ⟨rfl, same⟩
        | flavor identified' => simp [identified] at identified'
        | message resolved => simp [resolve, identified] at resolved
    | ok identifier =>
        cases known : Flavor.ofIdentifier? identifier with
        | some flavor => simp [resolve, identified, known] at failed
        | none =>
            have unresolved := failed
            rw [resolve_of_unknown identified known,
              resolveLookup_eq_error_iff] at unresolved
            obtain ⟨unanswered, rfl⟩ := unresolved
            have other := Flavor.ofIdentifier?_eq_none_iff.mp known
            refine .of_only (.flavor identified other unanswered)
              fun place fault' faulty => ?_
            cases faulty with
            | identifier undecodable => simp [identified] at undecodable
            | flavor identified' =>
                have same := Except.ok.inj (identified'.symm.trans identified)
                exact ⟨rfl, congrArg _ same⟩
            | message resolved => simp [failed] at resolved

theorem tellsFirst_metastringOf (message : Option (Fin messages)) :
    TellsFirst (metadata.MessageFaultAt flavor [] message)
      (metadata.metastringOf options flavor message) := by
  have told : TellsFirst (metadata.MessageFaultAt flavor [] message)
      (metadata.layoutOf message >>= walk options (metadata.describe flavor)
        metadata.names.length [] none) := by
    refine tellsFirst_message .nil none fun layout laidOut => ?_
    cases message with
    | none => simp [layoutOf] at laidOut
    | some message => exact names_suffice laidOut
  have appended := told.map (formatVersion ++ ·)
  unfold metastringOf metastring
  cases laidOut : metadata.layoutOf message with
  | error fault =>
      rw [laidOut] at appended
      exact appended
  | ok layout =>
      rw [laidOut] at appended
      exact appended

theorem tellsFirst_tryCompile (root : Root handles messages) :
    TellsFirst (metadata.RootFaultAt root)
      (metadata.tryCompile options root).outcome := by
  rw [tryCompile_outcome]
  cases resolved : metadata.resolve root with
  | error fault => exact .error (firstFault_of_unresolved resolved)
  | ok target =>
      obtain ⟨message, flavor⟩ := target
      exact (tellsFirst_metastringOf message).congr fun place fault =>
        (rootFaultAt_iff_of_resolved resolved place fault).symm

end Roots

/-- A compilation fails exactly if there is a fault at its root or anywhere in
the unfolding below it, and the failure is that of the first one. -/
theorem compile_tells_first_fault (metadata : Introspection handles messages)
    (options : Options) (root : Root handles messages) :
    ((∃ fault, (metadata.tryCompile options root).outcome = .error fault) ↔
        ∃ place fault, metadata.RootFaultAt root place fault) ∧
      ∀ fault, (metadata.tryCompile options root).outcome = .error fault ↔
        FirstFault (metadata.RootFaultAt root) fault := by
  have told : TellsFirst (metadata.RootFaultAt root)
      (metadata.tryCompile options root).outcome := tellsFirst_tryCompile root
  exact ⟨told.fails_iff, told.error_iff⟩

end Introspection

end Metastring
