import Metastring.Proofs.Composition
import Metastring.Proofs.FlavorEquivalence
import Metastring.Proofs.Outline

/-!
# The name that is compared and the name that is shown

A message type is compared with the open messages by its qualified name and is
shown under its mangled name.  Where bare names hold no colon, the last colon of
either name closes what comes from the scope, so both identify the same types:
two types agree in one name just if they agree in the other.

So a walk can be followed from the outside.  A type is refused as recursive just
where the name it would be shown under is the name of a message token that is
written and still open, and a metastring has no message token with the name of
one around it.
-/

namespace Metastring

section Separation

variable {α : Type} {mark : α}

/-- A part of a name is closed when it is empty or ends in the mark. -/
def Closed (mark : α) (letters : List α) : Prop :=
  ∀ last, letters.getLast? = some last → last = mark

theorem closed_append_mark (letters : List α) :
    Closed mark (letters ++ [mark]) := by
  intro last isLast
  simpa using isLast.symm

theorem eq_nil_of_closed_append {before middle after : List α}
    (closed : Closed mark (before ++ middle))
    (clean : mark ∉ middle ++ after) : middle = [] := by
  rcases List.eq_nil_or_concat middle with rfl | ⟨start, last, rfl⟩
  · rfl
  · have isMark : last = mark := by
      apply closed
      simp [← List.append_assoc]
    simp [isMark] at clean

/-- A closed part is told from what follows it, provided that the mark does not
come up there. -/
theorem append_inj_of_closed {before before' after after' : List α}
    (closed : Closed mark before) (closed' : Closed mark before')
    (clean : mark ∉ after) (clean' : mark ∉ after') :
    before ++ after = before' ++ after' ↔
      before = before' ∧ after = after' := by
  refine ⟨fun same => ?_, fun ⟨sameBefore, sameAfter⟩ => by
    rw [sameBefore, sameAfter]⟩
  rcases List.append_eq_append_iff.mp same with
    ⟨middle, rfl, rfl⟩ | ⟨middle, rfl, rfl⟩
  · obtain rfl := eq_nil_of_closed_append closed' clean
    simp
  · obtain rfl := eq_nil_of_closed_append closed clean'
    simp

end Separation

namespace ScopedName

/-- What comes from the scope at the start of both names of a type. -/
def qualifier (type : ScopedName) : String :=
  if type.scope = "" then "" else type.canonicalScope ++ "::"

theorem qualified_eq (type : ScopedName) :
    type.qualified = type.qualifier ++ type.name := by
  unfold qualified qualifier
  split
  · rw [String.empty_append]
  · rfl

theorem mangled_eq (type : ScopedName) :
    type.mangled = (type.qualifier ++ "dds_::") ++ (type.name ++ "_") := by
  rw [← String.append_assoc]
  rfl

theorem closed_qualifier (type : ScopedName) :
    Closed ':' type.qualifier.toList := by
  unfold qualifier
  split
  · intro last isLast
    simp at isLast
  · have ends : "::".toList = [':'] ++ [':'] := rfl
    rw [String.toList_append, ends, ← List.append_assoc]
    exact closed_append_mark _

theorem qualifier_inj (type type' : ScopedName) :
    type.qualifier = type'.qualifier ↔
      type.canonicalScope = type'.canonicalScope := by
  have nonempty (scope : String) : scope ++ "::" ≠ "" := by
    simp
  unfold qualifier
  split
  case isTrue isEmpty =>
    rw [(canonicalScope_eq_empty_iff type).mpr isEmpty]
    split
    case isTrue isEmpty' =>
      simp [(canonicalScope_eq_empty_iff type').mpr isEmpty']
    case isFalse inScope' =>
      have shown' := mt (canonicalScope_eq_empty_iff type').mp inScope'
      exact iff_of_false (nonempty _).symm (Ne.symm shown')
  case isFalse inScope =>
    split
    case isTrue isEmpty' =>
      rw [(canonicalScope_eq_empty_iff type').mpr isEmpty']
      have shown := mt (canonicalScope_eq_empty_iff type).mp inScope
      exact iff_of_false (nonempty _) shown
    case isFalse inScope' => exact String.append_left_inj "::"

section Names

/-- Names agree when their closed parts and what follows these do. -/
theorem append_eq_append_iff_of_closed {before before' after after' : String}
    (closed : Closed ':' before.toList) (closed' : Closed ':' before'.toList)
    (clean : ':' ∉ after.toList) (clean' : ':' ∉ after'.toList) :
    before ++ after = before' ++ after' ↔
      before = before' ∧ after = after' := by
  rw [← String.toList_inj, String.toList_append, String.toList_append,
    append_inj_of_closed closed closed' clean clean', String.toList_inj,
    String.toList_inj]

variable {type type' : ScopedName} (clean : ':' ∉ type.name.toList)
  (clean' : ':' ∉ type'.name.toList)
include clean clean'

theorem qualified_eq_iff :
    type.qualified = type'.qualified ↔
      type.canonicalScope = type'.canonicalScope ∧ type.name = type'.name := by
  rw [qualified_eq, qualified_eq, append_eq_append_iff_of_closed
    (closed_qualifier type) (closed_qualifier type') clean clean',
    qualifier_inj]

theorem mangled_eq_iff :
    type.mangled = type'.mangled ↔
      type.canonicalScope = type'.canonicalScope ∧ type.name = type'.name := by
  have closed (type : ScopedName) :
      Closed ':' (type.qualifier ++ "dds_::").toList := by
    have ends : "dds_::".toList = "dds_:".toList ++ [':'] := rfl
    rw [String.toList_append, ends, ← List.append_assoc]
    exact closed_append_mark _
  have unmarked {name : String} (clean : ':' ∉ name.toList) :
      ':' ∉ (name ++ "_").toList := by
    simpa using clean
  rw [mangled_eq, mangled_eq, append_eq_append_iff_of_closed (closed type)
    (closed type') (unmarked clean) (unmarked clean'), String.append_left_inj,
    String.append_left_inj, qualifier_inj]

theorem mangled_eq_iff_qualified_eq :
    type.mangled = type'.mangled ↔ type.qualified = type'.qualified := by
  rw [mangled_eq_iff clean clean', qualified_eq_iff clean clean']

end Names

end ScopedName

namespace Descriptor

/-- No bare name of a message in a descriptor holds a colon. -/
def ColonFree (descriptor : Descriptor) : Prop :=
  ∀ inner, descriptor.Contains inner → ':' ∉ inner.layout.type.name.toList

/-- One descriptor is nested in another, at some depth below it. -/
def Encloses (outer inner : Descriptor) : Prop :=
  ∃ member ∈ outer.layout.members, member.kind = .message ∧
    ∃ next, member.nested = some next ∧ next.Contains inner

theorem Contains.trans {outer middle inner : Descriptor}
    (contains : outer.Contains middle) (contains' : middle.Contains inner) :
    outer.Contains inner := by
  induction contains with
  | self => exact contains'
  | nested isMember isMessage refers _ ih =>
      exact .nested isMember isMessage refers (ih contains')

theorem Encloses.contains {outer inner : Descriptor}
    (encloses : outer.Encloses inner) : outer.Contains inner := by
  obtain ⟨member, isMember, isMessage, next, refers, contains⟩ := encloses
  exact .nested isMember isMessage refers contains

theorem Encloses.trans {outer middle inner : Descriptor}
    (encloses : outer.Encloses middle) (encloses' : middle.Encloses inner) :
    outer.Encloses inner := by
  obtain ⟨member, isMember, isMessage, next, refers, contains⟩ := encloses
  exact ⟨member, isMember, isMessage, next, refers,
    contains.trans encloses'.contains⟩

end Descriptor

section Tokens

variable {options : Options}

/-- An outline is shown inside another, at some depth. -/
inductive Outline.Inside : Outline → Outline → Prop
  | entry {mangled : String} {entries : List (OutlineEntry Outline)}
      {entry : OutlineEntry Outline} (isEntry : entry ∈ entries) :
      Inside entry.content (.message mangled entries)
  | deeper {inner : Outline} {mangled : String}
      {entries : List (OutlineEntry Outline)} {entry : OutlineEntry Outline}
      (isEntry : entry ∈ entries) (inside : Inside inner entry.content) :
      Inside inner (.message mangled entries)

theorem exists_member_of_entry {members : List (Member Kind Descriptor)}
    {entries : List (OutlineEntry Outline)}
    (shown : membersOutline? options members = some entries)
    {entry : OutlineEntry Outline} (isEntry : entry ∈ entries) :
    ∃ member ∈ members, memberOutline? options member = some entry := by
  induction members generalizing entries with
  | nil =>
      obtain rfl := Option.some.inj shown
      simp at isEntry
  | cons member members ih =>
      simp only [membersOutline?, Option.bind_eq_bind, Option.bind_eq_some_iff]
        at shown
      obtain ⟨first, shownFirst, others, shownOthers, same⟩ := shown
      obtain rfl := Option.some.inj same
      rcases List.mem_cons.mp isEntry with rfl | later
      · exact ⟨member, List.mem_cons_self, shownFirst⟩
      · obtain ⟨other, isMember, shownOther⟩ := ih shownOthers later
        exact ⟨other, List.mem_cons_of_mem member isMember, shownOther⟩

/-- What is shown as a message is a nested message. -/
theorem exists_nested_of_content {member : Member Kind Descriptor}
    {entry : OutlineEntry Outline}
    (shown : memberOutline? options member = some entry) :
    (∃ code, entry.content = .leaf code) ∨
      member.kind = .message ∧ ∃ next, member.nested = some next ∧
        next.outline? options = some entry.content := by
  obtain ⟨name, kind, shape, nested⟩ := member
  cases kind with
  | leaf leaf =>
      obtain rfl := Option.some.inj shown
      exact .inl ⟨leaf.code, rfl⟩
  | unknown id => simp [memberOutline?] at shown
  | message =>
      cases nested with
      | none => simp [memberOutline?] at shown
      | some next =>
          rw [memberOutline?, Option.map_eq_some_iff] at shown
          obtain ⟨outline, shownNext, rfl⟩ := shown
          exact .inr ⟨rfl, next, rfl, shownNext⟩

/-- What a descriptor shows of a member is a leaf or shows a message nested in
it. -/
theorem Descriptor.exists_enclosed_of_entry {descriptor : Descriptor}
    {mangled : String} {entries : List (OutlineEntry Outline)}
    (shown : descriptor.outline? options = some (.message mangled entries))
    {entry : OutlineEntry Outline} (isEntry : entry ∈ entries) :
    (∃ code, entry.content = .leaf code) ∨
      ∃ next, descriptor.Encloses next ∧
        next.outline? options = some entry.content := by
  obtain ⟨⟨type, members⟩⟩ := descriptor
  rw [Descriptor.outline?, Option.map_eq_some_iff] at shown
  obtain ⟨others, shownMembers, same⟩ := shown
  obtain ⟨rfl, rfl⟩ := Outline.message.inj same
  obtain ⟨member, isMember, shownMember⟩ :=
    exists_member_of_entry shownMembers isEntry
  refine (exists_nested_of_content shownMember).imp_right ?_
  rintro ⟨nests, next, refers, shownNext⟩
  exact ⟨next, ⟨member, isMember, nests, next, refers, .self⟩, shownNext⟩

/-- A message shown inside the outline of a descriptor is nested in it. -/
theorem exists_enclosed_of_inside {descriptor : Descriptor}
    {outer inner : Outline} (inside : inner.Inside outer)
    (shown : descriptor.outline? options = some outer) {mangled : String}
    {entries : List (OutlineEntry Outline)}
    (isMessage : inner = .message mangled entries) :
    ∃ nested, descriptor.Encloses nested ∧
      nested.outline? options = some inner := by
  induction inside generalizing descriptor with
  | entry isEntry =>
      rcases Descriptor.exists_enclosed_of_entry shown isEntry with
        ⟨code, isLeaf⟩ | enclosed
      · rw [isLeaf] at isMessage
        contradiction
      · exact enclosed
  | deeper isEntry inside ih =>
      rcases Descriptor.exists_enclosed_of_entry shown isEntry with
        ⟨code, isLeaf⟩ | ⟨next, encloses, shownNext⟩
      · rw [isLeaf] at inside
        cases inside
      · obtain ⟨nested, encloses', shownNested⟩ := ih shownNext isMessage
        exact ⟨nested, encloses.trans encloses', shownNested⟩

theorem Descriptor.mangled_of_outline {descriptor : Descriptor}
    {mangled : String} {entries : List (OutlineEntry Outline)}
    (shown : descriptor.outline? options = some (.message mangled entries)) :
    descriptor.layout.type.mangled = mangled := by
  obtain ⟨⟨type, members⟩⟩ := descriptor
  rw [Descriptor.outline?, Option.map_eq_some_iff] at shown
  obtain ⟨others, -, same⟩ := shown
  exact (Outline.message.inj same).1

/-- Where a walk succeeds, no message has the qualified name of one around
it. -/
theorem Descriptor.Contains.qualified_ne_of_walk
    {descriptor outer inner : Descriptor}
    (contains : descriptor.Contains outer) (encloses : outer.Encloses inner)
    {budget : Nat} {opened : List String} {label : Option String}
    {text : String}
    (succeeds : walk options Descriptor.describe budget opened label
      descriptor.layout = .ok text) :
    inner.layout.type.qualified ≠ outer.layout.type.qualified := by
  induction contains generalizing budget opened label text with
  | self =>
      obtain ⟨member, isMember, isMessage, next, refers, contains⟩ := encloses
      obtain ⟨_, text', -, walked⟩ :=
        Descriptor.walk_nested succeeds isMember isMessage refers
      have fresh := Descriptor.not_mem_of_walk_ok walked contains
      exact fun same => fresh (same ▸ List.mem_cons_self)
  | nested isMember isMessage refers _ ih =>
      obtain ⟨_, text', -, walked⟩ :=
        Descriptor.walk_nested succeeds isMember isMessage refers
      exact ih encloses walked

/-- No message is shown inside one that is shown under the same name. -/
def Outline.Unrepeated (outline : Outline) : Prop :=
  ∀ mangled entries, (outline = .message mangled entries ∨
      (Outline.message mangled entries).Inside outline) →
    ∀ mangled' entries', (Outline.message mangled' entries').Inside
      (.message mangled entries) → mangled' ≠ mangled

theorem Descriptor.unrepeated_of_compiled {descriptor : Descriptor}
    (colonFree : descriptor.ColonFree) {text : String} {outline : Outline}
    (compiled : (descriptor.tryCompile options).outcome = .ok text)
    (shown : descriptor.outline? options = some outline) :
    outline.Unrepeated := by
  rw [Descriptor.outcome_eq_walk (Nat.le_refl _)] at compiled
  cases walked : walk options Descriptor.describe descriptor.height [] none
      descriptor.layout with
  | error fault => simp [walked, Except.map] at compiled
  | ok body =>
      intro mangled entries isShown mangled' entries' inside
      obtain ⟨outer, contains, shownOuter⟩ : ∃ outer,
          descriptor.Contains outer ∧
            outer.outline? options = some (.message mangled entries) := by
        rcases isShown with rfl | inside
        · exact ⟨descriptor, .self, shown⟩
        · obtain ⟨outer, encloses, shownOuter⟩ :=
            exists_enclosed_of_inside inside shown rfl
          exact ⟨outer, encloses.contains, shownOuter⟩
      obtain ⟨inner, encloses, shownInner⟩ :=
        exists_enclosed_of_inside inside shownOuter rfl
      rw [← Descriptor.mangled_of_outline shownOuter,
        ← Descriptor.mangled_of_outline shownInner, Ne,
        ScopedName.mangled_eq_iff_qualified_eq
          (colonFree inner (contains.trans encloses.contains))
          (colonFree outer contains)]
      exact contains.qualified_ne_of_walk encloses walked

end Tokens

namespace WalkState

section Runs

variable {ρ : Type} {options : Options}
  {describe : ρ → Except CompileError (Layout Kind ρ)}

/-- A step refuses a message only where its walk begins. -/
theorem exists_entering_of_refused {state : WalkState ρ} {qualified : String}
    (running : ∀ outcome, state ≠ halted outcome)
    (refused : step options describe state =
      halted (.error (.recursiveType qualified)))
    (legitimate : ∀ reference, describe reference ≠
      .error (.recursiveType qualified)) :
    ∃ written enclosing label layout,
      state = entering written enclosing label layout ∧
        layout.type.qualified = qualified ∧
          layout.type.qualified ∈ openNames enclosing := by
  match state with
  | entering written enclosing label layout =>
    rw [step] at refused
    split at refused
    case isTrue isOpen =>
      have named : layout.type.qualified = qualified := by
        simpa using refused
      exact ⟨written, enclosing, label, layout, rfl, named, isOpen⟩
    case isFalse => contradiction
  | inside written [] => simp [step] at refused
  | inside written (⟨name, []⟩ :: enclosing) => simp [step] at refused
  | inside written (⟨name, member :: members⟩ :: enclosing) =>
    rw [step, visit] at refused
    cases isKind : member.kind with
    | leaf leaf => simp [isKind] at refused
    | unknown id => simp [isKind] at refused
    | message =>
        cases refers : member.nested with
        | none => simp [isKind, refers] at refused
        | some reference =>
            cases described : describe reference with
            | error fault =>
                have same : fault = .recursiveType qualified := by
                  simpa [isKind, refers, described] using refused
                exact absurd (same ▸ described) (legitimate reference)
            | ok inner => simp [isKind, refers, described] at refused
  | halted outcome => exact absurd rfl (running outcome)

/-- A run that ends has a last step. -/
theorem exists_last_step {state : WalkState ρ}
    {outcome : Except CompileError String}
    (running : ∀ outcome, state ≠ halted outcome)
    (ends : LeadsTo options describe state (halted outcome)) :
    ∃ last, LeadsTo options describe state last ∧
      (∀ outcome, last ≠ halted outcome) ∧
        step options describe last = halted outcome := by
  obtain ⟨steps, reaches⟩ := ends
  induction steps with
  | zero => exact absurd reaches (running outcome)
  | succ steps ih =>
      rw [Function.iterate_succ_apply'] at reaches
      cases before : (step options describe)^[steps] state with
      | halted outcome' =>
          rw [before] at reaches
          exact ih (before.trans reaches)
      | entering written enclosing label layout =>
          exact ⟨_, ⟨steps, before⟩, nofun, before ▸ reaches⟩
      | inside written enclosing =>
          exact ⟨_, ⟨steps, before⟩, nofun, before ▸ reaches⟩

theorem iterate_halted (outcome : Except CompileError String) (steps : Nat) :
    (step options describe)^[steps] (halted outcome) = halted outcome :=
  Function.iterate_fixed rfl steps

/-- A run ends in one way. -/
theorem halted_unique {state : WalkState ρ}
    {outcome outcome' : Except CompileError String}
    (ends : LeadsTo options describe state (halted outcome))
    (ends' : LeadsTo options describe state (halted outcome')) :
    outcome = outcome' := by
  obtain ⟨steps, reaches⟩ := ends
  obtain ⟨steps', reaches'⟩ := ends'
  have together : (step options describe)^[steps' + steps] state =
      (step options describe)^[steps + steps'] state :=
    congrArg (fun total => (step options describe)^[total] state)
      (Nat.add_comm steps' steps)
  rw [Function.iterate_add_apply, Function.iterate_add_apply, reaches,
    reaches', iterate_halted, iterate_halted] at together
  exact halted.inj together

end Runs

section Surroundings

variable {options : Options} {descriptor : Descriptor}

/-- The open messages of a walk of a descriptor, innermost first.  The token of
each is written, and behind it whatever its members have come to. -/
inductive Surrounds (descriptor : Descriptor) :
    String → List (OpenMessage Descriptor) → List Descriptor → Prop
  | outside (written : String) : Surrounds descriptor written [] []
  | within {written : String} {enclosing : List (OpenMessage Descriptor)}
      {around : List Descriptor} {outer : Descriptor}
      {members : List (Member Kind Descriptor)}
      (surrounds : Surrounds descriptor written enclosing around)
      (contains : descriptor.Contains outer)
      (encloses : ∀ further ∈ around, further.Encloses outer)
      (remaining : members ⊆ outer.layout.members)
      (label : Option String) (body : String) :
      Surrounds descriptor (written ++ outer.layout.token label ++ body)
        (⟨outer.layout.type.qualified, members⟩ :: enclosing) (outer :: around)

theorem Surrounds.append {written : String}
    {enclosing : List (OpenMessage Descriptor)} {around : List Descriptor}
    (surrounds : Surrounds descriptor written enclosing around)
    (more : String) :
    Surrounds descriptor (written ++ more) enclosing around := by
  cases surrounds with
  | outside => exact .outside _
  | within surrounds contains encloses remaining label body =>
      rw [String.append_assoc]
      exact .within surrounds contains encloses remaining label (body ++ more)

theorem Surrounds.openNames_eq {written : String}
    {enclosing : List (OpenMessage Descriptor)} {around : List Descriptor}
    (surrounds : Surrounds descriptor written enclosing around) :
    openNames enclosing =
      around.map (fun outer => outer.layout.type.qualified) := by
  induction surrounds with
  | outside => rfl
  | within _ _ _ _ _ _ ih => exact congrArg (_ :: ·) ih

/-- The tokens of all open messages are written. -/
theorem Surrounds.token_written {written : String}
    {enclosing : List (OpenMessage Descriptor)} {around : List Descriptor}
    (surrounds : Surrounds descriptor written enclosing around)
    {outer : Descriptor} (isAround : outer ∈ around) :
    descriptor.Contains outer ∧ ∃ before label after,
      written = before ++ outer.layout.token label ++ after := by
  induction surrounds with
  | outside => simp at isAround
  | @within written enclosing around next members _ contains _ _ label body ih =>
      rcases List.mem_cons.mp isAround with rfl | further
      · exact ⟨contains, written, label, body, rfl⟩
      · obtain ⟨isContained, before, label', after, rfl⟩ := ih further
        refine ⟨isContained, before, label',
          after ++ (next.layout.token label ++ body), ?_⟩
        simp only [String.append_assoc]

/-- In every state of the walk of a descriptor, the open messages are nested in
one another and so is the message whose walk begins. -/
def Situated (descriptor : Descriptor) : WalkState Descriptor → Prop
  | entering written enclosing _ layout => ∃ inner around,
    layout = inner.layout ∧ descriptor.Contains inner ∧
      Surrounds descriptor written enclosing around ∧
        ∀ outer ∈ around, outer.Encloses inner
  | inside written enclosing =>
    ∃ around, Surrounds descriptor written enclosing around
  | halted _ => True

theorem situated_visit {written : String} {member : Member Kind Descriptor}
    {enclosing : List (OpenMessage Descriptor)} {outer : Descriptor}
    {around : List Descriptor} (isMember : member ∈ outer.layout.members)
    (surrounds : Surrounds descriptor written enclosing (outer :: around)) :
    (visit options Descriptor.describe written member enclosing).Situated
      descriptor := by
  unfold visit
  cases isKind : member.kind with
  | leaf leaf => exact ⟨_, surrounds.append _⟩
  | unknown id => trivial
  | message =>
      cases refers : member.nested with
      | none => trivial
      | some inner =>
          have nests : outer.Encloses inner :=
            ⟨member, isMember, isKind, inner, refers, .self⟩
          cases surrounds with
          | within surrounds contains encloses remaining label body =>
              refine ⟨inner, outer :: around, rfl,
                contains.trans nests.contains, ?_, ?_⟩
              · exact (Surrounds.within surrounds contains encloses remaining
                  label body).append _
              · intro further isAround
                rcases List.mem_cons.mp isAround with rfl | isFurther
                · exact nests
                · exact (encloses further isFurther).trans nests

theorem situated_step {state : WalkState Descriptor}
    (situated : state.Situated descriptor) :
    (step options Descriptor.describe state).Situated descriptor := by
  match state with
  | entering written enclosing label layout =>
    obtain ⟨inner, around, rfl, contains, surrounds, encloses⟩ := situated
    rw [step]
    split
    case isTrue => trivial
    case isFalse =>
      have opened := Surrounds.within surrounds contains encloses
        (List.Subset.refl inner.layout.members) label ""
      rw [String.append_empty] at opened
      exact ⟨_, opened⟩
  | inside written [] => trivial
  | inside written (⟨qualified, []⟩ :: enclosing) =>
    obtain ⟨around, surrounds⟩ := situated
    cases surrounds with
    | within surrounds contains encloses remaining label body =>
        exact ⟨_, (surrounds.append _).append _⟩
  | inside written (⟨qualified, member :: members⟩ :: enclosing) =>
    obtain ⟨around, surrounds⟩ := situated
    cases surrounds with
    | within surrounds contains encloses remaining label body =>
        obtain ⟨isMember, remaining'⟩ := List.cons_subset.mp remaining
        exact situated_visit isMember
          (.within surrounds contains encloses remaining' label body)
  | halted outcome => trivial

theorem situated_of_leadsTo {state state' : WalkState Descriptor}
    (situated : state.Situated descriptor)
    (reaches : LeadsTo options Descriptor.describe state state') :
    state'.Situated descriptor := by
  obtain ⟨steps, rfl⟩ := reaches
  induction steps with
  | zero => exact situated
  | succ steps ih =>
      rw [Function.iterate_succ_apply']
      exact situated_step ih

end Surroundings

end WalkState

namespace Descriptor

variable {options : Options} {descriptor : Descriptor}

/-- The walk of a descriptor gets to a message nested in it.  It has written a
text by then, and the messages around, innermost first, are those whose walks
are open. -/
structure Meets (options : Options) (descriptor : Descriptor) (written : String)
    (around : List Descriptor) (inner : Descriptor) : Prop where
  reached : ∃ enclosing label,
    WalkState.LeadsTo options Descriptor.describe
      (.entering formatVersion [] none descriptor.layout)
      (.entering written enclosing label inner.layout) ∧
      openNames enclosing =
        around.map (fun outer => outer.layout.type.qualified)
  contained : descriptor.Contains inner
  enclosing : ∀ outer ∈ around,
    descriptor.Contains outer ∧ outer.Encloses inner
  shown : ∀ outer ∈ around, ∃ before label after,
    written = before ++ outer.layout.token label ++ after

theorem exists_meets {written : String}
    {enclosing : List (OpenMessage Descriptor)} {label : Option String}
    {layout : Layout Kind Descriptor}
    (reached : WalkState.LeadsTo options Descriptor.describe
      (.entering formatVersion [] none descriptor.layout)
      (.entering written enclosing label layout)) :
    ∃ around inner, layout = inner.layout ∧
      openNames enclosing =
        around.map (fun outer => outer.layout.type.qualified) ∧
      descriptor.Meets options written around inner := by
  have start : WalkState.Situated descriptor
      (.entering formatVersion [] none descriptor.layout) :=
    ⟨descriptor, [], rfl, .self, .outside _, fun _ isAround =>
      absurd isAround List.not_mem_nil⟩
  obtain ⟨inner, around, rfl, contains, surrounds, encloses⟩ :=
    WalkState.situated_of_leadsTo start reached
  refine ⟨around, inner, rfl, surrounds.openNames_eq, ⟨enclosing, label,
    reached, surrounds.openNames_eq⟩, contains, fun outer isAround => ?_,
    fun outer isAround => (surrounds.token_written isAround).2⟩
  exact ⟨(surrounds.token_written isAround).1, encloses outer isAround⟩

theorem leadsTo_outcome (options : Options) (descriptor : Descriptor) :
    WalkState.LeadsTo options Descriptor.describe
      (.entering formatVersion [] none descriptor.layout)
      (.halted (descriptor.tryCompile options).outcome) := by
  rw [tryCompile, Report.ofLayout_outcome]
  exact WalkState.leadsTo_metastring
    (Descriptor.budgetSuffices (Nat.le_refl descriptor.height))

/-- A message is refused as recursive where a message around it has its
qualified name. -/
theorem refused_iff (qualified : String) :
    (descriptor.tryCompile options).outcome =
        .error (.recursiveType qualified) ↔
      ∃ written around inner, descriptor.Meets options written around inner ∧
        inner.layout.type.qualified = qualified ∧
          ∃ outer ∈ around,
            inner.layout.type.qualified = outer.layout.type.qualified := by
  have ends := leadsTo_outcome options descriptor
  constructor
  · intro refused
    rw [refused] at ends
    obtain ⟨last, reached, running, isRefused⟩ :=
      WalkState.exists_last_step (by simp) ends
    obtain ⟨written, enclosing, label, layout, rfl, named, isOpen⟩ :=
      WalkState.exists_entering_of_refused running isRefused
        (fun reference => nofun)
    obtain ⟨around, inner, rfl, names, meets⟩ := exists_meets reached
    rw [names] at isOpen
    obtain ⟨outer, isAround, same⟩ := List.mem_map.mp isOpen
    exact ⟨written, around, inner, meets, named, outer, isAround, same.symm⟩
  · rintro ⟨written, around, inner, meets, rfl, outer, isAround, same⟩
    obtain ⟨enclosing, label, reached, names⟩ := meets.reached
    have isOpen : inner.layout.type.qualified ∈ openNames enclosing := by
      rw [names, same]
      exact List.mem_map_of_mem isAround
    refine WalkState.halted_unique ends (reached.trans ⟨1, ?_⟩)
    exact if_pos isOpen

theorem Meets.mangled_eq_iff {written : String} {around : List Descriptor}
    {inner outer : Descriptor}
    (meets : descriptor.Meets options written around inner)
    (colonFree : descriptor.ColonFree) (isAround : outer ∈ around) :
    inner.layout.type.mangled = outer.layout.type.mangled ↔
      inner.layout.type.qualified = outer.layout.type.qualified :=
  ScopedName.mangled_eq_iff_qualified_eq (colonFree inner meets.contained)
    (colonFree outer (meets.enclosing outer isAround).1)

end Descriptor

/-- The mangled and the qualified names of two types without a colon in their
bare names agree together, and they do where the bare names agree and the scopes
have the same `::` spelling, which only an empty scope shares with an empty one.

So compiling a descriptor with such names refuses a type as recursive just where
the mangled name of a message the walk gets to is in the token of a message
around it, which is written by then; and the tokens of a metastring are those of
an outline in which no message is shown inside one with the same mangled
name. -/
theorem qualified_and_mangled_names_identify_types :
    (∀ type type' : ScopedName, ':' ∉ type.name.toList →
      ':' ∉ type'.name.toList →
        (type.mangled = type'.mangled ↔ type.qualified = type'.qualified) ∧
        (type.qualified = type'.qualified ↔
          type.name = type'.name ∧
            type.canonicalScope = type'.canonicalScope) ∧
        (type.canonicalScope = type'.canonicalScope →
          (type.scope = "" ↔ type'.scope = ""))) ∧
    ∀ (descriptor : Descriptor) (options : Options), descriptor.ColonFree →
      (∀ qualified,
        (descriptor.tryCompile options).outcome =
            .error (.recursiveType qualified) ↔
          ∃ written around inner,
            descriptor.Meets options written around inner ∧
              inner.layout.type.qualified = qualified ∧
                ∃ outer ∈ around,
                  inner.layout.type.mangled = outer.layout.type.mangled) ∧
      ∀ text, (descriptor.tryCompile options).outcome = .ok text →
        ∃ outline, descriptor.outline? options = some outline ∧
          text.toList = formatVersion.toList ++ outline.spelling none ∧
            outline.Unrepeated := by
  refine ⟨fun type type' clean clean' => ⟨?_, ?_, fun same => ?_⟩,
    fun descriptor options colonFree => ⟨fun qualified => ?_,
      fun text compiled => ?_⟩⟩
  · exact ScopedName.mangled_eq_iff_qualified_eq clean clean'
  · rw [ScopedName.qualified_eq_iff clean clean', and_comm]
  · rw [← ScopedName.canonicalScope_eq_empty_iff, same,
      ScopedName.canonicalScope_eq_empty_iff]
  · rw [Descriptor.refused_iff]
    constructor
    · rintro ⟨written, around, inner, meets, named, outer, isAround, same⟩
      have shownAlike := (meets.mangled_eq_iff colonFree isAround).mpr same
      exact ⟨written, around, inner, meets, named, outer, isAround, shownAlike⟩
    · rintro ⟨written, around, inner, meets, named, outer, isAround, same⟩
      have namedAlike := (meets.mangled_eq_iff colonFree isAround).mp same
      exact ⟨written, around, inner, meets, named, outer, isAround, namedAlike⟩
  · obtain ⟨outline, shown, spelled⟩ :=
      Descriptor.exists_outline_of_compiled compiled
    exact ⟨outline, shown, spelled,
      Descriptor.unrepeated_of_compiled colonFree compiled shown⟩

section Example

def respelledInner : Descriptor :=
  .mk ⟨⟨"pkg__msg", "A"⟩, [⟨"x", .leaf .float, {}, none⟩]⟩

/-- A message around one with the same name, for which the scope is spelled in
the other way. -/
def respelledOuter : Descriptor :=
  .mk ⟨⟨"pkg::msg", "A"⟩, [⟨"inner", .message, {}, some respelledInner⟩]⟩

theorem respelledOuter_colonFree : respelledOuter.ColonFree := by
  intro nested contains
  cases contains with
  | self => decide
  | @nested _ next _ member isMember isMessage refers contains =>
      obtain rfl := List.mem_singleton.mp isMember
      obtain rfl : respelledInner = next := Option.some.inj refers
      cases contains with
      | self => decide
      | nested isMember isMessage _ _ =>
          obtain rfl := List.mem_singleton.mp isMember
          contradiction

theorem respelledOuter_refused :
    ∃ written around inner,
      respelledOuter.Meets {} written around inner ∧
        inner.layout.type.qualified = "pkg::msg::A" ∧
          ∃ outer ∈ around,
            inner.layout.type.mangled = outer.layout.type.mangled :=
  ((qualified_and_mangled_names_identify_types.2 respelledOuter {}
    respelledOuter_colonFree).1 "pkg::msg::A").mp rfl

end Example

end Metastring
