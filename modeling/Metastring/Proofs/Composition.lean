import Metastring.Proofs.Outline
import Metastring.Proofs.WalkMachine

/-!
# Metastrings are made of those of their parts

What a walk makes of a descriptor depends on the messages around it only through
the question whether one of their names comes up again inside.  If none does,
the walk has the outcome it has by itself; if one does, it fails.  The label
above a message is shown in its first token and nowhere else.

So the metastring of a descriptor is its own token followed by one segment for
each member, and the segment of a member is made of nothing but the member: that
of a nested message is the message's own metastring, without the version mark
and with the label put in.  Run as a machine from any state, a walk that
succeeds leaves the open messages as they were.
-/

namespace Metastring

section Labels

/-- The field that shows a label in the first token of a message. -/
def labelField (label : Option String) : String :=
  (label.map fun name => nameField name ++ ",").getD ""

variable {ρ : Type}

theorem Layout.token_eq (layout : Layout Kind ρ) (label : Option String) :
    layout.token label = "\x7b(" ++ labelField label ++
      ("type=" ++ layout.type.mangled ++ ",member=" ++
        decimal layout.members.length ++ ")") := by
  simp only [token, labelField, String.append_assoc]

/-- The label is shown in the first token and nowhere else. -/
theorem exists_walk_eq_map (options : Options)
    (describe : ρ → Except CompileError (Layout Kind ρ)) (budget : Nat)
    (opened : List String) (layout : Layout Kind ρ) :
    ∃ body : Except CompileError String, ∀ label,
      walk options describe budget opened label layout =
        body.map (("\x7b(" ++ labelField label) ++ ·) := by
  by_cases isOpen : layout.type.qualified ∈ opened
  · refine ⟨.error (.recursiveType layout.type.qualified), fun label => ?_⟩
    rw [walk_of_opened options describe budget label isOpen]
    rfl
  cases budget with
  | zero => exact ⟨.error (.recursiveType layout.type.qualified), fun _ => rfl⟩
  | succ budget =>
      refine ⟨(layout.members.mapM (Member.segment options
        (walkReference options describe budget
          (layout.type.qualified :: opened)))).map fun segments =>
            "type=" ++ layout.type.mangled ++ ",member=" ++
              decimal layout.members.length ++ ")" ++ String.join segments,
        fun label => ?_⟩
      rw [walk_of_fresh options describe budget label isOpen]
      cases layout.members.mapM (Member.segment options
          (walkReference options describe budget
            (layout.type.qualified :: opened))) with
      | error fault => rfl
      | ok segments =>
          simp only [Except.map, layout.token_eq, String.append_assoc]

/-- A text that a walk makes under one label is made under any other, with
nothing but the label exchanged. -/
theorem exists_body_of_walk {options : Options}
    {describe : ρ → Except CompileError (Layout Kind ρ)} {budget : Nat}
    {opened : List String} {label : Option String} {layout : Layout Kind ρ}
    {text : String}
    (succeeds : walk options describe budget opened label layout = .ok text) :
    ∃ body, text = "\x7b(" ++ labelField label ++ body ∧ ∀ label',
      walk options describe budget opened label' layout =
        .ok ("\x7b(" ++ labelField label' ++ body) := by
  obtain ⟨outcome, under⟩ :=
    exists_walk_eq_map options describe budget opened layout
  rw [under] at succeeds
  cases outcome with
  | error fault => simp [Except.map] at succeeds
  | ok body => exact ⟨body, (Except.ok.inj succeeds).symm, under⟩

end Labels

section Surroundings

variable {options : Options}

/-- Open names matter only as far as they come up inside. -/
theorem Descriptor.walk_eq_of_agree {budget : Nat}
    {opened opened' : List String} (label : Option String)
    {descriptor : Descriptor}
    (agree : ∀ inner, descriptor.Contains inner →
      (inner.layout.type.qualified ∈ opened ↔
        inner.layout.type.qualified ∈ opened')) :
    walk options Descriptor.describe budget opened label descriptor.layout =
      walk options Descriptor.describe budget opened' label
        descriptor.layout := by
  -- The name that is opened is added on both sides, so inside they agree again.
  induction budget generalizing opened opened' label descriptor with
  | zero => rfl
  | succ budget ih =>
      by_cases isOpen : descriptor.layout.type.qualified ∈ opened
      · rw [walk_of_opened options _ _ label isOpen,
          walk_of_opened options _ _ label ((agree _ .self).mp isOpen)]
      have fresh' := mt (agree _ .self).mpr isOpen
      rw [walk_of_fresh options _ budget label isOpen,
        walk_of_fresh options _ budget label fresh']
      congr 1
      apply mapM_eq_of_forall₂
      refine List.forall₂_same.mpr fun member isMember => ?_
      refine Member.segment_congr options rfl rfl rfl fun isMessage => ?_
      cases refers : member.nested with
      | none => exact .none
      | some inner =>
          refine .some fun nestedLabel => ih nestedLabel
            fun deeper contains => ?_
          rw [List.mem_cons, List.mem_cons,
            agree deeper (.nested isMember isMessage refers contains)]

/-- Where the walk of a descriptor succeeds, so do the walks of those that are
nested in it. -/
theorem Descriptor.walk_nested {budget : Nat} {opened : List String}
    {label : Option String} {descriptor next : Descriptor} {text : String}
    (succeeds : walk options Descriptor.describe budget opened label
      descriptor.layout = .ok text)
    {member : Member Kind Descriptor}
    (isMember : member ∈ descriptor.layout.members)
    (isMessage : member.kind = .message) (refers : member.nested = some next) :
    ∃ budget' text', budget = budget' + 1 ∧
      walk options Descriptor.describe budget'
        (descriptor.layout.type.qualified :: opened) member.label
          next.layout = .ok text' := by
  cases budget with
  | zero => simp [walk] at succeeds
  | succ budget =>
      obtain ⟨reference, text', refers', walked⟩ :=
        exists_nested_of_walk succeeds isMember isMessage
      obtain rfl := Option.some.inj (refers.symm.trans refers')
      exact ⟨budget, text', rfl, walked⟩

/-- Where a walk succeeds, no open name comes up. -/
theorem Descriptor.not_mem_of_walk_ok {budget : Nat} {opened : List String}
    {label : Option String} {descriptor inner : Descriptor} {text : String}
    (succeeds : walk options Descriptor.describe budget opened label
      descriptor.layout = .ok text)
    (contains : descriptor.Contains inner) :
    inner.layout.type.qualified ∉ opened := by
  induction contains generalizing budget opened label text with
  | self =>
      intro isOpen
      rw [walk_of_opened options _ budget label isOpen] at succeeds
      contradiction
  | nested isMember isMessage refers _ ih =>
      obtain ⟨_, text', -, walked⟩ :=
        Descriptor.walk_nested succeeds isMember isMessage refers
      exact fun isOpen => ih walked (List.mem_cons_of_mem _ isOpen)

end Surroundings

section Members

/-- A member can be shown inside a message of the given name: it is a leaf, or
its nested message compiles by itself and the name does not come up inside. -/
inductive Member.Fits (options : Options) (qualified : String)
    (member : Member Kind Descriptor) : Prop
  | leaf {leaf : Leaf} (isLeaf : member.kind = .leaf leaf)
  | message {nested : Descriptor} {text : String}
      (isMessage : member.kind = .message)
      (refers : member.nested = some nested)
      (compiles : (nested.tryCompile options).outcome = .ok text)
      (apart : ∀ inner, nested.Contains inner →
        inner.layout.type.qualified ≠ qualified)

/-- What a member is shown as.  The metastring of a nested message is taken as
it is but for its beginning. -/
inductive Member.HasSegment (options : Options)
    (member : Member Kind Descriptor) : String → Prop
  | leaf {leaf : Leaf} (isLeaf : member.kind = .leaf leaf) :
      HasSegment options member
        (member.shape.container.token options member.name ++
          leaf.token member.label)
  | message {nested : Descriptor} {body : String}
      (isMessage : member.kind = .message)
      (refers : member.nested = some nested)
      (compiled :
        (nested.tryCompile options).outcome = .ok ("v1\x7b(" ++ body)) :
      HasSegment options member
        (member.shape.container.token options member.name ++
          ("\x7b(" ++ labelField member.label ++ body))

variable {options : Options}

theorem Descriptor.outcome_eq_walk {descriptor : Descriptor} {budget : Nat}
    (enough : descriptor.height ≤ budget) :
    (descriptor.tryCompile options).outcome =
      (walk options Descriptor.describe budget [] none descriptor.layout).map
        (formatVersion ++ ·) := by
  rw [← walk_budget_eq options none
    (Descriptor.budgetSuffices (Nat.le_refl _))
    (Descriptor.budgetSuffices enough)]
  exact Report.ofLayout_outcome _ _ _ _

theorem Descriptor.compiled_iff_walked {descriptor : Descriptor} {budget : Nat}
    (enough : descriptor.height ≤ budget) (label : Option String)
    (body : String) :
    (descriptor.tryCompile options).outcome = .ok ("v1\x7b(" ++ body) ↔
      walk options Descriptor.describe budget [] label descriptor.layout =
        .ok ("\x7b(" ++ labelField label ++ body) := by
  -- Both are made of one body, behind the version mark or behind the label.
  obtain ⟨outcome, under⟩ := exists_walk_eq_map options Descriptor.describe
    budget [] descriptor.layout
  rw [Descriptor.outcome_eq_walk enough, under, under]
  cases outcome with
  | error fault => simp [Except.map]
  | ok body' =>
      have begins : formatVersion ++ ("\x7b(" ++ labelField none ++ body') =
          "v1\x7b(" ++ body' := by
        rw [← String.append_assoc]
        rfl
      simp only [Except.map, Except.ok.injEq, begins, String.append_right_inj]

/-- A message that does not compile by itself fails alike under every label. -/
theorem Descriptor.walk_eq_error_of_failed {descriptor : Descriptor}
    {fault : CompileError}
    (failed : (descriptor.tryCompile options).outcome = .error fault)
    (label : Option String) :
    walk options Descriptor.describe descriptor.height [] label
      descriptor.layout = .error fault := by
  obtain ⟨outcome, under⟩ := exists_walk_eq_map options Descriptor.describe
    descriptor.height [] descriptor.layout
  rw [Descriptor.outcome_eq_walk (Nat.le_refl _), under] at failed
  rw [under]
  cases outcome with
  | error fault' => exact failed
  | ok body => simp [Except.map] at failed

theorem Descriptor.exists_body_of_compiled {descriptor : Descriptor}
    {text : String}
    (compiles : (descriptor.tryCompile options).outcome = .ok text) :
    ∃ body, (descriptor.tryCompile options).outcome =
      .ok ("v1\x7b(" ++ body) := by
  rw [Descriptor.outcome_eq_walk (Nat.le_refl _)] at compiles
  cases walked : walk options Descriptor.describe descriptor.height [] none
      descriptor.layout with
  | error fault => simp [walked, Except.map] at compiles
  | ok text' =>
      obtain ⟨body, -, under⟩ := exists_body_of_walk walked
      exact ⟨body, (Descriptor.compiled_iff_walked (Nat.le_refl _) none
        body).mpr (under none)⟩

theorem Member.Fits.exists_segment {qualified : String}
    {member : Member Kind Descriptor} (fits : member.Fits options qualified) :
    ∃ segment, member.HasSegment options segment := by
  cases fits with
  | leaf isLeaf => exact ⟨_, .leaf isLeaf⟩
  | message isMessage refers compiles _ =>
      obtain ⟨body, compiled⟩ := Descriptor.exists_body_of_compiled compiles
      exact ⟨_, .message isMessage refers compiled⟩

theorem Member.HasSegment.unique {member : Member Kind Descriptor}
    {segment segment' : String} (shown : member.HasSegment options segment)
    (shown' : member.HasSegment options segment') : segment = segment' := by
  cases shown with
  | leaf isLeaf =>
      cases shown' with
      | leaf isLeaf' =>
          obtain rfl := Kind.leaf.inj (isLeaf.symm.trans isLeaf')
          rfl
      | message isMessage => simp [isLeaf] at isMessage
  | message isMessage refers compiled =>
      cases shown' with
      | leaf isLeaf => simp [isMessage] at isLeaf
      | message _ refers' compiled' =>
          obtain rfl := Option.some.inj (refers.symm.trans refers')
          have same := Except.ok.inj (compiled.symm.trans compiled')
          rw [String.append_right_inj] at same
          rw [same]

/-- Directly inside a message of the given name, a member that fits has its
segment, and no other member has one. -/
theorem Member.segment_eq_ok_iff_fits {budget : Nat} {qualified : String}
    {member : Member Kind Descriptor} (enough : memberHeight member ≤ budget)
    (segment : String) :
    member.segment options (walkReference options Descriptor.describe budget
        [qualified]) = .ok segment ↔
      member.Fits options qualified ∧ member.HasSegment options segment := by
  have nestedEnough (nested : Descriptor)
      (refers : member.nested = some nested) : nested.height ≤ budget := by
    obtain ⟨name, kind, shape, reference⟩ := member
    obtain rfl : reference = some nested := refers
    exact enough
  have alone (nested : Descriptor) (apart : ∀ inner, nested.Contains inner →
        inner.layout.type.qualified ≠ qualified) :
      walk options Descriptor.describe budget [qualified] member.label
          nested.layout =
        walk options Descriptor.describe budget [] member.label
          nested.layout :=
    Descriptor.walk_eq_of_agree member.label fun inner contains => by
      simp [apart inner contains]
  -- A success shows that the name does not come up, and where it does not, the
  -- nested walk is the one by itself.
  rw [Member.segment_eq_ok_iff]
  constructor
  · rintro (⟨leaf, isLeaf, rfl⟩ | ⟨isMessage, nested, refers, text, walked,
      rfl⟩)
    · exact ⟨.leaf isLeaf, .leaf isLeaf⟩
    · have apart (inner : Descriptor) (contains : nested.Contains inner) :
          inner.layout.type.qualified ≠ qualified := by
        have unopened := Descriptor.not_mem_of_walk_ok walked contains
        simpa using unopened
      have walkedAlone := (alone nested apart).symm.trans walked
      obtain ⟨body, rfl, -⟩ := exists_body_of_walk walkedAlone
      have compiled := (Descriptor.compiled_iff_walked
        (nestedEnough nested refers) member.label body).mpr walkedAlone
      exact ⟨.message isMessage refers compiled apart,
        .message isMessage refers compiled⟩
  · rintro ⟨fits, shown⟩
    cases shown with
    | leaf isLeaf => exact .inl ⟨_, isLeaf, rfl⟩
    | @message nested body isMessage refers compiled =>
        refine .inr ⟨isMessage, nested, refers, _, ?_, rfl⟩
        cases fits with
        | leaf isLeaf => simp [isMessage] at isLeaf
        | message _ refers' _ apart =>
            obtain rfl := Option.some.inj (refers.symm.trans refers')
            exact (alone nested apart).trans ((Descriptor.compiled_iff_walked
              (nestedEnough nested refers) member.label body).mp compiled)

theorem forall₂_segments_iff {members : List (Member Kind Descriptor)}
    {qualified : String} {segments : List String} :
    List.Forall₂ (fun member segment =>
        member.segment options (walkReference options Descriptor.describe
          (membersHeight members) [qualified]) = .ok segment)
        members segments ↔
      (∀ member ∈ members, member.Fits options qualified) ∧
        List.Forall₂ (Member.HasSegment options) members segments := by
  rw [← List.forall₂_and_left]
  have inside {related : Member Kind Descriptor → String → Prop}
      (pairs : List.Forall₂ related members segments) :
      List.Forall₂ (fun member segment =>
        memberHeight member ≤ membersHeight members ∧ related member segment)
        members segments :=
    (List.forall₂_and_left _ _).mpr
      ⟨fun member => memberHeight_le_membersHeight, pairs⟩
  constructor
  · intro visited
    exact (inside visited).imp fun member segment ⟨enough, walked⟩ =>
      (Member.segment_eq_ok_iff_fits enough segment).mp walked
  · intro fits
    exact (inside fits).imp fun member segment ⟨enough, shown⟩ =>
      (Member.segment_eq_ok_iff_fits enough segment).mpr shown

/-- A descriptor compiles when its members fit, and to what. -/
theorem Descriptor.compiled_iff_members (descriptor : Descriptor)
    (text : String) :
    (descriptor.tryCompile options).outcome = .ok text ↔
      (∀ member ∈ descriptor.layout.members,
          member.Fits options descriptor.layout.type.qualified) ∧
        ∃ segments,
          List.Forall₂ (Member.HasSegment options) descriptor.layout.members
              segments ∧
            text = "v1\x7b(type=" ++ descriptor.layout.type.mangled ++
              ",member=" ++ decimal descriptor.layout.members.length ++ ")" ++
                String.join segments := by
  obtain ⟨⟨type, members⟩⟩ := descriptor
  have begins (segments : List String) :
      formatVersion ++ ((Layout.mk type members).token none ++
          String.join segments) =
        "v1\x7b(type=" ++ type.mangled ++ ",member=" ++
          decimal members.length ++ ")" ++ String.join segments := by
    have version : formatVersion ++ ("\x7b(" ++ (labelField none ++ "type=")) =
        "v1\x7b(type=" := rfl
    rw [Layout.token_eq, ← version]
    simp only [String.append_assoc]
  rw [Descriptor.outcome_eq_walk (Nat.le_refl _), Descriptor.height,
    walk_of_fresh options _ _ none List.not_mem_nil]
  dsimp only [Descriptor.layout]
  constructor
  · intro compiled
    cases visited : members.mapM (Member.segment options (walkReference options
        Descriptor.describe (membersHeight members) [type.qualified])) with
    | error fault => simp [visited, Except.map] at compiled
    | ok segments =>
        obtain ⟨fits, shown⟩ :=
          forall₂_segments_iff.mp ((mapM_eq_ok_iff _ _ _).mp visited)
        refine ⟨fits, segments, shown, ?_⟩
        rw [visited] at compiled
        exact (Except.ok.inj compiled).symm.trans (begins segments)
  · rintro ⟨fits, segments, shown, rfl⟩
    have visited := (mapM_eq_ok_iff _ _ _).mpr
      (forall₂_segments_iff.mpr ⟨fits, shown⟩)
    rw [visited, ← begins segments]
    rfl

end Members

section Runs

/-- Where the walk of a descriptor leads when it begins behind a text and inside
open messages. -/
def Descriptor.RunsTo (options : Options) (descriptor : Descriptor)
    (written : String) (enclosing : List (OpenMessage Descriptor))
    (label : Option String) (state : WalkState Descriptor) : Prop :=
  WalkState.LeadsTo options Descriptor.describe
    (.entering written enclosing label descriptor.layout) state

theorem Descriptor.runsTo_resume (options : Options) (descriptor : Descriptor)
    (written : String) (enclosing : List (OpenMessage Descriptor))
    (label : Option String) :
    descriptor.RunsTo options written enclosing label
      (.resume written enclosing
        (walk options Descriptor.describe descriptor.height
          (openNames enclosing) label descriptor.layout)) :=
  WalkState.leadsTo_walk (Descriptor.budgetSuffices (Nat.le_refl _)) written
    label

variable {options : Options} {descriptor : Descriptor}
  {enclosing : List (OpenMessage Descriptor)}

section Apart

variable (apart : ∀ inner, descriptor.Contains inner →
  inner.layout.type.qualified ∉ openNames enclosing)
include apart

theorem Descriptor.walk_eq_alone (label : Option String) :
    walk options Descriptor.describe descriptor.height (openNames enclosing)
        label descriptor.layout =
      walk options Descriptor.describe descriptor.height [] label
        descriptor.layout :=
  Descriptor.walk_eq_of_agree label fun inner contains => by
    simp [apart inner contains]

theorem Descriptor.runsTo_of_compiled {body : String}
    (compiled :
      (descriptor.tryCompile options).outcome = .ok ("v1\x7b(" ++ body))
    (written : String) (label : Option String) :
    descriptor.RunsTo options written enclosing label
      (.inside (written ++ ("\x7b(" ++ labelField label ++ body))
        enclosing) := by
  have run := descriptor.runsTo_resume options written enclosing label
  rw [descriptor.walk_eq_alone apart, (Descriptor.compiled_iff_walked
    (Nat.le_refl _) label body).mp compiled] at run
  exact run

theorem Descriptor.runsTo_of_failed {fault : CompileError}
    (failed : (descriptor.tryCompile options).outcome = .error fault)
    (written : String) (label : Option String) :
    descriptor.RunsTo options written enclosing label
      (.halted (.error fault)) := by
  have run := descriptor.runsTo_resume options written enclosing label
  rw [descriptor.walk_eq_alone apart,
    Descriptor.walk_eq_error_of_failed failed label] at run
  exact run

end Apart

/-- Where an open name comes up, the walk fails. -/
theorem Descriptor.exists_runsTo_failure {inner : Descriptor}
    (contains : descriptor.Contains inner)
    (isOpen : inner.layout.type.qualified ∈ openNames enclosing)
    (written : String) (label : Option String) :
    ∃ fault, descriptor.RunsTo options written enclosing label
      (.halted (.error fault)) := by
  have run := descriptor.runsTo_resume options written enclosing label
  cases walked : walk options Descriptor.describe descriptor.height
      (openNames enclosing) label descriptor.layout with
  | error fault =>
      rw [walked] at run
      exact ⟨fault, run⟩
  | ok text =>
      exact absurd isOpen (Descriptor.not_mem_of_walk_ok walked contains)

end Runs

/-- A compilation is made of those of its parts.  A descriptor compiles exactly
if each of its members is a leaf or nests a message that compiles by itself and
does not hold the descriptor's own name.  The metastring is then the token of
the descriptor and the segments of its members, and each segment is told from
its member alone.  Run behind any text and inside any open messages whose names
do not come up, the walk appends the same text, but for the label, and leaves
the open messages as they were, or it halts with the same failure; if one of
their names comes up, it fails. -/
theorem compile_compositional (descriptor : Descriptor) (options : Options) :
    ((∃ text, (descriptor.tryCompile options).outcome = .ok text) ↔
        ∀ member ∈ descriptor.layout.members,
          member.Fits options descriptor.layout.type.qualified) ∧
      (∀ text, (descriptor.tryCompile options).outcome = .ok text →
        ∃ segments,
          List.Forall₂ (Member.HasSegment options) descriptor.layout.members
              segments ∧
            text = "v1\x7b(type=" ++ descriptor.layout.type.mangled ++
              ",member=" ++ decimal descriptor.layout.members.length ++ ")" ++
                String.join segments) ∧
      (∀ (member : Member Kind Descriptor) segment segment',
        member.HasSegment options segment →
          member.HasSegment options segment' → segment = segment') ∧
      ∀ written enclosing label,
        ((∀ inner, descriptor.Contains inner →
            inner.layout.type.qualified ∉ openNames enclosing) →
          (∀ body,
            (descriptor.tryCompile options).outcome =
                .ok ("v1\x7b(" ++ body) →
              descriptor.RunsTo options written enclosing label
                (.inside (written ++ ("\x7b(" ++ labelField label ++ body))
                  enclosing)) ∧
          ∀ fault,
            (descriptor.tryCompile options).outcome = .error fault →
              descriptor.RunsTo options written enclosing label
                (.halted (.error fault))) ∧
        ((∃ inner, descriptor.Contains inner ∧
            inner.layout.type.qualified ∈ openNames enclosing) →
          ∃ fault, descriptor.RunsTo options written enclosing label
            (.halted (.error fault))) := by
  refine ⟨⟨?_, ?_⟩, ?_, ?_, ?_⟩
  · rintro ⟨text, compiled⟩
    exact ((descriptor.compiled_iff_members text).mp compiled).1
  · intro fits
    obtain ⟨segments, shown⟩ := exists_forall₂_of_forall_exists
      fun member isMember => (fits member isMember).exists_segment
    exact ⟨_, (descriptor.compiled_iff_members _).mpr
      ⟨fits, segments, shown, rfl⟩⟩
  · intro text compiled
    exact ((descriptor.compiled_iff_members text).mp compiled).2
  · intro member segment segment' shown shown'
    exact shown.unique shown'
  · intro written enclosing label
    refine ⟨fun apart => ⟨fun body compiled => ?_, fun fault failed => ?_⟩, ?_⟩
    · exact descriptor.runsTo_of_compiled apart compiled written label
    · exact descriptor.runsTo_of_failed apart failed written label
    · rintro ⟨inner, contains, isOpen⟩
      exact descriptor.exists_runsTo_failure contains isOpen written label

end Metastring
