import Metastring.Proofs.LayoutAgreement
import Metastring.Proofs.MessageGraph

/-!
# Metadata that does not matter

A compilation reads only a part of the metadata it is given.  Under the flavor
of its walk it looks neither at the lookup of a handle that carries the
identifier of that flavor nor at what other handles return for the other flavor,
and not at the data of a handle that no lookup leads to.  Of the messages that
the walk gets to it reads what agreeing messages have in common, and of all
other messages nothing.

Metadata that agrees on what is read has the same outcome, be it a metastring
or a failure.  The root needs some care: one of another kind is asked for C
first, so all that its lookup returns is read.
-/

namespace Metastring

namespace Introspection

variable {handles messages : Nat}

section Reads

variable (options : Options) (metadata : Introspection handles messages)
  (flavor : Flavor)

/-- A handle is one whose data a compilation may read: it carries the identifier
of the flavor, or is returned for the flavor by a handle that does not. -/
def Provides (handle : Fin handles) : Prop :=
  metadata.Carries flavor handle ∨
    ∃ asked, ¬ metadata.Carries flavor asked ∧
      (metadata.handle asked).lookup flavor = some handle

/-- The walk of a message gets to another: to the message itself, or to one that
a handle it asks for leads to. -/
def Visits (start message : Fin messages) : Prop :=
  start = message ∨
    ∃ layout handle, (metadata.message start).layout = .ok layout ∧
      Asks options (metadata.describe flavor) [] layout handle ∧
        metadata.target flavor handle = some message

/-- Two metadata graphs agree on what a compilation of the root reads, given the
message and the flavor that the root leads to. -/
structure ReadsAlike (metadata' : Introspection handles messages)
    (root : Root handles messages) (start : Option (Fin messages)) : Prop where
  identifier_eq : ∀ handle, (metadata.handle handle).identifier.bytesRead =
    (metadata'.handle handle).identifier.bytesRead
  lookup_eq : ∀ handle, ¬ metadata.Carries flavor handle →
    (metadata.handle handle).lookup flavor =
      (metadata'.handle handle).lookup flavor
  data_eq : ∀ handle, metadata.Provides flavor handle →
    (metadata.handle handle).data = (metadata'.handle handle).data
  root_eq : ∀ handle, root = .handle (some handle) →
    (metadata.handle handle).lookup = (metadata'.handle handle).lookup
  message_agrees : ∀ first message, start = some first →
    metadata.Visits options flavor first message →
      (metadata.message message).Agrees Eq (metadata'.message message)

end Reads

section Agreement

variable {options : Options} {metadata metadata' : Introspection handles messages}
  {flavor : Flavor} {root : Root handles messages}
  {start : Option (Fin messages)}

theorem provides_of_flavored {handle resolved : Fin handles}
    (leads : metadata.flavored flavor handle = .ok resolved) :
    metadata.Provides flavor resolved := by
  by_cases carries : metadata.Carries flavor handle
  · rw [flavored_of_own carries] at leads
    exact .inl (Except.ok.inj leads ▸ carries)
  cases decoded : (metadata.handle handle).identifier.decode with
  | error fault => simp [flavored, decoded, bind, Except.bind] at leads
  | ok identifier =>
      have other : identifier ≠ flavor.identifier := by
        rintro rfl
        exact carries decoded
      rw [metadata.flavored_of_other decoded other] at leads
      cases found : (metadata.handle handle).lookup flavor with
      | none => simp [found] at leads
      | some provided =>
          rw [found] at leads
          exact .inr ⟨handle, carries, found.trans
            (congrArg some (Except.ok.inj leads))⟩

variable (alike :
  metadata.ReadsAlike options flavor metadata' root start)
include alike

theorem ReadsAlike.decode_eq (handle : Fin handles) :
    (metadata.handle handle).identifier.decode =
      (metadata'.handle handle).identifier.decode :=
  RawText.decode_eq_of_bytesRead (alike.identifier_eq handle)

theorem ReadsAlike.flavored_eq (handle : Fin handles) :
    metadata.flavored flavor handle = metadata'.flavored flavor handle := by
  by_cases carries : metadata.Carries flavor handle
  · have carries' : metadata'.Carries flavor handle :=
      (alike.decode_eq handle).symm.trans carries
    rw [flavored_of_own carries, flavored_of_own carries']
  · unfold flavored
    rw [alike.decode_eq, alike.lookup_eq handle carries]

theorem ReadsAlike.resolve_eq
    (resolved : metadata.resolve root = .ok (start, flavor)) :
    metadata'.resolve root = .ok (start, flavor) := by
  match root with
  | .message message known => exact resolved
  | .handle none => contradiction
  | .handle (some handle) =>
      have decodedAlike := alike.decode_eq handle
      cases decoded : (metadata.handle handle).identifier.decode with
      | error fault => simp [resolve, decoded] at resolved
      | ok identifier =>
          rw [decoded] at decodedAlike
          cases known : Flavor.ofIdentifier? identifier with
          | some own =>
              obtain rfl := Flavor.eq_identifier_of_ofIdentifier? known
              rw [resolve_of_own decoded] at resolved
              rw [resolve_of_own decodedAlike.symm]
              obtain ⟨rfl, rfl⟩ := Prod.mk.inj (Except.ok.inj resolved)
              rw [alike.data_eq handle (.inl decoded)]
          | none =>
              have differs := Flavor.ofIdentifier?_eq_none_iff.mp known
              have carriesNot : ¬ metadata.Carries flavor handle :=
                fun carries => differs flavor
                  (Except.ok.inj (decoded.symm.trans carries))
              rw [resolve_of_unknown decoded known, resolveLookup] at resolved
              rw [resolve_of_unknown decodedAlike.symm known, resolveLookup,
                ← alike.root_eq handle rfl]
              -- What the lookup returns for the flavor provides the data.
              split at resolved
              case h_1 found isFound =>
                obtain ⟨rfl, rfl⟩ := Prod.mk.inj (Except.ok.inj resolved)
                rw [alike.data_eq found (.inr ⟨handle, carriesNot, isFound⟩)]
              case h_2 missing =>
                split at resolved
                case h_1 found isFound =>
                  obtain ⟨rfl, rfl⟩ := Prod.mk.inj (Except.ok.inj resolved)
                  rw [alike.data_eq found (.inr ⟨handle, carriesNot, isFound⟩)]
                case h_2 => contradiction

/-- What the walk asks for is described alike. -/
theorem ReadsAlike.describe_alike {first : Fin messages}
    (isStart : start = some first) {layout : Layout Kind (Fin handles)}
    (laidOut : (metadata.message first).layout = .ok layout)
    {handle : Fin handles}
    (asks : Asks options (metadata.describe flavor) [] layout handle) :
    DescribedAlike Eq (metadata.describe flavor handle)
      (metadata'.describe flavor handle) := by
  unfold describe
  rw [← alike.flavored_eq handle]
  cases leads : metadata.flavored flavor handle with
  | error fault => exact .error fault
  | ok resolved =>
      simp only [bind, Except.bind]
      rw [← alike.data_eq resolved (provides_of_flavored leads)]
      cases data : (metadata.handle resolved).data with
      | none => exact .error .nullHandle
      | some message =>
          have target : metadata.target flavor handle = some message := by
            simp [target, leads, data, Except.toOption]
          have visits : metadata.Visits options flavor first message :=
            .inr ⟨layout, handle, laidOut, asks, target⟩
          exact (alike.message_agrees first message isStart visits).layout

theorem ReadsAlike.metastringOf_eq :
    metadata.metastringOf options flavor start =
      metadata'.metastringOf options flavor start := by
  cases isStart : start with
  | none => rfl
  | some first =>
      have described :=
        (alike.message_agrees first first isStart (.inl rfl)).layout
      simp only [metastringOf, layoutOf]
      generalize laidOut : (metadata.message first).layout = outcome
        at described ⊢
      generalize laidOut' : (metadata'.message first).layout = outcome'
        at described ⊢
      cases described with
      | error fault => rfl
      | ok layoutsAlike =>
          refine metastring_eq_of_asked options (names_suffice laidOut)
            (names_suffice laidOut') layoutsAlike ?_
          rintro handle _ asks rfl
          exact alike.describe_alike isStart laidOut asks

end Agreement

end Introspection

section Descriptors

mutual

/-- Two descriptors agree on what is read of them. -/
inductive Descriptor.Agrees : Descriptor → Descriptor → Prop
  | mk (type : ScopedName) {members members' : List (Member Kind Descriptor)}
      (membersAgree : MembersAgree members members') :
      Descriptor.Agrees (.mk ⟨type, members⟩) (.mk ⟨type, members'⟩)

/-- Members of descriptors agree one by one. -/
inductive MembersAgree :
    List (Member Kind Descriptor) → List (Member Kind Descriptor) → Prop
  | nil : MembersAgree [] []
  | cons {member member' : Member Kind Descriptor}
      {rest rest' : List (Member Kind Descriptor)}
      (first : MemberAgrees member member')
      (others : MembersAgree rest rest') :
      MembersAgree (member :: rest) (member' :: rest')

/-- Members of descriptors agree: they have the same name, the same kind and the
same container.  What they refer to is compared only beside the kind message. -/
inductive MemberAgrees :
    Member Kind Descriptor → Member Kind Descriptor → Prop
  | plain (name : String) {kind : Kind} (notMessage : kind ≠ .message)
      {shape shape' : Shape} (repeats : shape.container = shape'.container)
      (nested nested' : Option Descriptor) :
      MemberAgrees ⟨name, kind, shape, nested⟩ ⟨name, kind, shape', nested'⟩
  | missing (name : String) {shape shape' : Shape}
      (repeats : shape.container = shape'.container) :
      MemberAgrees ⟨name, .message, shape, none⟩ ⟨name, .message, shape', none⟩
  | nesting (name : String) {shape shape' : Shape}
      (repeats : shape.container = shape'.container)
      {nested nested' : Descriptor} (agree : nested.Agrees nested') :
      MemberAgrees ⟨name, .message, shape, some nested⟩
        ⟨name, .message, shape', some nested'⟩

end

theorem MemberAgrees.alike {member member' : Member Kind Descriptor}
    (agree : MemberAgrees member member') :
    Member.Alike Descriptor.Agrees member member' := by
  cases agree with
  | plain name notMessage repeats =>
      exact ⟨rfl, rfl, repeats, fun isMessage => absurd isMessage notMessage⟩
  | missing name repeats => exact ⟨rfl, rfl, repeats, fun _ => .none⟩
  | nesting name repeats agree =>
      exact ⟨rfl, rfl, repeats, fun _ => .some agree⟩

theorem MembersAgree.alike : {members members' : List (Member Kind Descriptor)} →
    MembersAgree members members' →
      List.Forall₂ (Member.Alike Descriptor.Agrees) members members'
  | _, _, .nil => .nil
  | _, _, .cons first others => .cons first.alike others.alike

theorem Descriptor.Agrees.layout_alike {descriptor descriptor' : Descriptor}
    (agree : descriptor.Agrees descriptor') :
    descriptor.layout.Alike Descriptor.Agrees descriptor'.layout := by
  cases agree with
  | mk type membersAgree => exact ⟨rfl, rfl, membersAgree.alike⟩

theorem Descriptor.Agrees.tryCompile_eq {descriptor descriptor' : Descriptor}
    (agree : descriptor.Agrees descriptor') (options : Options) :
    (descriptor.tryCompile options).outcome =
      (descriptor'.tryCompile options).outcome := by
  simp only [Descriptor.tryCompile, Report.ofLayout_outcome]
  exact metastring_eq_of_alike options
    (fun _ _ nestedAgree => .ok nestedAgree.layout_alike)
    (Descriptor.budgetSuffices le_rfl) (Descriptor.budgetSuffices le_rfl)
    agree.layout_alike

end Descriptors

/-- What a compilation does not read has no influence on its outcome.  Metadata
that agrees on what is read under the flavor of the walk has the same metastring,
or none for the same reason, and so have descriptors that agree. -/
theorem outcome_eq_of_reads_alike (options : Options) :
    (∀ {handles messages : Nat}
      (metadata metadata' : Introspection handles messages)
      (root : Introspection.Root handles messages)
      (start : Option (Fin messages)) (flavor : Flavor),
      metadata.resolve root = .ok (start, flavor) →
        metadata.ReadsAlike options flavor metadata' root start →
          (metadata.tryCompile options root).outcome =
            (metadata'.tryCompile options root).outcome) ∧
      ∀ descriptor descriptor' : Descriptor, descriptor.Agrees descriptor' →
        (descriptor.tryCompile options).outcome =
          (descriptor'.tryCompile options).outcome := by
  refine ⟨?_, fun _ _ agree => agree.tryCompile_eq options⟩
  intro handles messages metadata metadata' root start flavor resolved alike
  rw [metadata.tryCompile_outcome, metadata'.tryCompile_outcome, resolved,
    alike.resolve_eq resolved]
  exact alike.metastringOf_eq

def plainTree : Descriptor :=
  .mk ⟨⟨"", "A"⟩, [⟨"x", .leaf .float, {}, none⟩]⟩

/-- The same with what is not read of its member set to something else. -/
def litteredTree : Descriptor :=
  .mk ⟨⟨"", "A"⟩, [⟨"x", .leaf .float, ⟨false, 5, true⟩, some plainTree⟩]⟩

theorem plainTree_agrees : plainTree.Agrees litteredTree :=
  .mk _ (.cons (.plain "x" (by decide) (by rfl) _ _) .nil)

namespace Introspection

/-- The first place in a table of three handles or of three messages. -/
def firstPlace : Fin 3 := ⟨0, by decide⟩

def middlePlace : Fin 3 := ⟨1, by decide⟩

def lastPlace : Fin 3 := ⟨2, by decide⟩

/-- A message that nests another one, alone and in a sequence, and a third
message that nothing leads to. -/
def plainGraph : Introspection 3 3 where
  handle :=
    ![⟨none, none, fun | .c => some middlePlace | .cpp => none⟩,
      ⟨some (Utf8.encode Flavor.c.identifier), some firstPlace, fun _ => none⟩,
      ⟨none, some middlePlace, fun | .c => some lastPlace | .cpp => none⟩]
  message :=
    ![⟨none, some [0x41], 2,
        some [⟨some [0x78], 18, some lastPlace, {}, 0⟩,
          ⟨some [0x79], 18, some lastPlace, .sequence none, 0⟩]⟩,
      ⟨none, some [0x42], 1, some [⟨some [0x7A], 1, none, {}, 0⟩]⟩,
      ⟨none, some [0x43], 0, none⟩]

/-- The same with whatever is not read set to something else. -/
def litteredGraph : Introspection 3 3 where
  handle :=
    ![⟨some [], some lastPlace,
        fun | .c => some middlePlace | .cpp => none⟩,
      ⟨some (Utf8.encode Flavor.c.identifier ++ [0, 0xFF]), some firstPlace,
        fun | .c => some firstPlace | .cpp => some lastPlace⟩,
      ⟨some [0, 0xFF], some middlePlace,
        fun | .c => some lastPlace | .cpp => some firstPlace⟩]
  message :=
    ![⟨some [0], some [0x41, 0, 0x42], 2,
        some [⟨some [0x78, 0], 18, some lastPlace, ⟨false, 5, true⟩, 7⟩,
          ⟨some [0x79], 18, some lastPlace, ⟨true, 0, true⟩, 0⟩,
          ⟨none, 99, some firstPlace, {}, 0⟩]⟩,
      ⟨some [], some [0x42], 1,
        some [⟨some [0x7A], 1, some firstPlace, ⟨false, 0, true⟩, 9⟩]⟩,
      ⟨some [0xFF], none, 4, none⟩]

theorem plainGraph_carries : plainGraph.Carries .c 1 :=
  Flavor.decode_identifier .c

theorem plainGraph_target (handle : Fin 3) :
    plainGraph.target .c handle = some (if handle = 2 then 1 else 0) := by
  fin_cases handle
  · cbv
  · exact target_of_identifier plainGraph_carries
  · cbv

theorem plainGraph_provides {handle : Fin 3}
    (provides : plainGraph.Provides .c handle) : handle ≠ 0 := by
  rintro rfl
  rcases provides with carries | ⟨asked, -, found⟩
  · have decoded : (plainGraph.handle 0).identifier.decode = .ok "" := rfl
    exact absurd (Except.ok.inj (decoded.symm.trans carries)) (by decide)
  · revert found
    fin_cases asked <;> decide

theorem plainGraph_readsAlike : plainGraph.ReadsAlike {} .c litteredGraph
    (.handle (some 0)) (some 0) where
  identifier_eq handle := by fin_cases handle <;> cbv
  lookup_eq handle carriesNot := by
    fin_cases handle
    · rfl
    · exact absurd plainGraph_carries carriesNot
    · rfl
  data_eq handle provides := by
    have notRoot := plainGraph_provides provides
    fin_cases handle
    · contradiction
    · rfl
    · rfl
  root_eq := by rintro _ ⟨⟩; rfl
  message_agrees := by
    rintro _ message ⟨⟩ visits
    fin_cases message
    · refine ⟨rfl, rfl, rfl, fun _ => by decide, .cons ?_ (.cons ?_ .nil)⟩
      · exact ⟨by decide, rfl, rfl, fun _ => .some rfl, rfl, by simp, by simp⟩
      · exact ⟨by decide, rfl, rfl, fun _ => .some rfl, rfl, fun _ => rfl,
          fun _ nonzero => absurd rfl nonzero⟩
    · refine ⟨rfl, rfl, rfl, fun _ => by decide, .cons ?_ .nil⟩
      exact ⟨by decide, rfl, rfl, fun isMessage => absurd isMessage (by decide),
        rfl, by simp, by simp⟩
    · rcases visits with isStart | ⟨-, handle, -, -, leads⟩
      · contradiction
      · rw [plainGraph_target] at leads
        split at leads <;> contradiction

/-- Two graphs, and two trees, that differ in much of what is not read. -/
theorem outcome_eq_littered :
    plainGraph.ReadsAlike {} .c litteredGraph (.handle (some 0)) (some 0) ∧
      plainTree.Agrees litteredTree ∧
      ∃ graphText treeText,
        (plainGraph.tryCompile {} (.handle (some 0))).outcome = .ok graphText ∧
          (litteredGraph.tryCompile {} (.handle (some 0))).outcome =
            .ok graphText ∧
          (plainTree.tryCompile {}).outcome = .ok treeText ∧
          (litteredTree.tryCompile {}).outcome = .ok treeText := by
  have graphCompiled : (plainGraph.tryCompile {} (.handle (some 0))).outcome =
      .ok ("v1\x7b(type=dds_::A_,member=2)" ++
        "\x7b(name=x_,type=dds_::B_,member=1)f(name=z_)" ++
        "<(name=y_,maximum=128)\x7b(type=dds_::B_,member=1)f(name=z_)") := by
    set_option maxRecDepth 4000 in
    cbv
  have treeCompiled : (plainTree.tryCompile {}).outcome =
      .ok "v1\x7b(type=dds_::A_,member=1)f(name=x_)" := by
    cbv
  have resolved : plainGraph.resolve (.handle (some 0)) = .ok (some 0, .c) :=
    rfl
  have sameGraph := (outcome_eq_of_reads_alike {}).1 plainGraph litteredGraph
    _ _ _ resolved plainGraph_readsAlike
  have sameTree := (outcome_eq_of_reads_alike {}).2 _ _ plainTree_agrees
  exact ⟨plainGraph_readsAlike, plainTree_agrees, _, _, graphCompiled,
    sameGraph.symm.trans graphCompiled, treeCompiled,
    sameTree.symm.trans treeCompiled⟩

end Introspection

end Metastring
