import Metastring.Proofs.LayoutReading
import Metastring.Proofs.RootResolution
import Metastring.Proofs.WalkBudget

/-!
# The graph of messages

Under one flavor, raw metadata is a finite graph of messages.  A message leads
to another through each of its declared members of kind message whose handle is
resolved to one.  The edges are read off the raw metadata, so they are there
whether or not the messages at their ends have a layout.

A message below which there is no cycle is accessible: its descendants can be
treated before it.
-/

namespace Metastring

theorem nodup_eraseDups {α : Type} [BEq α] [LawfulBEq α] (elements : List α) :
    elements.eraseDups.Nodup := by
  match elements with
  | [] => exact List.nodup_nil
  | element :: rest =>
    rw [List.eraseDups_cons, List.nodup_cons, List.mem_eraseDups,
      List.mem_filter]
    exact ⟨by simp, nodup_eraseDups _⟩
termination_by elements.length
decreasing_by exact Nat.lt_succ_of_le (List.length_filter_le _ _)

namespace Introspection

variable {handles messages : Nat} (metadata : Introspection handles messages)

section Names

/-- The names of metadata are those of its messages that have a layout. -/
theorem mem_names_iff (qualified : String) :
    qualified ∈ metadata.names ↔ ∃ message layout,
      (metadata.message message).layout = .ok layout ∧
        layout.type.qualified = qualified := by
  simp only [names, List.mem_eraseDups, List.mem_filterMap,
    List.mem_finRange, true_and]
  constructor
  · rintro ⟨message, named⟩
    cases laidOut : (metadata.message message).layout with
    | error fault => simp [laidOut, Except.toOption] at named
    | ok layout =>
        rw [laidOut] at named
        exact ⟨message, layout, laidOut, Option.some.inj named⟩
  · rintro ⟨message, layout, laidOut, rfl⟩
    exact ⟨message, by rw [laidOut]; rfl⟩

theorem names_nodup : metadata.names.Nodup :=
  nodup_eraseDups _

end Names

section Edges

variable (flavor : Flavor)

/-- The message that a handle leads to, if it is resolved to one. -/
def target (handle : Fin handles) : Option (Fin messages) :=
  (metadata.flavored flavor handle).toOption.bind
    fun resolved => (metadata.handle resolved).data

/-- A message declares a member of kind message whose handle leads to another
message. -/
def Leads (outer inner : Fin messages) : Prop :=
  ∃ raw ∈ (metadata.message outer).declared, Kind.ofId raw.typeId = .message ∧
    ∃ handle, raw.nested = some handle ∧
      metadata.target flavor handle = some inner

/-- A message is another or is nested in it at some depth. -/
def Reaches : Fin messages → Fin messages → Prop :=
  Relation.ReflTransGen (metadata.Leads flavor)

/-- No message that can be reached is nested in itself. -/
def Acyclic (root : Fin messages) : Prop :=
  ∀ message, metadata.Reaches flavor root message →
    ¬ Relation.TransGen (metadata.Leads flavor) message message

/-- Different messages that can be reached have different names. -/
def DistinctlyNamed (root : Fin messages) : Prop :=
  ∀ first second layout layout', metadata.Reaches flavor root first →
    metadata.Reaches flavor root second →
      (metadata.message first).layout = .ok layout →
        (metadata.message second).layout = .ok layout' →
          layout.type.qualified = layout'.type.qualified → first = second

end Edges

section Descriptions

variable {metadata} {flavor : Flavor}

theorem target_of_identifier {handle : Fin handles}
    (own : (metadata.handle handle).identifier.decode =
      .ok flavor.identifier) :
    metadata.target flavor handle = (metadata.handle handle).data := by
  rw [target, flavored_of_own own]
  rfl

theorem describe_of_target {handle : Fin handles} {message : Fin messages}
    (leads : metadata.target flavor handle = some message) :
    metadata.describe flavor handle = (metadata.message message).layout := by
  unfold target at leads
  unfold describe
  cases found : metadata.flavored flavor handle with
  | error fault => simp [found, Except.toOption] at leads
  | ok resolved =>
      have sameData : (metadata.handle resolved).data = some message := by
        simpa [found, Except.toOption] using leads
      simp only [bind, Except.bind, sameData]
      rfl

theorem exists_target_of_describe {handle : Fin handles}
    {layout : Layout Kind (Fin handles)}
    (described : metadata.describe flavor handle = .ok layout) :
    ∃ message, metadata.target flavor handle = some message ∧
      (metadata.message message).layout = .ok layout := by
  unfold describe at described
  cases found : metadata.flavored flavor handle with
  | error fault => simp [found, bind, Except.bind] at described
  | ok resolved =>
      have laidOut : metadata.layoutOf (metadata.handle resolved).data =
          .ok layout := by rwa [found] at described
      cases data : (metadata.handle resolved).data with
      | none => simp [data, layoutOf] at laidOut
      | some message =>
          rw [data] at laidOut
          refine ⟨message, ?_, laidOut⟩
          simp [target, found, data, Except.toOption]

theorem qualified_mem_names_of_describe (handle : Fin handles)
    (layout : Layout Kind (Fin handles))
    (described : metadata.describe flavor handle = .ok layout) :
    layout.type.qualified ∈ metadata.names := by
  obtain ⟨message, -, laidOut⟩ := exists_target_of_describe described
  exact (metadata.mem_names_iff _).mpr ⟨message, layout, laidOut, rfl⟩

theorem names_suffice {message : Fin messages}
    {layout : Layout Kind (Fin handles)}
    (laidOut : (metadata.message message).layout = .ok layout) :
    BudgetSuffices (metadata.describe flavor) metadata.names.length []
      layout := by
  refine budgetSuffices_of_names qualified_mem_names_of_describe
    List.nodup_nil (List.nil_subset _) ?_ (Nat.le_add_left _ _)
  exact (metadata.mem_names_iff _).mpr ⟨message, layout, laidOut, rfl⟩

theorem flavored_ne_recursive (qualified : String) (handle : Fin handles) :
    metadata.flavored flavor handle ≠ .error (.recursiveType qualified) := by
  refine bind_ne_error (RawText.decode_ne_recursive qualified _)
    fun identifier => ?_
  split
  case isTrue => exact nofun
  case isFalse => cases (metadata.handle handle).lookup flavor <;> exact nofun

theorem layoutOf_ne_recursive (qualified : String)
    (message : Option (Fin messages)) :
    metadata.layoutOf message ≠ .error (.recursiveType qualified) := by
  cases message with
  | none => exact nofun
  | some message => exact RawMessage.layout_ne_recursive qualified _

theorem describe_ne_recursive (qualified : String) (handle : Fin handles) :
    metadata.describe flavor handle ≠ .error (.recursiveType qualified) :=
  bind_ne_error (flavored_ne_recursive qualified handle)
    fun _ => layoutOf_ne_recursive qualified _

/-- Where a message has a layout, its edges are those of the layout. -/
theorem leads_iff_of_layout {outer : Fin messages}
    {layout : Layout Kind (Fin handles)}
    (laidOut : (metadata.message outer).layout = .ok layout)
    (inner : Fin messages) :
    metadata.Leads flavor outer inner ↔
      ∃ member ∈ layout.members, member.kind = .message ∧
        ∃ handle, member.nested = some handle ∧
          metadata.target flavor handle = some inner := by
  obtain ⟨-, -, -, reads⟩ := (RawMessage.layout_eq_ok_iff _ _).mp laidOut
  unfold Leads
  generalize (metadata.message outer).declared = raws at reads
  generalize layout.members = members at reads
  induction reads with
  | nil => simp
  | @cons raw member raws members readsFirst _ ih =>
      simp only [List.exists_mem_cons_iff, ih]
      refine or_congr_left ?_
      rw [readsFirst.kind_eq]
      refine and_congr_right fun isMessage => ?_
      rw [← readsFirst.nested_eq, if_pos isMessage]

end Descriptions

section Accessibility

variable {metadata} {flavor : Flavor}

/-- The descendants of a message below which there is no cycle can be treated
before it. -/
theorem Acyclic.acc {root : Fin messages}
    (acyclic : metadata.Acyclic flavor root) :
    Acc (fun inner outer => metadata.Leads flavor outer inner) root := by
  let below (inner outer : Fin messages) : Prop :=
    metadata.Reaches flavor root outer ∧
      Relation.TransGen (metadata.Leads flavor) outer inner
  have : IsTrans (Fin messages) below :=
    ⟨fun _ _ _ first second => ⟨second.1, second.2.trans first.2⟩⟩
  have : Std.Irrefl below := ⟨fun message self => acyclic message self.1 self.2⟩
  -- Only finitely many messages can follow one another without a cycle.
  have wellFounded := Finite.wellFounded_of_trans_of_irrefl below
  have accessible (message : Fin messages)
      (reached : metadata.Reaches flavor root message) :
      Acc (fun inner outer => metadata.Leads flavor outer inner) message := by
    induction message using wellFounded.induction with
    | _ message ih =>
        exact .intro message fun inner leads =>
          ih inner ⟨reached, .single leads⟩ (reached.tail leads)
  exact accessible root .refl

/-- An accessible message has no cycle below it. -/
theorem acyclic_of_acc {root : Fin messages}
    (accessible :
      Acc (fun inner outer => metadata.Leads flavor outer inner) root) :
    metadata.Acyclic flavor root := by
  intro message reached
  have below :
      Acc (fun inner outer => metadata.Leads flavor outer inner) message := by
    induction reached with
    | refl => exact accessible
    | tail _ leads ih => exact ih.inv leads
  have descends := below.transGen
  clear reached below
  induction descends with
  | intro message _ ih =>
      intro cycle
      exact ih message (Relation.transGen_swap.mpr cycle) cycle

end Accessibility

/-- A message that nests another one twice, and a handle that is resolved to
it. -/
def sharing : Introspection 3 2 where
  handle :=
    ![⟨none, none, fun | .c => some 1 | .cpp => none⟩,
      ⟨some (Utf8.encode Flavor.c.identifier), some 0, fun _ => none⟩,
      ⟨none, some 1, fun | .c => some 2 | .cpp => none⟩]
  message :=
    ![⟨some [0x61, 0x5F, 0x5F, 0x5F, 0x62], some [0x41], 2,
        some [⟨some [0x78], 18, some 2, {}, 0⟩,
          ⟨some [0x79], 18, some 2, {}, 0⟩]⟩,
      ⟨none, some [0x42], 1, some [⟨some [0x7A], 1, none, {}, 0⟩]⟩]

theorem sharing_nested {message : Fin 2} {raw : RawMember (Fin 3)}
    {handle : Fin 3} (declared : raw ∈ (sharing.message message).declared)
    (refers : raw.nested = some handle) : message = 0 ∧ handle = 2 := by
  fin_cases message
  · rcases List.mem_cons.mp declared with rfl | declared
    · exact ⟨rfl, (Option.some.inj refers).symm⟩
    · obtain rfl := List.mem_singleton.mp declared
      exact ⟨rfl, (Option.some.inj refers).symm⟩
  · obtain rfl := List.mem_singleton.mp declared
    contradiction

theorem sharing_target : sharing.target .c 2 = some 1 := by
  cbv

theorem sharing_leads {outer inner : Fin 2}
    (leads : sharing.Leads .c outer inner) : outer = 0 ∧ inner = 1 := by
  obtain ⟨raw, declared, -, handle, refers, leadsTo⟩ := leads
  obtain ⟨isOuter, rfl⟩ := sharing_nested declared refers
  exact ⟨isOuter, Option.some.inj (leadsTo.symm.trans sharing_target)⟩

theorem sharing_acyclic (start : Fin 2) : sharing.Acyclic .c start := by
  intro message _ cycle
  obtain ⟨first, leads, -⟩ := Relation.TransGen.head'_iff.mp cycle
  obtain ⟨last, -, leads'⟩ := Relation.TransGen.tail'_iff.mp cycle
  have isOuter := (sharing_leads leads).1
  have isInner := (sharing_leads leads').2
  exact absurd (isOuter.symm.trans isInner) (by decide)

end Introspection

end Metastring
