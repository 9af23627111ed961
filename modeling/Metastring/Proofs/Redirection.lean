import Metastring.Proofs.LayoutAgreement
import Metastring.Proofs.MessageGraph

/-!
# Handles that lead to other handles

A handle of another kind than the introspection flavors stands for what its
lookup returns.  In metadata where references to handles of a flavor are
redirected to such handles, under that flavor every message compiles as before:
what else the new handles say, their data included, is not looked at.

The root of a compilation can be redirected too.  A root is asked for C first,
so for C++ its lookup must not know C.
-/

namespace Metastring

section Raw

variable {η η' : Type}

/-- Two raw members are alike: they say the same, and their handles
correspond. -/
structure RawMember.Alike (related : η → η' → Prop) (member : RawMember η)
    (member' : RawMember η') : Prop where
  name_eq : member.name = member'.name
  typeId_eq : member.typeId = member'.typeId
  shape_eq : member.shape = member'.shape
  nested_rel : Option.Rel related member.nested member'.nested

/-- Two raw messages are alike: they say the same, and the entries of their
tables are alike one by one. -/
structure RawMessage.Alike (related : η → η' → Prop) (message : RawMessage η)
    (message' : RawMessage η') : Prop where
  scope_eq : message.scope = message'.scope
  name_eq : message.name = message'.name
  count_eq : message.count = message'.count
  table_rel : Option.Rel (List.Forall₂ (RawMember.Alike related)) message.table
    message'.table

end Raw

namespace Introspection

variable {handles handles' messages messages' : Nat}

/-- A handle of another kind leads to the given one: its identifier is a text,
but that of no flavor, and its lookup returns the given handle. -/
structure Dispatches (metadata : Introspection handles messages)
    (flavor : Flavor) (front target : Fin handles) : Prop where
  other : ∃ identifier,
    (metadata.handle front).identifier.decode = .ok identifier ∧
      Flavor.ofIdentifier? identifier = none
  lookup : (metadata.handle front).lookup flavor = some target

/-- A handle stands for an original one: it is the copy of the original or, if
the original carries the identifier of the flavor, a handle of another kind that
leads to the copy. -/
inductive StandsFor (flavor : Flavor)
    (original : Introspection handles messages)
    (redirected : Introspection handles' messages')
    (copy : Fin handles → Fin handles') : Fin handles → Fin handles' → Prop
  | copy (handle : Fin handles) :
      StandsFor flavor original redirected copy handle (copy handle)
  | front {handle : Fin handles} {front : Fin handles'}
      (carries : original.Carries flavor handle)
      (dispatches : redirected.Dispatches flavor front (copy handle)) :
      StandsFor flavor original redirected copy handle front

/-- A copy of metadata in which any references of members may be redirected to
handles of another kind.  There may be further handles and messages beside the
copies. -/
structure Redirection (flavor : Flavor)
    (original : Introspection handles messages)
    (redirected : Introspection handles' messages') where
  handleCopy : Fin handles → Fin handles'
  messageCopy : Fin messages → Fin messages'
  identifier_eq : ∀ handle, (redirected.handle (handleCopy handle)).identifier =
    (original.handle handle).identifier
  data_eq : ∀ handle, (redirected.handle (handleCopy handle)).data =
    (original.handle handle).data.map messageCopy
  lookup_eq : ∀ handle wanted,
    (redirected.handle (handleCopy handle)).lookup wanted =
      ((original.handle handle).lookup wanted).map handleCopy
  message_alike : ∀ message, (original.message message).Alike
    (StandsFor flavor original redirected handleCopy)
    (redirected.message (messageCopy message))

end Introspection

section Layouts

variable {η η' : Type} {related : η → η' → Prop}

theorem RawMember.Alike.agrees {raw : RawMember η} {raw' : RawMember η'}
    (alike : raw.Alike related raw') : raw.Agrees related raw' where
  named := by rw [alike.name_eq]
  name_eq := by rw [alike.name_eq]
  typeId_eq := alike.typeId_eq
  nested_rel _ := alike.nested_rel
  shape_agrees := alike.shape_eq ▸ .refl raw.shape

theorem RawMessage.Alike.agrees {message : RawMessage η}
    {message' : RawMessage η'} (alike : message.Alike related message') :
    message.Agrees related message' := by
  have tableRel := alike.table_rel
  refine ⟨by rw [alike.scope_eq], by rw [alike.name_eq], alike.count_eq,
    fun _ => ?_, ?_⟩
  · generalize message.table = table at tableRel ⊢
    generalize message'.table = table' at tableRel ⊢
    cases tableRel <;> simp
  · unfold RawMessage.declared
    rw [← alike.count_eq]
    generalize message.table = table at tableRel ⊢
    generalize message'.table = table' at tableRel ⊢
    cases tableRel with
    | none => exact List.forall₂_take message.count .nil
    | some entries =>
        exact (List.forall₂_take message.count entries).imp fun _ _ =>
          RawMember.Alike.agrees

end Layouts

namespace Introspection

variable {handles handles' messages messages' : Nat}

section Resolution

variable {metadata : Introspection handles messages} {flavor : Flavor}

theorem Dispatches.flavored_eq {front target : Fin handles}
    (dispatches : metadata.Dispatches flavor front target) :
    metadata.flavored flavor front = .ok target := by
  obtain ⟨⟨identifier, decoded, unknown⟩, found⟩ := dispatches
  have differs := Flavor.ofIdentifier?_eq_none_iff.mp unknown flavor
  rw [metadata.flavored_of_other decoded differs, found]

theorem Dispatches.resolve_eq {front target : Fin handles}
    (dispatches : metadata.Dispatches flavor front target)
    (preferred : flavor = .cpp → (metadata.handle front).lookup .c = none) :
    metadata.resolve (.handle (some front)) =
      .ok ((metadata.handle target).data, flavor) := by
  obtain ⟨⟨identifier, decoded, unknown⟩, found⟩ := dispatches
  -- A root is asked for C first, whichever flavor it is meant for.
  rw [resolve_of_unknown decoded unknown, resolveLookup]
  cases flavor with
  | c => rw [found]
  | cpp => rw [preferred rfl, found]

end Resolution

section Redirections

variable {flavor : Flavor} {original : Introspection handles messages}
  {redirected : Introspection handles' messages'}
  (redirection : Redirection flavor original redirected)
include redirection

/-- A handle that stands for another leads where the other leads. -/
theorem Redirection.flavored_eq {handle : Fin handles} {handle' : Fin handles'}
    (stands : StandsFor flavor original redirected redirection.handleCopy handle
      handle') :
    redirected.flavored flavor handle' =
      (original.flavored flavor handle).map redirection.handleCopy := by
  -- A copy is resolved like the original; a front is not, but the original it
  -- stands for is resolved to itself.
  cases stands with
  | front carries dispatches =>
      rw [flavored_of_own carries, dispatches.flavored_eq]
      rfl
  | copy =>
      unfold flavored
      rw [redirection.identifier_eq, redirection.lookup_eq]
      cases (original.handle handle).identifier.decode with
      | error fault => rfl
      | ok identifier =>
          simp only [bind, Except.bind]
          by_cases own : identifier = flavor.identifier
          · rw [if_pos own, if_pos own]
            rfl
          · rw [if_neg own, if_neg own]
            cases (original.handle handle).lookup flavor <;> rfl

theorem Redirection.layoutOf_alike (message : Option (Fin messages)) :
    DescribedAlike (StandsFor flavor original redirected redirection.handleCopy)
      (original.layoutOf message)
      (redirected.layoutOf (message.map redirection.messageCopy)) := by
  cases message with
  | none => exact .error .nullHandle
  | some message => exact (redirection.message_alike message).agrees.layout

theorem Redirection.describe_alike {handle : Fin handles}
    {handle' : Fin handles'}
    (stands : StandsFor flavor original redirected redirection.handleCopy handle
      handle') :
    DescribedAlike (StandsFor flavor original redirected redirection.handleCopy)
      (original.describe flavor handle)
      (redirected.describe flavor handle') := by
  unfold describe
  rw [redirection.flavored_eq stands]
  cases original.flavored flavor handle with
  | error fault => exact .error fault
  | ok resolved =>
      have alike := redirection.layoutOf_alike (original.handle resolved).data
      rw [← redirection.data_eq] at alike
      exact alike

/-- Under the flavor, every message has the same metastring as before, or none
for the same reason. -/
theorem Redirection.metastringOf_eq (options : Options)
    (message : Option (Fin messages)) :
    redirected.metastringOf options flavor (message.map redirection.messageCopy) =
      original.metastringOf options flavor message := by
  cases message with
  | none => rfl
  | some message =>
      -- The two budgets may differ, as both graphs count all their names.
      have described := (redirection.message_alike message).agrees.layout
      simp only [metastringOf, Option.map_some, layoutOf]
      generalize laidOut : (original.message message).layout = outcome
        at described ⊢
      generalize laidOut' :
        (redirected.message (redirection.messageCopy message)).layout = outcome'
        at described ⊢
      cases described with
      | error fault => rfl
      | ok alike =>
          exact (metastring_eq_of_alike options
            (fun _ _ => redirection.describe_alike) (names_suffice laidOut)
            (names_suffice laidOut') alike).symm

end Redirections

/-- Handles that lead to other handles are transparent.  Where references to
handles of a flavor, a root among them, are redirected to handles of another
kind that lead there, the root has the same metastring as before, or none for
the same reason. -/
theorem compile_redirected {flavor : Flavor}
    {original : Introspection handles messages}
    {redirected : Introspection handles' messages'}
    (redirection : Redirection flavor original redirected) (options : Options)
    {root : Fin handles} (carries : original.Carries flavor root)
    {root' : Fin handles'}
    (stands : root' = redirection.handleCopy root ∨
      redirected.Dispatches flavor root' (redirection.handleCopy root) ∧
        (flavor = .cpp → (redirected.handle root').lookup .c = none)) :
    (redirected.tryCompileHandle options (some root')).outcome =
      (original.tryCompileHandle options (some root)).outcome := by
  have resolved' : redirected.resolve (.handle (some root')) =
      .ok ((original.handle root).data.map redirection.messageCopy,
        flavor) := by
    rw [← redirection.data_eq]
    rcases stands with rfl | ⟨dispatches, preferred⟩
    · have carries' : redirected.Carries flavor
          (redirection.handleCopy root) := by
        rw [Carries, redirection.identifier_eq]
        exact carries
      exact resolve_of_own carries'
    · exact dispatches.resolve_eq preferred
  have outcome := original.tryCompile_outcome options (.handle (some root))
  have outcome' := redirected.tryCompile_outcome options (.handle (some root'))
  rw [resolve_of_own carries] at outcome
  rw [resolved'] at outcome'
  exact outcome'.trans
    ((redirection.metastringOf_eq options _).trans outcome.symm)

/-- A message for C++ that nests another one twice. -/
def nesting : Introspection 2 2 where
  handle message :=
    ⟨some (Utf8.encode Flavor.cpp.identifier), some message, fun _ => none⟩
  message :=
    ![⟨none, some [0x41], 2, some [⟨some [0x78], 18, some (Fin.last 1), {}, 0⟩,
        ⟨some [0x79], 18, some (Fin.last 1), {}, 0⟩]⟩,
      ⟨none, some [0x42], 1, some [⟨some [0x7A], 1, none, {}, 0⟩]⟩]

/-- The same with its root and one of its members redirected.  The identifiers
of the new handles are null and empty, and their data and what one of them
answers for C would lead astray. -/
def nestingRedirected : Introspection 4 2 where
  handle :=
    Fin.append
      (fun message => ⟨some (Utf8.encode Flavor.cpp.identifier), some message,
        fun _ => none⟩)
      ![⟨none, some (Fin.last 1), fun | .c => none | .cpp => some 0⟩,
        ⟨some [], none, fun | .c => some 0 | .cpp => some 1⟩]
  message :=
    ![⟨none, some [0x41], 2, some [⟨some [0x78], 18, some 3, {}, 0⟩,
        ⟨some [0x79], 18, some 1, {}, 0⟩]⟩,
      ⟨none, some [0x42], 1, some [⟨some [0x7A], 1, none, {}, 0⟩]⟩]

theorem nesting_carries (handle : Fin 2) : nesting.Carries .cpp handle := by
  fin_cases handle <;> exact Flavor.decode_identifier .cpp

theorem nesting_outcome : (nesting.tryCompileHandle {} (some 0)).outcome =
    (nesting.message 0).layout >>=
      metastring {} (fun handle => (nesting.message handle).layout) 2 := by
  -- Without the decoding of identifiers, the rest can be evaluated.
  have described : nesting.describe .cpp =
      fun handle => (nesting.message handle).layout := by
    funext handle
    rw [describe, flavored_of_own (nesting_carries handle)]
    fin_cases handle <;> rfl
  have names : nesting.names.length = 2 := by cbv
  have outcome := nesting.tryCompile_outcome {} (.handle (some 0))
  rw [resolve_of_own (nesting_carries 0)] at outcome
  refine outcome.trans ?_
  simp only [bind, Except.bind, metastringOf, described, names]
  rfl

theorem nestingRedirected_root : nestingRedirected.Dispatches .cpp 2 0 where
  other := ⟨"", rfl, by decide⟩
  lookup := rfl

theorem nestingRedirected_member : nestingRedirected.Dispatches .cpp 3 1 where
  other := ⟨"", by cbv, by decide⟩
  lookup := rfl

def nestingRedirection : Redirection .cpp nesting nestingRedirected where
  handleCopy := Fin.castAdd 2
  messageCopy := id
  identifier_eq handle := by fin_cases handle <;> rfl
  data_eq handle := by fin_cases handle <;> rfl
  lookup_eq handle wanted := by fin_cases handle <;> rfl
  message_alike message := by
    fin_cases message
    · refine ⟨rfl, rfl, rfl, .some (.cons ?_ (.cons ?_ .nil))⟩
      · exact ⟨rfl, rfl, rfl,
          .some (.front (nesting_carries 1) nestingRedirected_member)⟩
      · exact ⟨rfl, rfl, rfl, .some (.copy 1)⟩
    · exact ⟨rfl, rfl, rfl, .some (.cons ⟨rfl, rfl, rfl, .none⟩ .nil)⟩

/-- With its root and a member redirected, a message that nests another one
twice has the same metastring. -/
theorem compile_redirected_nesting :
    nesting.Carries .cpp 0 ∧
      nestingRedirected.Dispatches .cpp 2 (nestingRedirection.handleCopy 0) ∧
      ∃ text,
        (nesting.tryCompileHandle {} (some 0)).outcome = .ok text ∧
          (nestingRedirected.tryCompileHandle {} (some 2)).outcome =
            .ok text := by
  have compiled : (nesting.tryCompileHandle {} (some 0)).outcome =
      .ok ("v1\x7b(type=dds_::A_,member=2)" ++
        "\x7b(name=x_,type=dds_::B_,member=1)f(name=z_)" ++
        "\x7b(name=y_,type=dds_::B_,member=1)f(name=z_)") := by
    rw [nesting_outcome]
    set_option maxRecDepth 4000 in
    cbv
  have same := compile_redirected nestingRedirection {} (nesting_carries 0)
    (.inr ⟨nestingRedirected_root, fun _ => rfl⟩)
  exact ⟨nesting_carries 0, nestingRedirected_root, _, compiled,
    same.trans compiled⟩

end Introspection

end Metastring
