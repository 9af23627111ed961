import Metastring.CommandLine
import Metastring.Proofs.FaultyPosition

/-!
# The members that both outputs list

A metastring and a member tree list the members of a descriptor depth first.
For each member in turn the metastring has the tokens of the member and the tree
has its lines, and both show its name, its container and its code.  Behind a
member of kind message both go on with the members of the nested message.

The tree is not concerned with repeated names and unknown kinds, so there may be
a tree without a metastring.  Where a nested message is missing there is neither,
and the tree tells the first such place.  A metastring that is missing for this
reason is missing for the same place as the tree.
-/

namespace Metastring

section Listings

/-- A member with the depth of the message it belongs to. -/
structure Listed where
  depth : Nat
  member : Member Kind Descriptor

mutual

/-- The members of a descriptor at the given depth, with those of nested
messages behind the members that nest them. -/
def Descriptor.listingAt (depth : Nat) : Descriptor → List Listed
  | .mk ⟨_, members⟩ => membersListing depth members
termination_by structural descriptor => descriptor

def membersListing (depth : Nat) : List (Member Kind Descriptor) → List Listed
  | [] => []
  | member :: rest =>
    ⟨depth, member⟩ :: (nestedListing depth member ++ membersListing depth rest)
termination_by structural members => members

/-- What is listed behind a member of a message at the given depth. -/
def nestedListing (depth : Nat) : Member Kind Descriptor → List Listed
  | ⟨_, .message, _, some nested⟩ => nested.listingAt (depth + 2)
  | ⟨_, .message, _, none⟩ | ⟨_, .leaf _, _, _⟩ | ⟨_, .unknown _, _, _⟩ => []
termination_by structural member => member

end

/-- The members of a descriptor and of the messages nested in it. -/
def Descriptor.listing (descriptor : Descriptor) : List Listed :=
  descriptor.listingAt 0

/-- The line that opens the tree of a descriptor at the given depth. -/
def Descriptor.openingLine (descriptor : Descriptor) (depth : Nat) : String :=
  descriptor.layout.type.treeLine depth descriptor.layout.members.length

namespace Listed

/-- What a metastring shows of a listed member: the token of its container and
its own token or, for a nested message, the one that opens it. -/
def tokens (options : Options) (listed : Listed) : String :=
  listed.member.shape.container.token options listed.member.name ++
    match listed.member.kind, listed.member.nested with
    | .leaf leaf, _ => leaf.token listed.member.label
    | .message, some inner => inner.layout.token listed.member.label
    | .message, none | .unknown _, _ => ""

/-- What a member tree shows of a listed member: its own line and, for a nested
message, the one that opens it. -/
def lines (listed : Listed) : String :=
  listed.member.treeLine listed.depth ++
    match listed.member.kind, listed.member.nested with
    | .message, some inner => inner.openingLine (listed.depth + 2)
    | .message, none | .leaf _, _ | .unknown _, _ => ""

end Listed

/-- Texts that show members one by one, each together with what is listed behind
it, show the listing of the members. -/
theorem join_eq_membersListing {shows : Listed → String} {depth : Nat}
    {members : List (Member Kind Descriptor)} {texts : List String}
    (pairs : List.Forall₂ (fun member text =>
      text = shows ⟨depth, member⟩ ++
        String.join ((nestedListing depth member).map shows)) members texts) :
    String.join texts = String.join ((membersListing depth members).map shows) := by
  induction pairs with
  | nil => rfl
  | @cons member text members texts shown _ ih =>
      rw [String.join_cons, ih, shown, membersListing, List.map_cons,
        List.map_append, String.join_cons, String.join_append,
        String.append_assoc]

end Listings

section Walks

variable {options : Options}

/-- What is shown of a member and of all that is listed behind it. -/
theorem segment_eq_listing {depth : Nat}
    {nested : Option String → Descriptor → Except CompileError String}
    {member : Member Kind Descriptor} {segment : String}
    (nestedShown : ∀ label inner text, nested label inner = .ok text →
      text = inner.layout.token label ++
        String.join ((inner.listingAt (depth + 2)).map (Listed.tokens options)))
    (walked : member.segment options nested = .ok segment) :
    segment = Listed.tokens options ⟨depth, member⟩ ++
      String.join ((nestedListing depth member).map (Listed.tokens options)) := by
  obtain ⟨name, kind, shape, reference⟩ := member
  rcases Member.segment_eq_ok_iff.mp walked with
    ⟨leaf, isLeaf, rfl⟩ | ⟨isMessage, inner, refers, text, shown, rfl⟩
  · obtain rfl : kind = .leaf leaf := isLeaf
    simp [Listed.tokens, nestedListing]
  · obtain rfl : kind = .message := isMessage
    obtain rfl : reference = some inner := refers
    obtain rfl := nestedShown _ inner text shown
    simp only [Listed.tokens, nestedListing, String.append_assoc]

/-- A walked descriptor is shown by its opening token and the tokens of the
members it lists. -/
theorem walk_eq_listing {budget : Nat} {opened : List String}
    {label : Option String} {descriptor : Descriptor} {text : String}
    (walked : walk options Descriptor.describe budget opened label
      descriptor.layout = .ok text) (depth : Nat) :
    text = descriptor.layout.token label ++
      String.join ((descriptor.listingAt depth).map (Listed.tokens options)) := by
  induction budget generalizing opened label descriptor text depth with
  | zero => contradiction
  | succ budget ih =>
      obtain ⟨segments, visited, rfl⟩ := exists_segments_of_walk walked
      obtain ⟨⟨type, members⟩⟩ := descriptor
      congr 1
      exact join_eq_membersListing (visited.imp fun member segment shown =>
        segment_eq_listing (fun _ _ _ nested => ih nested (depth + 2)) shown)

theorem Descriptor.metastring_eq_listing {descriptor : Descriptor}
    {text : String}
    (compiled : (descriptor.tryCompile options).outcome = .ok text) :
    text = formatVersion ++ (descriptor.layout.token none ++
      String.join (descriptor.listing.map (Listed.tokens options))) := by
  have compiled' : (walk options Descriptor.describe descriptor.height [] none
      descriptor.layout).map (formatVersion ++ ·) = .ok text :=
    (Report.ofLayout_outcome _ _ _ _).symm.trans compiled
  cases walked : walk options Descriptor.describe descriptor.height [] none
      descriptor.layout with
  | error fault => simp [walked, Except.map] at compiled'
  | ok body =>
      rw [walked] at compiled'
      obtain rfl := Except.ok.inj compiled'
      rw [walk_eq_listing walked 0, Descriptor.listing]

end Walks

section Trees

/-- What holds of a descriptor when it holds of all that its members nest holds
of all descriptors. -/
theorem Descriptor.nested_induction {motive : Descriptor → Prop}
    (step : ∀ descriptor,
      (∀ member ∈ descriptor.layout.members, ∀ inner,
        member.nested = some inner → motive inner) → motive descriptor)
    (descriptor : Descriptor) : motive descriptor := by
  induction levels : descriptor.height using Nat.strong_induction_on
    generalizing descriptor with
  | _ height ih =>
      refine step descriptor fun member isMember inner refers => ?_
      have smaller := Descriptor.height_lt_of_nested isMember refers
      exact ih inner.height (levels ▸ smaller) inner rfl

/-- The lines of a member and of what it nests. -/
def Member.treeAt (member : Member Kind Descriptor) (depth : Nat) :
    Except CompileError String :=
  (nestedTree depth member).map (member.treeLine depth ++ ·)

theorem membersTree_eq_mapM (depth : Nat)
    (members : List (Member Kind Descriptor)) :
    membersTree depth members =
      (members.mapM (Member.treeAt · depth)).map String.join := by
  induction members with
  | nil => rfl
  | cons member members ih =>
      rw [membersTree, ih, List.mapM_cons, Member.treeAt]
      cases nestedTree depth member with
      | error fault => rfl
      | ok nested =>
          cases members.mapM (Member.treeAt · depth) with
          | error fault => rfl
          | ok others =>
              simp [bind, Except.bind, pure, Except.pure, Except.map,
                String.join_cons]

/-- The tree of a descriptor is its opening line and, member by member, the
trees of its members. -/
theorem Descriptor.treeAt_eq (descriptor : Descriptor) (depth : Nat) :
    descriptor.treeAt depth =
      (descriptor.layout.members.mapM (Member.treeAt · depth)).map
        fun trees => descriptor.openingLine depth ++ String.join trees := by
  obtain ⟨⟨type, members⟩⟩ := descriptor
  rw [Descriptor.treeAt, membersTree_eq_mapM]
  dsimp only [Descriptor.openingLine, Descriptor.layout]
  cases members.mapM (Member.treeAt · depth) <;> rfl

/-- The lines of a member are those that show it and what is listed behind it,
provided this is so for the message it nests. -/
theorem Member.treeAt_eq_listing {depth : Nat} {member : Member Kind Descriptor}
    {tree : String}
    (nestedShown : ∀ inner, member.nested = some inner → ∀ text,
      inner.treeAt (depth + 2) = .ok text →
        text = inner.openingLine (depth + 2) ++
          String.join ((inner.listingAt (depth + 2)).map Listed.lines))
    (shown : member.treeAt depth = .ok tree) :
    tree = Listed.lines ⟨depth, member⟩ ++
      String.join ((nestedListing depth member).map Listed.lines) := by
  obtain ⟨name, kind, shape, reference⟩ := member
  unfold Member.treeAt at shown
  cases kind with
  | leaf leaf =>
      obtain rfl := Except.ok.inj shown
      simp [Listed.lines, nestedListing]
  | unknown id =>
      obtain rfl := Except.ok.inj shown
      simp [Listed.lines, nestedListing]
  | message =>
      cases reference with
      | none => contradiction
      | some inner =>
          rw [nestedTree] at shown
          cases shownNested : inner.treeAt (depth + 2) with
          | error fault => simp [shownNested, Except.map] at shown
          | ok text =>
              rw [shownNested] at shown
              obtain rfl := Except.ok.inj shown
              obtain rfl := nestedShown inner rfl text shownNested
              simp only [Listed.lines, nestedListing, String.append_assoc]

theorem Descriptor.treeAt_eq_listing (descriptor : Descriptor) :
    ∀ (depth : Nat) (tree : String), descriptor.treeAt depth = .ok tree →
      tree = descriptor.openingLine depth ++
        String.join ((descriptor.listingAt depth).map Listed.lines) := by
  induction descriptor using Descriptor.nested_induction with
  | _ descriptor ih =>
      intro depth tree shown
      rw [Descriptor.treeAt_eq] at shown
      cases visited : descriptor.layout.members.mapM (Member.treeAt · depth) with
      | error fault => simp [visited, Except.map] at shown
      | ok trees =>
          rw [visited] at shown
          obtain rfl := Except.ok.inj shown
          have pairs := (List.forall₂_and_left _ _).mpr
            ⟨ih, (mapM_eq_ok_iff _ _ _).mp visited⟩
          obtain ⟨⟨type, members⟩⟩ := descriptor
          refine congrArg (_ ++ ·) (join_eq_membersListing ?_)
          exact pairs.imp fun member text shown => Member.treeAt_eq_listing
            (fun inner refers => shown.1 inner refers (depth + 2)) shown.2

end Trees

section Missing

/-- A nested message is missing. -/
def CompileError.IsMissing (fault : CompileError) : Prop :=
  ∃ member, fault = .missingNested member

/-- At a position, a member of kind message has no nested message. -/
def Descriptor.MissingAt (descriptor : Descriptor) (position : List Nat)
    (fault : CompileError) : Prop :=
  fault.IsMissing ∧ descriptor.FaultAt [] position fault

/-- A member tells the first nested message that is missing in it, provided the
message it nests does. -/
theorem Member.tellsFirst_treeAt {depth : Nat} {enclosing : List String}
    {member : Member Kind Descriptor}
    (tells : ∀ inner, member.nested = some inner →
      TellsFirst (fun position fault => fault.IsMissing ∧
          inner.FaultAt enclosing position fault)
        (inner.treeAt (depth + 2))) :
    TellsFirst (fun position fault => fault.IsMissing ∧
        Descriptor.MemberFaultAt enclosing member position fault)
      (member.treeAt depth) := by
  obtain ⟨name, kind, shape, reference⟩ := member
  refine TellsFirst.map ?_ _
  cases kind with
  | leaf leaf =>
      refine .ok fun position fault => ?_
      rintro ⟨-, faulty⟩
      cases faulty <;> simp_all
  | unknown id =>
      refine .ok fun position fault => ?_
      rintro ⟨⟨member, rfl⟩, faulty⟩
      cases faulty <;> simp_all
  | message =>
      cases reference with
      | none =>
          refine .error (.of_only ⟨⟨name, rfl⟩, .missingNested rfl rfl⟩ ?_)
          rintro position fault ⟨-, faulty⟩
          cases faulty <;> simp_all
      | some inner =>
          refine (tells inner rfl).congr fun position fault => ?_
          refine and_congr_right fun missing => ?_
          rw [Descriptor.memberFaultAt_iff_inside rfl rfl]
          -- A repeated name is no missing message.
          obtain ⟨member, rfl⟩ := missing
          simp [Descriptor.FaultInside]

theorem Descriptor.tellsFirst_treeAt (descriptor : Descriptor) :
    ∀ (depth : Nat) (enclosing : List String),
      TellsFirst (fun position fault => fault.IsMissing ∧
          descriptor.FaultAt enclosing position fault)
        (descriptor.treeAt depth) := by
  induction descriptor using Descriptor.nested_induction with
  | _ descriptor ih =>
      intro depth enclosing
      rw [Descriptor.treeAt_eq]
      refine TellsFirst.map ((TellsFirst.mapM id (fun _ _ before => before)
        (fun index below fault => fault.IsMissing ∧
          ∃ member, descriptor.layout.members[index]? = some member ∧
            MemberFaultAt (descriptor.layout.type.qualified :: enclosing) member
              below fault) fun index member found => ?_).congr
        fun position fault => ?_) _
      · have told := Member.tellsFirst_treeAt fun inner refers =>
          ih member (List.mem_of_getElem? found) inner refers (depth + 2)
            (descriptor.layout.type.qualified :: enclosing)
        refine told.congr fun below fault => ?_
        simp [found]
      · constructor
        · rintro ⟨index, below, -, rfl, missing, member, found, faulty⟩
          exact ⟨missing, .member found faulty⟩
        · rintro ⟨missing, faulty⟩
          obtain ⟨found, faulty⟩ := faulty
          exact ⟨_, _, (List.getElem?_eq_some_iff.mp found).1, rfl, missing, _,
            found, faulty⟩

theorem Descriptor.tellsFirst_tree (descriptor : Descriptor) :
    TellsFirst descriptor.MissingAt descriptor.tree :=
  descriptor.tellsFirst_treeAt 0 []

/-- The first of all faults is the first missing message if it is one. -/
theorem FirstFault.of_missing {descriptor : Descriptor} {member : String}
    (first : FirstFault (descriptor.FaultAt []) (.missingNested member)) :
    FirstFault descriptor.MissingAt (.missingNested member) := by
  obtain ⟨least, isFault, others⟩ := first
  exact ⟨least, ⟨⟨member, rfl⟩, isFault⟩,
    fun position fault missing => others position fault missing.2⟩

end Missing

section Agreement

/-- An outcome of compiling and the member tree of a descriptor agree: both list
the same members, the tree tells the first missing message, and so does the
outcome unless it fails otherwise. -/
structure Descriptor.AgreesWithTree (options : Options) (descriptor : Descriptor)
    (outcome : Except CompileError String) : Prop where
  listed : ∀ text, outcome = .ok text →
    text = formatVersion ++ (descriptor.layout.token none ++
        String.join (descriptor.listing.map (Listed.tokens options))) ∧
      descriptor.tree = .ok (descriptor.openingLine 0 ++
        String.join (descriptor.listing.map Listed.lines))
  tree_fails_iff : (∃ fault, descriptor.tree = .error fault) ↔
    ∃ position fault, descriptor.MissingAt position fault
  tree_error_iff : ∀ fault, descriptor.tree = .error fault ↔
    FirstFault descriptor.MissingAt fault
  missing : ∀ member, outcome = .error (.missingNested member) →
    descriptor.tree = .error (.missingNested member)
  fails : ∀ fault, descriptor.tree = .error fault →
    ∃ fault', outcome = .error fault'

theorem Descriptor.agreesWithTree (options : Options)
    (descriptor : Descriptor) :
    descriptor.AgreesWithTree options (descriptor.tryCompile options).outcome := by
  have told := descriptor.tellsFirst_tryCompile options
  have toldTree := descriptor.tellsFirst_tree
  have fails (fault : CompileError) (missing : descriptor.tree = .error fault) :
      ∃ fault', (descriptor.tryCompile options).outcome = .error fault' := by
    obtain ⟨position, fault', -, faulty⟩ := toldTree.fails_iff.mp ⟨fault, missing⟩
    exact told.fails_iff.mpr ⟨position, fault', faulty⟩
  refine ⟨fun text compiled => ⟨metastring_eq_listing compiled, ?_⟩,
    toldTree.fails_iff, toldTree.error_iff, fun member missing => ?_, fails⟩
  · cases shown : descriptor.tree with
    | ok tree => rw [descriptor.treeAt_eq_listing 0 tree shown]; rfl
    | error fault =>
        obtain ⟨fault', failed⟩ := fails fault shown
        exact nomatch compiled.symm.trans failed
  · exact (toldTree.error_iff _).mpr (.of_missing ((told.error_iff _).mp missing))

/-- Compiling and showing a message type agree, whether it is given as a
descriptor or as a specification.  The command that shows a descriptor file
accordingly prints a whole tree or nothing. -/
theorem compile_and_inspect_agree :
    (∀ (options : Options) (descriptor : Descriptor),
      descriptor.AgreesWithTree options
        (descriptor.tryCompile options).outcome) ∧
    (∀ (options : Options) (spec : MessageSpec),
      spec.descriptor.AgreesWithTree options
        (spec.tryCompile options).outcome) ∧
    ∀ (content : Path → Except FileFault (List UInt8))
      (environment : Environment) (path : Path),
      let outcome := runProgram content environment (some (.inspect path))
      (∃ spec tree, loadSpec path (content path) = .ok spec ∧
          spec.descriptor.tree = .ok tree ∧
          outcome.status = 0 ∧ outcome.output = tree) ∨
        (∀ spec tree, loadSpec path (content path) = .ok spec →
          spec.descriptor.tree ≠ .ok tree) ∧
          outcome.status = 1 ∧ outcome.output = "" := by
  refine ⟨fun options descriptor => descriptor.agreesWithTree options,
    fun options spec => ?_, fun content environment path => ?_⟩
  · rw [spec.tryCompile_eq]
    exact spec.descriptor.agreesWithTree options
  · simp only [runProgram, Outcome.append, Workplace.run, Workplace.inspectFile]
    cases loaded : loadSpec path (content path) with
    | error error => exact .inr ⟨nofun, rfl, rfl⟩
    | ok spec =>
        cases shown : spec.descriptor.tree with
        | error error =>
            dsimp only
            rw [shown]
            refine .inr ⟨?_, rfl, rfl⟩
            rintro _ tree ⟨⟩ shown'
            exact nomatch shown.symm.trans shown'
        | ok tree =>
            dsimp only
            rw [shown]
            exact .inl ⟨spec, tree, rfl, shown, rfl, String.empty_append⟩

end Agreement

end Metastring
