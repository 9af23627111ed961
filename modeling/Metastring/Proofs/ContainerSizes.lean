import Metastring.Proofs.FileCompilation
import Metastring.Proofs.FrontEnds
import Metastring.Proofs.Listing
import Metastring.Proofs.MaximumReading

/-!
# The sizes that the compile command prints

Every container token that the compile command prints carries a positive size.
Fixed arrays and sequences with a bound show the size that the descriptor file
states for the member.  Sequences without a bound show the maximum of the command
line, else the one that the environment spells, else 128.
-/

namespace Metastring

section Sources

/-- Where the maximum for sequences without a bound comes from. -/
inductive MaximumFrom (environment : Environment) :
    Option UInt64 → UInt64 → Prop
  | commandLine (given : UInt64) : MaximumFrom environment (some given) given
  | environment {text : String} {maximum : UInt64}
      (present :
        environment.value .unboundedMaximum = some (Utf8.encode text))
      (spells : SpellsMaximum text maximum) :
      MaximumFrom environment none maximum
  | default
      (noMaximum : ∀ text maximum,
        environment.value .unboundedMaximum = some (Utf8.encode text) →
          ¬ SpellsMaximum text maximum) :
      MaximumFrom environment none 128

theorem Environment.maximum_eq_some_iff (environment : Environment)
    (maximum : UInt64) :
    environment.text? .unboundedMaximum >>= Settings.readMaximum? =
        some maximum ↔
      ∃ text, environment.value .unboundedMaximum = some (Utf8.encode text) ∧
        SpellsMaximum text maximum := by
  rw [Option.bind_eq_bind, Option.bind_eq_some_iff]
  simp only [Environment.text?_eq_some_iff, Settings.readMaximum?_eq_some_iff]

/-- There is one source of the maximum in every environment. -/
theorem maximumFrom_iff (environment : Environment) (given : Option UInt64)
    (maximum : UInt64) :
    MaximumFrom environment given maximum ↔
      maximum = environment.effectiveMaximum given := by
  have spelled_iff := environment.maximum_eq_some_iff
  unfold Environment.effectiveMaximum
  constructor
  · intro source
    cases source with
    | commandLine given => rfl
    | environment present spells =>
        rw [(spelled_iff maximum).mpr ⟨_, present, spells⟩]
        rfl
    | default noMaximum =>
        have unread : environment.text? .unboundedMaximum >>=
            Settings.readMaximum? = none := by
          refine Option.eq_none_iff_forall_ne_some.mpr fun other read => ?_
          obtain ⟨text, present, spells⟩ := (spelled_iff other).mp read
          exact noMaximum text other present spells
        rw [unread]
        rfl
  · rintro rfl
    cases given with
    | some given => exact .commandLine given
    | none =>
        cases read : environment.text? .unboundedMaximum >>=
            Settings.readMaximum? with
        | some maximum =>
            obtain ⟨text, present, spells⟩ := (spelled_iff maximum).mp read
            exact .environment present spells
        | none =>
            refine .default fun text maximum present spells => ?_
            rw [(spelled_iff maximum).mpr ⟨text, present, spells⟩] at read
            contradiction

theorem MaximumFrom.positive {environment : Environment}
    {given : Option UInt64} {maximum : UInt64}
    (source : MaximumFrom environment given maximum) (allowed : given ≠ some 0) :
    0 < maximum := by
  cases source with
  | commandLine given =>
      exact UInt64.pos_iff_ne_zero.mpr fun isZero => allowed (isZero ▸ rfl)
  | environment _ spells => exact spells.1
  | default _ => decide

end Sources

section Tokens

/-- A container token with the size that it carries, for a member that
repeats. -/
inductive ShowsSize (maximum : UInt64) (member : Member Kind Descriptor) :
    String → UInt64 → Prop
  | array (repeats : member.shape.isArray = true)
      (isSized : member.shape.arraySize ≠ 0)
      (isExact : member.shape.isUpperBound = false) :
      ShowsSize maximum member
        ("[(" ++ nameField member.name ++ ",dimension=" ++
          decimal member.shape.arraySize.toNat ++ ")")
        member.shape.arraySize
  | bounded (repeats : member.shape.isArray = true)
      (isSized : member.shape.arraySize ≠ 0)
      (isBound : member.shape.isUpperBound = true) :
      ShowsSize maximum member
        ("<(" ++ nameField member.name ++ ",maximum=" ++
          decimal member.shape.arraySize.toNat ++ ")")
        member.shape.arraySize
  | unbounded (repeats : member.shape.isArray = true)
      (isUnsized : member.shape.arraySize = 0) :
      ShowsSize maximum member
        ("<(" ++ nameField member.name ++ ",maximum=" ++
          decimal maximum.toNat ++ ")")
        maximum

theorem showsSize_token (maximum : UInt64) {member : Member Kind Descriptor}
    (repeats : member.shape.isArray = true) :
    ∃ size, ShowsSize maximum member
      (member.shape.container.token ⟨maximum⟩ member.name) size := by
  obtain ⟨name, kind, ⟨isArray, arraySize, isUpperBound⟩, nested⟩ := member
  obtain rfl : isArray = true := repeats
  by_cases isUnsized : arraySize = 0
  · subst isUnsized
    exact ⟨_, .unbounded rfl rfl⟩
  · have container : (Shape.mk true arraySize isUpperBound).container =
        if isUpperBound then .boundedSequence arraySize
        else .array arraySize := by
      rw [Shape.container, if_pos rfl, if_neg isUnsized]
    rw [container]
    cases isUpperBound with
    | true => exact ⟨_, .bounded rfl isUnsized rfl⟩
    | false => exact ⟨_, .array rfl isUnsized rfl⟩

theorem ShowsSize.positive {maximum : UInt64} {member : Member Kind Descriptor}
    {token : String} {size : UInt64}
    (shows : ShowsSize maximum member token size) (positive : 0 < maximum) :
    0 < size := by
  cases shows with
  | array _ isSized _ | bounded _ isSized _ =>
      exact UInt64.pos_iff_ne_zero.mpr isSized
  | unbounded _ _ => exact positive

/-- A metastring shows a specification member by member.  In front of a member
that repeats there is a container token with a positive size, and in front of the
others there is none. -/
structure MessageSpec.ShowsSizes (spec : MessageSpec) (maximum : UInt64)
    (text : String) : Prop where
  text_eq : text = formatVersion ++ (spec.descriptor.layout.token none ++
    String.join (spec.descriptor.listing.map (Listed.tokens ⟨maximum⟩)))
  token_eq_empty : ∀ listed ∈ spec.descriptor.listing,
    listed.member.shape.isArray = false →
      listed.member.shape.container.token ⟨maximum⟩ listed.member.name = ""
  exists_size : ∀ listed ∈ spec.descriptor.listing,
    listed.member.shape.isArray = true →
      ∃ size, 1 ≤ size.toNat ∧ size.toNat ≤ 2 ^ 64 - 1 ∧
        ShowsSize maximum listed.member
          (listed.member.shape.container.token ⟨maximum⟩ listed.member.name)
          size

theorem MessageSpec.showsSizes {spec : MessageSpec} {maximum : UInt64}
    {text : String} (positive : 0 < maximum)
    (compiled : (spec.tryCompile ⟨maximum⟩).outcome = .ok text) :
    spec.ShowsSizes maximum text where
  text_eq := by
    rw [spec.tryCompile_eq] at compiled
    exact Descriptor.metastring_eq_listing compiled
  token_eq_empty listed _ single := by
    rw [Shape.container, single]
    rfl
  exists_size listed _ repeats := by
    obtain ⟨size, shows⟩ := showsSize_token maximum repeats
    have isPositive : 0 < size.toNat :=
      UInt64.lt_iff_toNat_lt.mp (shows.positive positive)
    have inRange : size.toNat < 2 ^ 64 := size.toNat_lt
    exact ⟨size, isPositive, Nat.le_sub_one_of_lt inRange, shows⟩

end Tokens

section Runs

theorem exists_spec_of_compileAlone
    {content : Path → Except FileFault (List UInt8)} {options : Options}
    {path : Path} {text : String}
    (compiled : compileAlone content options path = .ok text) :
    ∃ spec, loadSpec path (content path) = .ok spec ∧
      (spec.tryCompile options).outcome = .ok text := by
  rw [compileAlone] at compiled
  cases loaded : loadSpec path (content path) with
  | error error => simp [loaded] at compiled
  | ok spec =>
      simp only [loaded] at compiled
      refine ⟨spec, rfl, ?_⟩
      cases outcome : (spec.tryCompile options).outcome with
      | error fault => simp [outcome, Except.mapError] at compiled
      | ok text' =>
          rw [outcome] at compiled
          exact congrArg Except.ok (Except.ok.inj compiled)

/-- In every environment the compile command has exactly one maximum for
sequences without a bound.  A maximum of zero on the command line prints nothing.
Otherwise the maximum is positive, the output is one line for each file that
compiles, and each metastring in it shows positive sizes: those of the members
that state one, and the maximum for the others. -/
theorem printed_sizes_are_positive
    (content : Path → Except FileFault (List UInt8))
    (environment : Environment) (files : List Path) (given : Option UInt64) :
    let outcome := runProgram content environment (some (.compile files given))
    (∃! maximum, MaximumFrom environment given maximum) ∧
      (given = some 0 → outcome.output = "") ∧
      ∀ maximum, MaximumFrom environment given maximum → given ≠ some 0 →
        0 < maximum ∧
          outcome.output = String.join (files.map fun path =>
            resultLine path (compileAlone content ⟨maximum⟩ path)) ∧
          ∀ path ∈ files, ∀ text,
            compileAlone content ⟨maximum⟩ path = .ok text →
              ∃ spec, loadSpec path (content path) = .ok spec ∧
                spec.ShowsSizes maximum text := by
  have source_iff := maximumFrom_iff environment given
  refine ⟨⟨_, (source_iff _).mpr rfl, fun other => (source_iff other).mp⟩, ?_,
    fun maximum source allowed => ?_⟩
  · rintro rfl
    rfl
  · have positive := source.positive allowed
    have combined :=
      runProgram_combinesFiles content environment files allowed
    obtain rfl := (source_iff maximum).mp source
    refine ⟨positive, combined.output_eq, fun path _ text compiled => ?_⟩
    obtain ⟨spec, loaded, outcome⟩ := exists_spec_of_compileAlone compiled
    exact ⟨spec, loaded, spec.showsSizes positive outcome⟩

end Runs

end Metastring
