import Mathlib
import Metastring.Settings

/-!
# What a session leaves behind

A session interleaves changes of the environment with loading, applying and
assigning settings.  The log filter that it leaves in the environment depends
only on the steps since the filter was last made absent.  The last of them that
sets the filter counts; if there is none, the first one that applies the settings
counts, with the log level as it is then.

The environment is read only when settings are loaded.  Settings that were
loaded, or reset to the defaults, have a log level and a positive maximum until
one of them is assigned.
-/

namespace Metastring

namespace SessionStep

/-- The step makes the log filter present with some value. -/
def SetsFilter (step : SessionStep) : Prop :=
  ∃ value, step = .set .logFilter value

/-- The step takes all settings from the environment or from the defaults. -/
def Produces (step : SessionStep) : Prop :=
  step = .load ∨ step = .reset

/-- The step changes one of the settings. -/
def Assigns (step : SessionStep) : Prop :=
  (∃ maximum, step = .assignMaximum maximum) ∨
    ∃ level, step = .assignLevel level

end SessionStep

section Splits

/-- The steps `after` are those since the log filter was last made absent, or
since the start. -/
structure SinceUnset (steps before after : List SessionStep) : Prop where
  split : steps = before ++ after
  begins : before = [] ∨ ∃ earlier, before = earlier ++ [.unset .logFilter]
  kept : .unset .logFilter ∉ after

/-- A list with an element of some kind can be split at the last such one. -/
theorem exists_last_of_exists {α : Type} {kind : α → Prop} {elements : List α}
    (occurs : ∃ element ∈ elements, kind element) :
    ∃ before element after, elements = before ++ element :: after ∧
      kind element ∧ ∀ later ∈ after, ¬ kind later := by
  induction elements with
  | nil => simp at occurs
  | cons first rest ih =>
      by_cases inRest : ∃ element ∈ rest, kind element
      · obtain ⟨before, element, after, rfl, isKind, noneLater⟩ := ih inRest
        exact ⟨first :: before, element, after, rfl, isKind, noneLater⟩
      · have isKind : kind first := by
          obtain ⟨element, isElement, isKind⟩ := occurs
          rcases List.mem_cons.mp isElement with rfl | isLater
          · exact isKind
          · exact absurd ⟨element, isLater, isKind⟩ inRest
        exact ⟨[], first, rest, rfl, isKind, fun element isLater isKind =>
          inRest ⟨element, isLater, isKind⟩⟩

theorem exists_sinceUnset (steps : List SessionStep) :
    ∃ before after, SinceUnset steps before after := by
  by_cases occurs : .unset .logFilter ∈ steps
  · obtain ⟨before, _, after, rfl, rfl, noneLater⟩ :=
      exists_last_of_exists ⟨_, occurs, rfl⟩
    exact ⟨before ++ [.unset .logFilter], after, by simp, .inr ⟨before, rfl⟩,
      fun isLater => noneLater _ isLater rfl⟩
  · exact ⟨[], steps, rfl, .inl rfl, occurs⟩

end Splits

namespace Session

/-- The value of the log filter, if it is present. -/
def filter (session : Session) : Option (List UInt8) :=
  session.environment.value .logFilter

theorem run_cons (session : Session) (step : SessionStep)
    (steps : List SessionStep) :
    session.run (step :: steps) = (session.step step).run steps :=
  rfl

theorem run_append (session : Session) (steps later : List SessionStep) :
    session.run (steps ++ later) = (session.run steps).run later :=
  List.foldl_append

section Steps

variable (session : Session)

theorem step_apply_of_present {value : List UInt8}
    (present : session.filter = some value) :
    session.step .apply = session := by
  rw [filter] at present
  rw [step, Settings.applyLogLevel, present]

theorem step_apply_of_absent (absent : session.filter = none) :
    session.step .apply =
      { session with
        environment := session.environment.assign .logFilter
          (some (Utf8.encode session.settings.logLevel)) } := by
  rw [filter] at absent
  rw [step, Settings.applyLogLevel, absent]

theorem filter_assign (value : Option (List UInt8)) :
    (session.environment.assign .logFilter value).value .logFilter = value := by
  simp [Environment.assign]

theorem filter_assign_of_ne {subject : Variable} (differs : subject ≠ .logFilter)
    (value : Option (List UInt8)) :
    (session.environment.assign subject value).value .logFilter =
      session.filter :=
  if_neg differs.symm

/-- Where the log filter is absent, applying the settings hands it the log
level. -/
theorem filter_apply_of_absent (absent : session.filter = none) :
    (session.step .apply).filter =
      some (Utf8.encode session.settings.logLevel) := by
  rw [step_apply_of_absent session absent]
  exact session.filter_assign _

/-- A log filter that is present stays as it is until it is set or made
absent. -/
theorem filter_step_of_present {step : SessionStep} {value : List UInt8}
    (present : session.filter = some value) (notSet : ¬ step.SetsFilter)
    (notUnset : step ≠ .unset .logFilter) :
    (session.step step).filter = some value := by
  cases step with
  | set subject other =>
      have differs : subject ≠ .logFilter := by
        rintro rfl
        exact notSet ⟨other, rfl⟩
      exact (session.filter_assign_of_ne differs _).trans present
  | unset subject =>
      have differs : subject ≠ .logFilter := by
        rintro rfl
        exact notUnset rfl
      exact (session.filter_assign_of_ne differs _).trans present
  | apply => rwa [session.step_apply_of_present present]
  | load | reset | assignMaximum _ | assignLevel _ => exact present

/-- A log filter that is absent stays absent until it is set or the settings are
applied. -/
theorem filter_step_of_absent {step : SessionStep}
    (absent : session.filter = none) (notSet : ¬ step.SetsFilter)
    (notApply : step ≠ .apply) : (session.step step).filter = none := by
  cases step with
  | set subject value =>
      have differs : subject ≠ .logFilter := by
        rintro rfl
        exact notSet ⟨value, rfl⟩
      exact (session.filter_assign_of_ne differs _).trans absent
  | unset subject =>
      by_cases same : subject = .logFilter
      · subst same
        exact session.filter_assign none
      · exact (session.filter_assign_of_ne same _).trans absent
  | apply => exact absurd rfl notApply
  | load | reset | assignMaximum _ | assignLevel _ => exact absent

/-- Settings are changed by the steps that produce or assign them. -/
theorem settings_step_of_not {step : SessionStep} (notProduced : ¬ step.Produces)
    (notAssigned : ¬ step.Assigns) :
    (session.step step).settings = session.settings := by
  cases step with
  | set _ _ | unset _ | apply => rfl
  | load => exact absurd (.inl rfl) notProduced
  | reset => exact absurd (.inr rfl) notProduced
  | assignMaximum maximum => exact absurd (.inl ⟨maximum, rfl⟩) notAssigned
  | assignLevel level => exact absurd (.inr ⟨level, rfl⟩) notAssigned

/-- What the steps other than changes of the environment do to a session. -/
structure StepsApart : Prop where
  environment_step : ∀ step : SessionStep, step.Produces ∨ step.Assigns →
    (session.step step).environment = session.environment
  settings_apply : (session.step .apply).settings = session.settings
  value_apply : ∀ subject ≠ .logFilter,
    (session.step .apply).environment.value subject =
      session.environment.value subject
  filter_apply : ∀ value, session.filter = some value →
    (session.step .apply).filter = some value
  apply_apply : (session.step .apply).step .apply = session.step .apply
  settings_load : ∀ other : Session,
    (∀ subject ≠ .logFilter, other.environment.value subject =
      session.environment.value subject) →
    (other.step .load).settings = (session.step .load).settings

theorem stepsApart : session.StepsApart where
  environment_step step isEither := by
    rcases isEither with (rfl | rfl) | ⟨_, rfl⟩ | ⟨_, rfl⟩ <;> rfl
  settings_apply := rfl
  value_apply subject differs := by
    cases present : session.filter with
    | some value => rw [session.step_apply_of_present present]
    | none =>
        rw [session.step_apply_of_absent present]
        exact if_neg differs
  filter_apply value present := by
    rwa [session.step_apply_of_present present]
  apply_apply := by
    cases present : session.filter with
    | some value =>
        rw [session.step_apply_of_present present,
          session.step_apply_of_present present]
    | none =>
        exact step_apply_of_present _ (session.filter_apply_of_absent present)
  settings_load other same := by
    have sameMaximum := same .unboundedMaximum (by decide)
    have sameLevel := same .logLevel (by decide)
    simp only [step, Settings.load, Environment.text?, sameMaximum, sameLevel]

end Steps

section Filters

variable {session : Session} {steps : List SessionStep}

theorem filter_run_of_present {value : List UInt8}
    (present : session.filter = some value)
    (notSet : ∀ step ∈ steps, ¬ step.SetsFilter)
    (notUnset : .unset .logFilter ∉ steps) :
    (session.run steps).filter = some value := by
  induction steps generalizing session with
  | nil => exact present
  | cons first rest ih =>
      obtain ⟨firstNotSet, restNotSet⟩ := List.forall_mem_cons.mp notSet
      obtain ⟨firstNotUnset, restNotUnset⟩ :=
        not_or.mp (List.mem_cons.not.mp notUnset)
      exact ih (session.filter_step_of_present present firstNotSet
        (Ne.symm firstNotUnset)) restNotSet restNotUnset

theorem filter_run_of_absent (absent : session.filter = none)
    (notSet : ∀ step ∈ steps, ¬ step.SetsFilter) (notApply : .apply ∉ steps) :
    (session.run steps).filter = none := by
  induction steps generalizing session with
  | nil => exact absent
  | cons first rest ih =>
      obtain ⟨firstNotSet, restNotSet⟩ := List.forall_mem_cons.mp notSet
      obtain ⟨firstNotApply, restNotApply⟩ :=
        not_or.mp (List.mem_cons.not.mp notApply)
      exact ih (session.filter_step_of_absent absent firstNotSet
        (Ne.symm firstNotApply)) restNotSet restNotApply

/-- The value that is set last stays. -/
theorem filter_run_of_set {earlier later : List SessionStep} {value : List UInt8}
    (last : ∀ step ∈ later, ¬ step.SetsFilter)
    (notUnset : .unset .logFilter ∉ later) :
    (session.run (earlier ++ .set .logFilter value :: later)).filter =
      some value := by
  rw [run_append, run_cons]
  exact filter_run_of_present (filter_assign _ _) last notUnset

/-- An absent filter receives the log level when the settings are first applied,
and keeps it. -/
theorem filter_run_of_apply {earlier later : List SessionStep}
    (absent : session.filter = none)
    (notSet : ∀ step ∈ earlier ++ .apply :: later, ¬ step.SetsFilter)
    (first : .apply ∉ earlier) (notUnset : .unset .logFilter ∉ later) :
    (session.run (earlier ++ .apply :: later)).filter =
      some (Utf8.encode (session.run earlier).settings.logLevel) := by
  obtain ⟨earlierNotSet, appliedNotSet⟩ := List.forall_mem_append.mp notSet
  rw [run_append, run_cons]
  exact filter_run_of_present
    (filter_apply_of_absent _ (filter_run_of_absent absent earlierNotSet first))
    (List.forall_mem_cons.mp appliedNotSet).2 notUnset

section SinceUnset

variable {before after : List SessionStep} (since : SinceUnset steps before after)
include since

theorem filter_of_set {earlier later : List SessionStep} {value : List UInt8}
    (split : after = earlier ++ .set .logFilter value :: later)
    (last : ∀ step ∈ later, ¬ step.SetsFilter) :
    (session.run (before ++ after)).filter = some value := by
  subst split
  have notUnset : .unset .logFilter ∉ later := fun isLater =>
    since.kept (by simp [isLater])
  rw [run_append]
  exact filter_run_of_set last notUnset

variable (absent : session.filter = none)
include absent

theorem filter_before_of_absent : (session.run before).filter = none := by
  rcases since.begins with rfl | ⟨earlier, rfl⟩
  · exact absent
  · rw [run_append]
    exact filter_assign _ none

theorem filter_of_apply {earlier later : List SessionStep}
    (split : after = earlier ++ .apply :: later) (first : .apply ∉ earlier)
    (notSet : ∀ step ∈ after, ¬ step.SetsFilter) :
    (session.run (before ++ after)).filter =
      some (Utf8.encode (session.run (before ++ earlier)).settings.logLevel) := by
  subst split
  have notUnset : .unset .logFilter ∉ later := fun isLater =>
    since.kept (by simp [isLater])
  rw [run_append session before, run_append session before]
  exact filter_run_of_apply (filter_before_of_absent since absent) notSet first
    notUnset

theorem filter_isSome_iff :
    (session.run (before ++ after)).filter.isSome ↔
      (∃ step ∈ after, step.SetsFilter) ∨ .apply ∈ after := by
  constructor
  · intro present
    by_contra neither
    obtain ⟨notSet, notApply⟩ := not_or.mp neither
    have absentAfter : (session.run (before ++ after)).filter = none := by
      rw [run_append]
      exact filter_run_of_absent (filter_before_of_absent since absent)
        (fun step isStep isSet => notSet ⟨step, isStep, isSet⟩) notApply
    simp [absentAfter] at present
  · intro occurs
    by_cases someSet : ∃ step ∈ after, step.SetsFilter
    · obtain ⟨earlier, _, later, split, ⟨value, rfl⟩, last⟩ :=
        exists_last_of_exists someSet
      rw [filter_of_set since split last]
      rfl
    · have applied := occurs.resolve_left someSet
      obtain ⟨earlier, later, split, first⟩ := List.eq_append_cons_of_mem applied
      rw [filter_of_apply since absent split first
        fun step isStep isSet => someSet ⟨step, isStep, isSet⟩]
      rfl

end SinceUnset

/-- The log filter at the end of a session is present if since it was last made
absent it was set or the settings were applied.  It has the value that was set
last or, if none was set, the log level at the first application. -/
structure FilterFollows (session : Session) (before after : List SessionStep) :
    Prop where
  present_iff : (session.run (before ++ after)).filter.isSome ↔
    (∃ step ∈ after, step.SetsFilter) ∨ .apply ∈ after
  of_set : ∀ earlier value later,
    after = earlier ++ .set .logFilter value :: later →
      (∀ step ∈ later, ¬ step.SetsFilter) →
        (session.run (before ++ after)).filter = some value
  of_apply : ∀ earlier later, after = earlier ++ .apply :: later →
    .apply ∉ earlier → (∀ step ∈ after, ¬ step.SetsFilter) →
      (session.run (before ++ after)).filter =
        some (Utf8.encode (session.run (before ++ earlier)).settings.logLevel)

theorem filterFollows {before after : List SessionStep}
    (since : SinceUnset steps before after) (absent : session.filter = none) :
    session.FilterFollows before after where
  present_iff := filter_isSome_iff since absent
  of_set _ _ _ split last := filter_of_set since split last
  of_apply _ _ split first notSet :=
    filter_of_apply since absent split first notSet

end Filters

end Session

section Soundness

/-- There is a log level, and the maximum for unbounded sequences is positive. -/
def Settings.Sound (settings : Settings) : Prop :=
  settings.logLevel ≠ "" ∧ 0 < settings.options.unboundedMaximum

theorem Settings.sound_default : ({} : Settings).Sound :=
  ⟨by decide, by decide⟩

theorem Settings.readMaximum?_ne_zero {text : String} {maximum : UInt64}
    (read : readMaximum? text = some maximum) : maximum ≠ 0 := by
  have positive := (Option.filter_eq_some_iff.mp read).2
  simpa using positive

theorem Settings.sound_load (environment : Environment) :
    (Settings.load environment).Sound := by
  constructor
  · cases level : (environment.text? .logLevel).filter (· ≠ "") with
    | none =>
        rw [load, level]
        exact Settings.sound_default.1
    | some text =>
        have nonempty := (Option.filter_eq_some_iff.mp level).2
        rw [load, level]
        simpa using nonempty
  · cases maximum : environment.text? .unboundedMaximum >>= readMaximum? with
    | none =>
        rw [load, options, maximum]
        exact Settings.sound_default.2
    | some size =>
        obtain ⟨text, -, read⟩ := Option.bind_eq_some_iff.mp maximum
        rw [load, options, maximum]
        exact UInt64.pos_iff_ne_zero.mpr (readMaximum?_ne_zero read)

theorem Session.sound_run {session : Session} (sound : session.settings.Sound)
    {steps : List SessionStep} (kept : ∀ step ∈ steps, ¬ step.Assigns) :
    (session.run steps).settings.Sound := by
  induction steps generalizing session with
  | nil => exact sound
  | cons first rest ih =>
      obtain ⟨firstKept, restKept⟩ := List.forall_mem_cons.mp kept
      refine ih ?_ restKept
      by_cases produced : first.Produces
      · rcases produced with rfl | rfl
        · exact Settings.sound_load _
        · exact Settings.sound_default
      · rwa [session.settings_step_of_not produced firstKept]

end Soundness

/-- In a session that starts with none of the variables, the log filter at the
end is the one that the steps since it was last made absent lead to.  No step but
a change of the environment changes a variable, except that applying the settings
fills in an absent log filter.  Loading looks at nothing but the two variables
that hold settings, and settings that were loaded or reset are sound until one of
them is assigned. -/
theorem sessions_follow_their_steps (settings : Settings)
    (steps : List SessionStep) :
    (∃ before after, SinceUnset steps before after) ∧
      (∀ before after, SinceUnset steps before after →
        Session.FilterFollows ⟨.empty, settings⟩ before after) ∧
      (∀ session : Session, session.StepsApart) ∧
      ∀ before step after, steps = before ++ step :: after → step.Produces →
        (∀ later ∈ after, ¬ later.Assigns) →
          (Session.run ⟨.empty, settings⟩ steps).settings.Sound := by
  refine ⟨exists_sinceUnset steps, fun before after since =>
    Session.filterFollows since rfl, Session.stepsApart, ?_⟩
  rintro before step after rfl produced kept
  rw [Session.run_append, Session.run_cons]
  refine Session.sound_run ?_ kept
  rcases produced with rfl | rfl
  · exact Settings.sound_load _
  · exact Settings.sound_default

end Metastring
