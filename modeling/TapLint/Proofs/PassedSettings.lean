/-
Settings that are passed, and what the environment says of them.

A setting that has its default is looked up in the environment, whether the default was passed or
nothing was.  So what is passed counts unless it is the default:

* `Environment.Offers` — what the environment says of a setting;
* `Passed` — what is passed, and the settings that this makes;
* `value_fill` — each setting goes its own way, and all of them go the same;
* `Settles` — when a passed value is kept, and what stands in its place if it is not.

The main statement is `passed_settings_settle`.
-/
import TapLint.Settings.Basic

namespace TapLint

namespace Environment

variable {env : Environment} {name : String}

theorem given?_eq_some_iff {s : String} :
    env.given? name = some s ↔ env.get? name = some s ∧ s ≠ "" := by
  rw [given?, Option.filter_eq_some_iff]
  simp

/-- What the environment offers under a name: the value of the text that the variable has, if the
text is not empty and has one. -/
def Offers {α : Type} (env : Environment) (name : String) (read : String → Option α) (v : α) :
    Prop :=
  ∃ s, env.get? name = some s ∧ s ≠ "" ∧ read s = some v

theorem offers_iff {α : Type} {read : String → Option α} {v : α} :
    env.Offers name read v ↔ (env.given? name).bind read = some v := by
  rw [Offers, Option.bind_eq_some_iff]
  simp only [given?_eq_some_iff, and_assoc]

end Environment

namespace Settings

/-! ### What is passed -/

/-- What is passed for the settings; `none` leaves a setting open. -/
structure Passed where
  outputFormat : Option String := none
  logLevel : Option String := none
  maxWorkers : Option Int := none
  maxFileSize : Option Int := none
  policyPath : Option String := none

/-- The settings before the environment is asked: the default for what is left open. -/
def Passed.settings (p : Passed) : Settings where
  outputFormat := p.outputFormat.getD defaults.outputFormat
  logLevel := p.logLevel.getD defaults.logLevel
  maxWorkers := p.maxWorkers.getD defaults.maxWorkers
  maxFileSize := p.maxFileSize.getD defaults.maxFileSize
  policyPath := p.policyPath

/-! ### One setting -/

/-- What becomes of a setting: the offer counts if the setting has its default. -/
def settled {α : Type} [DecidableEq α] (default : α) (offer : Option α) (current : α) : α :=
  if current = default then offer.getD default else current

theorem text_eq (env : Environment) (name default : String) (adjust : String → String)
    (current : String) :
    text env name default adjust current =
      settled default ((env.given? name).bind (some ∘ adjust)) current := by
  rw [text, settled]
  split
  next h => cases env.given? name <;> simp [h]
  next => rfl

theorem value_integer (env : Environment) (name : String) (default current : Int) :
    (integer env name default current).value =
      settled default ((env.given? name).bind (Text.integer? 10)) current := by
  rw [integer, settled]
  split
  next h =>
    cases env.given? name with
    | none => exact h
    | some s =>
      dsimp only [Option.bind_some]
      cases Text.integer? 10 s with
      | none => exact h
      | some n => rfl
  next => rfl

theorem value_fill (env : Environment) (s : Settings) :
    (fill env s).value =
      { outputFormat := settled defaults.outputFormat
          ((env.given? "FORMULA_COPS_OUTPUT_FORMAT").bind (some ∘ Text.toLower)) s.outputFormat
        logLevel := settled defaults.logLevel
          ((env.given? "FORMULA_COPS_LOG_LEVEL").bind (some ∘ Text.toUpper)) s.logLevel
        maxWorkers := settled defaults.maxWorkers
          ((env.given? "FORMULA_COPS_MAX_WORKERS").bind (Text.integer? 10)) s.maxWorkers
        maxFileSize := settled defaults.maxFileSize
          ((env.given? "FORMULA_COPS_MAX_FILE_SIZE_KB").bind (Text.integer? 10)) s.maxFileSize
        policyPath := s.policyPath.or (env.given? "FORMULA_COPS_POLICY") } := by
  simp only [fill, Logged.value_bind, Logged.value_pure, value_integer, text_eq]

/-- How a setting comes out, by its default, what the environment offers and what was passed.  A
setting that was left open takes the offer, or else the default.  A passed value is kept unless it
is the default and something else is offered, and then it gives way to the offer. -/
structure Settles {α : Type} (default : α) (offers : α → Prop) (passed : Option α)
    (result : α) : Prop where
  offered : passed = none → ∀ v, offers v → result = v
  unoffered : passed = none → (∀ v, ¬offers v) → result = default
  kept_iff : ∀ v, passed = some v →
    (result = v ↔ (v = default → ∀ w, offers w → w = default))
  overruled : passed = some default → ∀ w, offers w → result = w

theorem settles_settled {α : Type} [DecidableEq α] {offers : α → Prop} {offer : Option α}
    (h : ∀ v, offers v ↔ offer = some v) (default : α) (passed : Option α) :
    Settles default offers passed (settled default offer (passed.getD default)) := by
  have hdefault : settled default offer default = offer.getD default := if_pos rfl
  constructor
  · rintro rfl v hv
    rw [Option.getD_none, hdefault, (h v).mp hv, Option.getD_some]
  · rintro rfl hnone
    rw [Option.getD_none, hdefault,
      Option.eq_none_iff_forall_ne_some.mpr fun v hv => hnone v ((h v).mpr hv), Option.getD_none]
  · rintro v rfl
    rw [Option.getD_some]
    -- only a default is looked up, so only a default can be overruled
    by_cases hv : v = default
    · subst hv
      rw [hdefault]
      constructor
      · intro hkept _ w hw
        rwa [(h w).mp hw] at hkept
      · intro hsame
        cases hoffer : offer with
        | none => rfl
        | some w => exact hsame rfl w ((h w).mpr hoffer)
    · rw [settled, if_neg hv]
      exact iff_of_true rfl (absurd · hv)
  · rintro rfl w hw
    rw [Option.getD_some, hdefault, (h w).mp hw, Option.getD_some]

/-! ### All settings -/

/-- **What is passed counts, unless it is the default.**  The format, the level and the two
numbers have the value that was passed for them just if it is not the default or the environment
does not offer another one.  A path of a policy that was passed always counts.  What was left open
is what the environment offers: a text that is not empty, in small letters for the format and in
capitals for the level, and for the numbers one that is an integer; or else it is the default. -/
theorem passed_settings_settle (env : Environment) (p : Passed) :
    let s := (fill env p.settings).value
    Settles defaults.outputFormat
        (env.Offers "FORMULA_COPS_OUTPUT_FORMAT" (some ∘ Text.toLower)) p.outputFormat
        s.outputFormat ∧
      Settles defaults.logLevel
        (env.Offers "FORMULA_COPS_LOG_LEVEL" (some ∘ Text.toUpper)) p.logLevel s.logLevel ∧
      Settles defaults.maxWorkers
        (env.Offers "FORMULA_COPS_MAX_WORKERS" (Text.integer? 10)) p.maxWorkers s.maxWorkers ∧
      Settles defaults.maxFileSize
        (env.Offers "FORMULA_COPS_MAX_FILE_SIZE_KB" (Text.integer? 10)) p.maxFileSize
        s.maxFileSize ∧
      (∀ path, p.policyPath = some path → s.policyPath = some path) ∧
      (p.policyPath = none →
        ∀ path, s.policyPath = some path ↔ env.Offers "FORMULA_COPS_POLICY" some path) := by
  intro s
  -- with the settings apart, each part is about one of them
  have hs : s = _ := value_fill env p.settings
  rw [hs]
  have hoffers {α : Type} (name : String) (read : String → Option α) (v : α) :
      env.Offers name read v ↔ (env.given? name).bind read = some v := Environment.offers_iff
  refine ⟨settles_settled (hoffers _ _) _ _, settles_settled (hoffers _ _) _ _,
    settles_settled (hoffers _ _) _ _, settles_settled (hoffers _ _) _ _, ?_, ?_⟩
  · intro path hpath
    simp [Passed.settings, hpath]
  · intro hopen path
    rw [hoffers]
    simp [Passed.settings, hopen]

/-- An environment with a format, a number and something that is none. -/
def sampleEnvironment : Environment :=
  { bindings := [("FORMULA_COPS_OUTPUT_FORMAT", "json"), ("FORMULA_COPS_MAX_WORKERS", "8"),
      ("FORMULA_COPS_MAX_FILE_SIZE_KB", "many")] }

/-- The format is passed and counts; the number of workers is passed as well, but it is the
default; the file size is left open and the environment offers none. -/
theorem passed_settings_settle_sampleEnvironment :
    let p : Passed :=
      { outputFormat := some "sarif", maxWorkers := some 1, policyPath := some "p.yaml" }
    let s := (fill sampleEnvironment p.settings).value
    p.maxWorkers = some defaults.maxWorkers ∧
      s = { outputFormat := "sarif", logLevel := "WARNING", maxWorkers := 8, maxFileSize := 512,
            policyPath := some "p.yaml" } := by
  intro p s
  obtain ⟨hformat, hlevel, hworkers, hsize, hpath, -⟩ :=
    passed_settings_settle sampleEnvironment p
  have hoffer : sampleEnvironment.Offers "FORMULA_COPS_MAX_WORKERS" (Text.integer? 10) 8 :=
    ⟨"8", rfl, by decide, by decide⟩
  have hnolevel : ∀ v, ¬sampleEnvironment.Offers "FORMULA_COPS_LOG_LEVEL"
      (some ∘ Text.toUpper) v := by
    rintro v ⟨text, hget, -⟩
    have hunset : sampleEnvironment.get? "FORMULA_COPS_LOG_LEVEL" = none := by decide
    rw [hunset] at hget
    cases hget
  have hnosize : ∀ v, ¬sampleEnvironment.Offers "FORMULA_COPS_MAX_FILE_SIZE_KB"
      (Text.integer? 10) v := by
    rintro v ⟨text, hget, -, hread⟩
    have htext : text = "many" := Option.some.inj hget.symm
    have hmany : Text.integer? 10 "many" = none := by decide
    rw [htext, hmany] at hread
    cases hread
  refine ⟨rfl, ?_⟩
  rw [Settings.mk.injEq]
  exact ⟨(hformat.kept_iff "sarif" rfl).mpr (absurd · (by decide)), hlevel.unoffered rfl hnolevel,
    hworkers.overruled rfl 8 hoffer, hsize.unoffered rfl hnosize, hpath "p.yaml" rfl⟩

/-- A default that is passed gives way: with one worker passed and eight in the environment there
are eight. -/
theorem exists_passed_not_kept :
    ¬∀ (env : Environment) (p : Passed) (n : Int), p.maxWorkers = some n →
      (fill env p.settings).value.maxWorkers = n := by
  intro h
  have hone := h { bindings := [("FORMULA_COPS_MAX_WORKERS", "8")] } { maxWorkers := some 1 } 1 rfl
  exact absurd hone (by decide)

end Settings

end TapLint
