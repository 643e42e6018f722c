/-
Reports, by what they are collected from.

A report is built entry by entry.  Here it is given by the outcomes that were entered:

* `collect_eq` — the results, the errors and the tally of a report;
* `files_foldl_count`, `offenses_foldl_count`, `passed_foldl_count`,
  `ofCop_foldl_count` — the numbers of a tally, each as a count over the results;
* `collect_append` — a report on two lists of outcomes has the entries of both, and its
  numbers are the sums of theirs (`Tally.IsSum`).
-/
import TapLint.Audit.Auditor

namespace TapLint

/-! ### The numbers of a tally -/

namespace Tally

/-- The number of offenses that one cop reported. -/
def ofCop (t : Tally) (cop : String) : Nat := (t.byCop.lookup cop).getD 0

/-- The numbers of a tally are the sums of those of two others. -/
structure IsSum (t t₁ t₂ : Tally) : Prop where
  files : t.files = t₁.files + t₂.files
  offenses : t.offenses = t₁.offenses + t₂.offenses
  passed : t.passed = t₁.passed + t₂.passed
  ofCop : ∀ cop, t.ofCop cop = t₁.ofCop cop + t₂.ofCop cop

theorem getD_lookup_increment (name cop : String) (counts : List (String × Nat)) :
    ((increment name counts).lookup cop).getD 0 =
      (counts.lookup cop).getD 0 + if name = cop then 1 else 0 := by
  induction counts with
  | nil =>
    by_cases h : name = cop
    · simp [increment, h]
    · simp [increment, List.lookup_cons, h, beq_eq_false_iff_ne.mpr (Ne.symm h)]
  | cons entry counts ih =>
    obtain ⟨n, k⟩ := entry
    by_cases hn : n = name
    · subst hn
      by_cases h : n = cop
      · simp [increment, h]
      · simp [increment, List.lookup_cons, h, beq_eq_false_iff_ne.mpr (Ne.symm h)]
    · rw [increment, if_neg hn, List.lookup_cons, List.lookup_cons]
      by_cases h : cop = n
      · have hname : ¬name = cop := fun heq => hn (h ▸ heq.symm)
        simp [h, h ▸ hname]
      · rw [beq_eq_false_iff_ne.mpr h]
        exact ih

/-- Counting offenses adds to each cop those that are its own. -/
theorem getD_lookup_foldl_increment (cop : String) (ds : List Diagnostic)
    (counts : List (String × Nat)) :
    ((ds.foldl (fun counts d => increment d.copName counts) counts).lookup cop).getD 0 =
      (counts.lookup cop).getD 0 + ds.countP (·.copName = cop) := by
  induction ds generalizing counts with
  | nil => rfl
  | cons d ds ih =>
    rw [List.foldl_cons, ih, getD_lookup_increment, List.countP_cons]
    simp only [decide_eq_true_eq]
    omega

theorem ofCop_count (t : Tally) (r : AuditResult) (cop : String) :
    (t.count r).ofCop cop = t.ofCop cop + r.diagnostics.countP (·.copName = cop) :=
  getD_lookup_foldl_increment cop r.diagnostics t.byCop

variable (t : Tally) (rs : List AuditResult)

theorem files_foldl_count : (rs.foldl count t).files = t.files + rs.length := by
  induction rs generalizing t with
  | nil => rfl
  | cons r rs ih =>
    rw [List.foldl_cons, ih, List.length_cons]
    show t.files + 1 + rs.length = t.files + (rs.length + 1)
    omega

theorem offenses_foldl_count :
    (rs.foldl count t).offenses = t.offenses + (rs.flatMap (·.diagnostics)).length := by
  induction rs generalizing t with
  | nil => rfl
  | cons r rs ih =>
    rw [List.foldl_cons, ih, List.flatMap_cons, List.length_append]
    show t.offenses + r.diagnostics.length + _ = t.offenses + (r.diagnostics.length + _)
    omega

theorem passed_foldl_count :
    (rs.foldl count t).passed = t.passed + rs.countP AuditResult.passed := by
  induction rs generalizing t with
  | nil => rfl
  | cons r rs ih =>
    rw [List.foldl_cons, ih, List.countP_cons]
    show (if r.passed then t.passed + 1 else t.passed) + _ = _
    split <;> omega

theorem ofCop_foldl_count (cop : String) :
    (rs.foldl count t).ofCop cop =
      t.ofCop cop + (rs.flatMap (·.diagnostics)).countP (·.copName = cop) := by
  induction rs generalizing t with
  | nil => rfl
  | cons r rs ih =>
    rw [List.foldl_cons, ih, ofCop_count, List.flatMap_cons, List.countP_append]
    omega

/-- Counting the results of two lists gives the sums of their numbers. -/
theorem isSum_foldl_count (rs ss : List AuditResult) :
    IsSum ((rs ++ ss).foldl count {}) (rs.foldl count {}) (ss.foldl count {}) where
  files := by
    simp only [files_foldl_count, List.length_append]
    omega
  offenses := by
    simp only [offenses_foldl_count, List.flatMap_append, List.length_append]
    omega
  passed := by
    simp only [passed_foldl_count, List.countP_append]
    omega
  ofCop cop := by
    have hempty : ({} : Tally).ofCop cop = 0 := rfl
    simp only [ofCop_foldl_count, List.flatMap_append, List.countP_append, hempty]
    omega

end Tally

namespace Auditor

/-! ### The entries of a report -/

/-- The results among some outcomes. -/
def resultsOf (outcomes : List (Except AuditError AuditResult)) : List AuditResult :=
  outcomes.filterMap fun
    | .ok result => some result
    | .error _ => none

/-- The errors among some outcomes. -/
def errorsOf (outcomes : List (Except AuditError AuditResult)) : List AuditError :=
  outcomes.filterMap fun
    | .ok _ => none
    | .error e => some e

/-- Every outcome is either a result or an error. -/
theorem length_resultsOf_add_length_errorsOf
    (outcomes : List (Except AuditError AuditResult)) :
    (resultsOf outcomes).length + (errorsOf outcomes).length = outcomes.length := by
  induction outcomes with
  | nil => rfl
  | cons outcome outcomes ih =>
    cases outcome <;> simp_all [resultsOf, errorsOf] <;> omega

theorem foldl_enter (outcomes : List (Except AuditError AuditResult)) (report : Report) :
    outcomes.foldl enter report =
      { report with
        results := report.results ++ resultsOf outcomes
        errors := report.errors ++ errorsOf outcomes
        tally := (resultsOf outcomes).foldl Tally.count report.tally } := by
  induction outcomes generalizing report with
  | nil => simp [resultsOf, errorsOf]
  | cons outcome outcomes ih =>
    rw [List.foldl_cons, ih]
    cases outcome with
    | ok result => simp [enter, Report.addResult, resultsOf, errorsOf]
    | error e => simp [enter, Report.addError, resultsOf, errorsOf]

theorem collect_eq (a : Auditor) (outcomes : List (Except AuditError AuditResult)) :
    a.collect outcomes =
      { results := resultsOf outcomes
        errors := errorsOf outcomes
        tally := (resultsOf outcomes).foldl Tally.count {}
        timestamp := a.now } := by
  rw [collect, foldl_enter]
  rfl

/-- A report on two lists of outcomes has the entries of the first list before those of
the second, and sums for numbers. -/
theorem collect_append (a : Auditor) (xs ys : List (Except AuditError AuditResult)) :
    (a.collect (xs ++ ys)).results = (a.collect xs).results ++ (a.collect ys).results ∧
      (a.collect (xs ++ ys)).errors = (a.collect xs).errors ++ (a.collect ys).errors ∧
      (a.collect (xs ++ ys)).tally.IsSum (a.collect xs).tally (a.collect ys).tally := by
  have hresults : resultsOf (xs ++ ys) = resultsOf xs ++ resultsOf ys := List.filterMap_append
  have herrors : errorsOf (xs ++ ys) = errorsOf xs ++ errorsOf ys := List.filterMap_append
  simp only [collect_eq, hresults, herrors]
  exact ⟨trivial, trivial, Tally.isSum_foldl_count _ _⟩

end Auditor

end TapLint
