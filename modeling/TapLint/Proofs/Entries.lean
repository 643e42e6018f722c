/-
The entries of a report, and the files that they come from.

A report lists the diagnostics and the errors of many files together.  Here each of them is taken
back to its file:

* `outcome_eq` — what comes of a file, by the formula that it holds (`formulaAt`);
* `value_auditPaths_eq_ok_iff` — what a report is about;
* `mem_diagnostics_iff`, `mem_errors_iff` — the entries of the report on some files;
* `path_of_mem_evaluate` — a diagnostic is at a place in the file of its formula.
-/
import TapLint.Proofs.Isolation
import TapLint.Proofs.ReadingOrder

namespace TapLint.Auditor

section

variable {outcomes : List (Except AuditError AuditResult)}

theorem mem_resultsOf_iff {r : AuditResult} : r ∈ resultsOf outcomes ↔ .ok r ∈ outcomes := by
  rw [resultsOf, List.mem_filterMap]
  constructor
  · rintro ⟨outcome, hmem, h⟩
    cases outcome with
    | ok result =>
      cases h
      exact hmem
    | error e => cases h
  · intro hmem
    exact ⟨.ok r, hmem, rfl⟩

theorem mem_errorsOf_iff {e : AuditError} : e ∈ errorsOf outcomes ↔ .error e ∈ outcomes := by
  rw [errorsOf, List.mem_filterMap]
  constructor
  · rintro ⟨outcome, hmem, h⟩
    cases outcome with
    | ok result => cases h
    | error why =>
      cases h
      exact hmem
  · intro hmem
    exact ⟨.error e, hmem, rfl⟩

end

variable (a : Auditor) {files : Files} {found : List Path} {path : Path} {f : Formula}

/-! ### What a file holds -/

/-- The formula that a file holds, or why it cannot be loaded. -/
def formulaAt (files : Files) (path : Path) : Except Formula.LoadError Formula :=
  (Formula.ofFile a.reader files a.limit path).value

/-- The entry for a file that cannot be loaded. -/
def errorOf (path : Path) : Formula.LoadError → AuditError
  | .malformed why =>
    { path := path.shown, message := why.message, line := some why.line, column := some why.column }
  | .unreadable why => { path := path.shown, message := why.message }

theorem outcome_eq (files : Files) (path : Path) :
    a.outcome files path =
      match a.formulaAt files path with
      | .ok f => .ok (a.audit f).value
      | .error why => .error (errorOf path why) := by
  have hfile := a.value_auditFileAs files path path.shown
  rw [outcome, examine, Logged.value_bind, hfile, ← formulaAt]
  cases a.formulaAt files path with
  | ok f => rfl
  | error why => cases why <;> rfl

/-- A formula from a file is what the tree of some text defines, under the printed path. -/
theorem exists_text_of_formulaAt (h : a.formulaAt files path = .ok f) :
    ∃ text, f = (Formula.ofRoot (Node.ofTree (.ofText (some path.shown) text) (a.reader text))
      (some path.shown) (some path.stem)).value := by
  cases htext : Formula.readText files a.limit path with
  | error why =>
    rw [formulaAt, Formula.ofFile, htext] at h
    cases h
  | ok text =>
    refine ⟨text, ?_⟩
    rw [formulaAt, Formula.value_ofFile htext] at h
    cases herror : (a.reader text).hasError with
    | false =>
      rw [Formula.value_ofSource herror] at h
      exact (Except.ok.inj h).symm
    | true =>
      rw [Formula.ofSource, Node.parse, Node.parseTree, if_pos herror] at h
      cases h

/-- What keeps a file from being loaded speaks of its printed path. -/
theorem path_of_formulaAt_eq_malformed {why : SyntaxError}
    (h : a.formulaAt files path = .error (.malformed why)) : why.path = some path.shown := by
  cases htext : Formula.readText files a.limit path with
  | error why' =>
    rw [formulaAt, Formula.ofFile, htext] at h
    cases h
  | ok text =>
    rw [formulaAt, Formula.value_ofFile htext, Formula.ofSource, Node.parse, Node.parseTree] at h
    split at h
    next hparse =>
      cases h
      split at hparse
      · cases hparse
        rfl
      · cases hparse
    next => cases h

/-- A file that cannot be read has no text. -/
theorem readText_of_formulaAt_eq_unreadable {why : ReadError}
    (h : a.formulaAt files path = .error (.unreadable why)) :
    Formula.readText files a.limit path = .error why := by
  cases htext : Formula.readText files a.limit path with
  | error why' =>
    rw [formulaAt, Formula.ofFile, htext] at h
    cases h
    rfl
  | ok text =>
    have hread := Formula.exists_ofFile_eq_unreadable_iff.mp ⟨why, h⟩
    rw [htext] at hread
    obtain ⟨why', ⟨⟩⟩ := hread

/-! ### The report on some files -/

/-- A report is about the files that the paths lead to. -/
theorem value_auditPaths_eq_ok_iff {recursive : Bool} {paths : List String} {report : Report} :
    (a.auditPaths files recursive paths).value = .ok report ↔
      ∃ found, files.discover recursive paths = .ok found ∧
        report = a.collect (found.map (a.outcome files)) := by
  constructor
  · intro h
    rw [value_auditPaths] at h
    cases hfound : files.discover recursive paths with
    | error e =>
      rw [hfound] at h
      cases h
    | ok found =>
      rw [hfound] at h
      exact ⟨found, rfl, (Except.ok.inj h).symm⟩
  · rintro ⟨found, hfound, rfl⟩
    exact a.value_auditPaths_of_discover hfound

/-- The diagnostics of a report are those that the cops have for the formulae in its files. -/
theorem mem_diagnostics_iff {d : Diagnostic} :
    d ∈ (a.collect (found.map (a.outcome files))).diagnostics ↔
      ∃ path ∈ found, ∃ f, a.formulaAt files path = .ok f ∧
        ∃ c ∈ a.cops, d ∈ (c.evaluate f).value := by
  rw [Report.diagnostics, collect_eq, List.mem_flatMap]
  simp only [mem_resultsOf_iff, List.mem_map, outcome_eq]
  constructor
  · rintro ⟨r, ⟨path, hpath, hresult⟩, hd⟩
    split at hresult
    next f hf =>
      cases hresult
      exact ⟨path, hpath, f, hf, a.mem_diagnostics_audit_iff.mp hd⟩
    next => cases hresult
  · rintro ⟨path, hpath, f, hf, hd⟩
    refine ⟨(a.audit f).value, ⟨path, hpath, ?_⟩, a.mem_diagnostics_audit_iff.mpr hd⟩
    rw [hf]

/-- The errors of a report are those of its files that cannot be loaded. -/
theorem mem_errors_iff {e : AuditError} :
    e ∈ (a.collect (found.map (a.outcome files))).errors ↔
      ∃ path ∈ found, ∃ why, a.formulaAt files path = .error why ∧ e = errorOf path why := by
  rw [collect_eq]
  simp only [mem_errorsOf_iff, List.mem_map, outcome_eq]
  constructor
  · rintro ⟨path, hpath, herror⟩
    split at herror
    next => cases herror
    next why hwhy =>
      cases herror
      exact ⟨path, hpath, why, hwhy, rfl⟩
  · rintro ⟨path, hpath, why, hwhy, rfl⟩
    refine ⟨path, hpath, ?_⟩
    rw [hwhy]

/-- A diagnostic is at a place in the file of the formula that it is about. -/
theorem path_of_mem_evaluate {c : Cop} (hc : c.rule.FollowsWalk)
    (h : a.formulaAt files path = .ok f) {d : Diagnostic} (hd : d ∈ (c.evaluate f).value) :
    d.location.path = some path.shown := by
  obtain ⟨text, rfl⟩ := a.exists_text_of_formulaAt h
  obtain ⟨body, n, hbody, hn, hlocation⟩ := Cop.exists_node_of_mem_evaluate hc hd
  obtain ⟨cls, hfirst, hcls⟩ := Formula.body_ofRoot_eq_some_iff.mp hbody
  rw [Node.walk, Rose.walk_eq_preorder] at hn
  rw [hlocation]
  exact Node.path_location_of_mem (Node.mem_preorder_of_body hfirst.mem_preorder hcls hn)

end TapLint.Auditor
