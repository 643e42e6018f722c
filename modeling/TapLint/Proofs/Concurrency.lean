/-
Many workers give the report of one.

The files of an audit are examined by a pool, in whatever order its workers come to
them, and the report is collected from the outcomes in the order of the files.  So the
report says nothing about how it went:

* `examineAll_eq` — what a pool that has finished hands back;
* `value_auditPathsBy`, `value_auditPaths` — the report of an audit, as it is collected
  from the files one after the other.

The main statement is `auditPathsBy_eq_sequential`.
-/
import TapLint.Proofs.Conversion
import TapLint.Proofs.Pool
import TapLint.Proofs.Reports

namespace TapLint.Auditor

variable {a : Auditor} {files : Files} {schedule : Nat → List Action}

/-- What comes of examining a file. -/
def outcome (a : Auditor) (files : Files) (path : Path) : Except AuditError AuditResult :=
  (a.examine files path).value

/-- A pool that has finished hands the outcomes back in the order of the files. -/
theorem examineBy_eq {found : List Path} {actions : List Action}
    (h : Pool.Finishes a.workers.toNat found.length actions) :
    a.examineBy files found actions = found.map (a.examine files) := by
  rw [examineBy, Pool.outcomes_perform h]
  refine List.ext_getElem (by simp) fun i hi hi' => ?_
  simp only [List.length_map, List.length_range] at hi
  simp [hi]

theorem examineAll_eq {found : List Path}
    (h : 1 < a.workers → 1 < found.length →
      Pool.Finishes a.workers.toNat found.length (schedule found.length)) :
    a.examineAll schedule files found = found.map (a.examine files) := by
  rw [examineAll]
  split
  next hpool => exact examineBy_eq (h hpool.1 hpool.2)
  next => rfl

/-- The report of an audit whose pool finishes is collected from the outcomes of the
files that were found, in the order in which they were found. -/
theorem value_auditPathsBy {recursive : Bool} {paths : List String}
    (h : ∀ found, files.discover recursive paths = .ok found →
      1 < a.workers → 1 < found.length →
      Pool.Finishes a.workers.toNat found.length (schedule found.length)) :
    (a.auditPathsBy schedule files recursive paths).value =
      (files.discover recursive paths).map fun found =>
        a.collect (found.map (a.outcome files)) := by
  rw [auditPathsBy]
  cases hfound : files.discover recursive paths with
  | error e => rfl
  | ok found =>
    simp only [examineAll_eq (h found hfound), Logged.value_bind, Logged.value_forEach,
      Logged.value_pure, List.map_map]
    rfl

/-- Keeping all workers busy is a schedule that finishes. -/
theorem finishes_steadily_workers {n : Nat} (hworkers : 1 < a.workers) (hn : 1 < n) :
    Pool.Finishes a.workers.toNat n (Pool.steadily (min a.workers.toNat n) n) := by
  have hpos : 0 < a.workers.toNat := by omega
  exact Pool.finishes_steadily (by omega) (Nat.min_le_right _ _) (Nat.min_le_left _ _)

theorem value_auditPaths (a : Auditor) (files : Files) (recursive : Bool) (paths : List String) :
    (a.auditPaths files recursive paths).value =
      (files.discover recursive paths).map fun found => a.collect (found.map (a.outcome files)) :=
  value_auditPathsBy fun _ _ hworkers hfound => finishes_steadily_workers hworkers hfound

/-- **Concurrency does not show in a report.**  Whatever a finished pool did, in whatever
order its workers took the files and were done with them, the audit gives the report of
an audit with one worker; so it does with any number of workers.  In this report every
file that was found has one entry, which is a result or an error, and both are in the
order in which the files were found. -/
theorem auditPathsBy_eq_sequential (a : Auditor) (schedule : Nat → List Action) (files : Files)
    (recursive : Bool) (paths : List String)
    (hfinishes : ∀ found, files.discover recursive paths = .ok found →
      1 < a.workers → 1 < found.length →
      Pool.Finishes a.workers.toNat found.length (schedule found.length)) :
    (a.auditPathsBy schedule files recursive paths).value =
        ({ a with workers := 1 }.auditPaths files recursive paths).value ∧
      (∀ workers, ({ a with workers := workers }.auditPaths files recursive paths).value =
        ({ a with workers := 1 }.auditPaths files recursive paths).value) ∧
      ∀ found, files.discover recursive paths = .ok found →
        ∃ report, (a.auditPathsBy schedule files recursive paths).value = .ok report ∧
          report.results = resultsOf (found.map (a.outcome files)) ∧
          report.errors = errorsOf (found.map (a.outcome files)) ∧
          report.results.length + report.errors.length = found.length := by
  have hreport := value_auditPathsBy hfinishes
  refine ⟨?_, fun workers => ?_, fun found hfound => ?_⟩
  · rw [hreport, value_auditPaths]
    rfl
  · rw [value_auditPaths, value_auditPaths]
    rfl
  · rw [hfound] at hreport
    refine ⟨a.collect (found.map (a.outcome files)), hreport, ?_, ?_, ?_⟩
    · rw [collect_eq]
    · rw [collect_eq]
    · rw [collect_eq, length_resultsOf_add_length_errorsOf, List.length_map]

/-! ### The sample -/

/-- Two files that can be read, and one between them that is no text. -/
def sampleFiles : Files :=
  { root := .directory [
      ("a.rb", .file [0x23, 0x0A]),
      ("b.rb", .file [0xFF]),
      ("c.rb", .file [])]
    here := [] }

/-- An auditor with two workers who takes every text for the sample. -/
def sampleAuditor : Auditor :=
  { reader := fun _ => Ruby.Tree.sample
    cops := [{ rule := UsesFromMacos.rule }]
    workers := 2
    now := default }

/-- The last file is taken first and finished last. -/
def sampleSchedule : List Action :=
  [.start 2, .start 0, .finish 0, .start 1, .finish 1, .finish 2]

theorem auditPathsBy_sampleFiles :
    Pool.Finishes 2 3 sampleSchedule ∧
      ∃ report, (sampleAuditor.auditPathsBy (fun _ => sampleSchedule) sampleFiles false
          ["a.rb", "b.rb", "c.rb"]).value = .ok report ∧
        ({ sampleAuditor with workers := 1 }.auditPaths sampleFiles false
          ["a.rb", "b.rb", "c.rb"]).value = .ok report ∧
        report.results.map (·.path) = [some "a.rb", some "c.rb"] ∧
        report.errors.map (·.path) = ["b.rb"] := by
  have hfinishes : Pool.Finishes 2 3 sampleSchedule := by decide
  have hfound : sampleFiles.discover false ["a.rb", "b.rb", "c.rb"] =
      .ok [⟨0, ["a.rb"]⟩, ⟨0, ["b.rb"]⟩, ⟨0, ["c.rb"]⟩] := by rfl
  obtain ⟨hsame, -, hentries⟩ := auditPathsBy_eq_sequential sampleAuditor
    (fun _ => sampleSchedule) sampleFiles false ["a.rb", "b.rb", "c.rb"]
    fun found h _ _ => by
      rw [hfound] at h
      cases h
      exact hfinishes
  obtain ⟨report, hreport, hresults, herrors, -⟩ := hentries _ hfound
  refine ⟨hfinishes, report, hreport, hsame ▸ hreport, ?_, ?_⟩
  · rw [hresults]
    decide +kernel
  · rw [herrors]
    decide +kernel

end TapLint.Auditor
