/-
The commands, step by step.

A command is a chain of steps, each of which may meet an obstacle.  What comes of the chain is
decided by its values; the events on the way are only shown:

* `value_run_bind`, `value_auditReport` — the chain of an audit;
* `audit_of_obstacle`, `audit_of_report` — what an audit makes of its outcome;
* `listCops_of_obstacle` — likewise for the list of the cops.
-/
import TapLint.CommandLine.Run

namespace TapLint.CommandLine

/-- The settings of a run. -/
def Surroundings.settings (w : Surroundings) : Settings := (Settings.fill w.environment {}).value

/-- The path of the policy for an audit: the one that is asked for, else that of the
environment. -/
def AuditOptions.policyPath (o : AuditOptions) (w : Surroundings) : Option String :=
  (o.policy.filter (!·.isEmpty)).or w.settings.policyPath

/-- The auditor with some cops. -/
def Surroundings.auditor (w : Surroundings) (cops : List Cop) : Auditor :=
  { reader := w.reader, cops, limit := w.settings.maxFileSize, workers := w.settings.maxWorkers
    now := w.now }

variable {w : Surroundings} {o : AuditOptions}

/-! ### Steps -/

/-- The first obstacle ends the work. -/
theorem value_run_bind {α β : Type} (x : Work α) (f : α → Work β) :
    (x >>= f).run.value = x.run.value >>= fun a => (f a).run.value := by
  obtain ⟨value, events⟩ := x
  cases value <;> rfl

/-- Without a path, or with an empty one, the built-in policy is loaded. -/
theorem value_loadPolicy (w : Surroundings) (path : Option String) :
    (loadPolicy w path).run.value =
      match path.filter (!·.isEmpty) with
      | none => .ok .builtIn
      | some p =>
        (Policy.ofFile w.yaml w.host w.files (Path.ofString p)).value.mapError .policy := by
  rw [loadPolicy]
  cases path.filter (!·.isEmpty) with
  | none => rfl
  | some p =>
    simp only [value_run_bind]
    exact bind_pure _

theorem value_auditReport :
    (auditReport w o w.settings).run.value =
      (loadPolicy w (o.policyPath w)).run.value >>= fun policy =>
      (policy.select o.only).value.mapError .cops >>= fun cops =>
      formatOf o w.settings >>= fun format =>
      ((w.auditor cops).auditPathsOn w.host w.files o.recursive o.paths).value.mapError .audit >>=
        fun report => .ok (report, format) := by
  simp only [auditReport, value_run_bind]
  rfl

/-! ### Complaints -/

theorem complaint_policy_of_some {why : PolicyFileError} {line : String}
    (h : policyComplaint? why = some line) : (Obstacle.policy why).complaint = .ok line := by
  rw [Obstacle.complaint, h]

theorem complaint_policy_of_none {why : PolicyFileError} (h : policyComplaint? why = none) :
    (Obstacle.policy why).complaint = .error (.policy why) := by
  rw [Obstacle.complaint, h]

/-! ### Outcomes -/

/-- The lines that an audit shows on its way. -/
def auditLines (w : Surroundings) (o : AuditOptions) : List String :=
  shownEvents (threshold o w.settings) (auditReport w o w.settings).run.events

theorem audit_of_obstacle {obstacle : Obstacle}
    (h : (auditReport w o w.settings).run.value = .error obstacle) :
    audit w o = obstacle.complaint >>= fun line =>
      .ok { ending := .verdict 1, messages := unlines (auditLines w o ++ [line]) } := by
  rw [audit, ← Surroundings.settings]
  simp only [h]
  rfl

theorem listCops_of_obstacle {path : Option String} {obstacle : Obstacle}
    (h : (loadPolicy w path).run.value = .error obstacle) :
    listCops w path = obstacle.complaint >>= fun line =>
      .ok { ending := .verdict 1, messages := unlines [line] } := by
  rw [listCops, h]
  rfl

end TapLint.CommandLine
