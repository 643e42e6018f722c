/-
Reports: what came of an audit of files.

A report has the results and the errors in the order in which they came, and a
tally that is kept as they come.

* `Report.addResult`, `Report.addError` — what happens to a report;
* `AuditResult.maxSeverity`, `AuditResult.ofCop` — views of one result.
-/
import TapLint.Cop.Diagnostic
import TapLint.Data.Duration
import TapLint.Data.Moment

namespace TapLint

/-- What came of auditing one formula. -/
structure AuditResult where
  formulaName : Option String
  path : Option String := none
  diagnostics : List Diagnostic := []
  /-- The names of the cops that were asked. -/
  copsUsed : List String := []
  /-- How long it took. -/
  duration : Duration := .whole 0
  timestamp : Moment
  deriving Repr, DecidableEq

namespace AuditResult

/-- Whether there was nothing to report. -/
def passed (r : AuditResult) : Bool := r.diagnostics.isEmpty

/-- The severity of the most serious offense. -/
def maxSeverity (r : AuditResult) : Option Severity :=
  Severity.maximum? (r.diagnostics.map (·.severity))

/-- The offenses that one cop reported. -/
def ofCop (r : AuditResult) (cop : String) : List Diagnostic :=
  r.diagnostics.filter (·.copName == cop)

end AuditResult

/-- A file whose audit came to nothing. -/
structure AuditError where
  path : String
  message : String
  line : Option Int := none
  column : Option Int := none
  deriving Repr, DecidableEq

/-- The numbers that a report begins with. -/
structure Tally where
  /-- The number of results. -/
  files : Nat := 0
  /-- The number of offenses. -/
  offenses : Nat := 0
  /-- The number of results without an offense. -/
  passed : Nat := 0
  /-- The number of offenses by cop, in the order in which the cops came up. -/
  byCop : List (String × Nat) := []
  deriving Repr, DecidableEq

namespace Tally

/-- Counts one more occurrence of a name. -/
def increment (name : String) : List (String × Nat) → List (String × Nat)
  | [] => [(name, 1)]
  | (n, k) :: rest => if n = name then (n, k + 1) :: rest else (n, k) :: increment name rest

/-- Counts a result. -/
def count (t : Tally) (r : AuditResult) : Tally :=
  { files := t.files + 1
    offenses := t.offenses + r.diagnostics.length
    passed := if r.passed then t.passed + 1 else t.passed
    byCop := r.diagnostics.foldl (fun counts d => increment d.copName counts) t.byCop }

end Tally

/-- What came of auditing some files. -/
structure Report where
  results : List AuditResult := []
  errors : List AuditError := []
  tally : Tally := {}
  timestamp : Moment
  deriving Repr, DecidableEq

namespace Report

/-- The report with a further result. -/
def addResult (report : Report) (r : AuditResult) : Report :=
  { report with
    results := report.results ++ [r]
    tally := report.tally.count r }

/-- The report with a further error. -/
def addError (report : Report) (e : AuditError) : Report :=
  { report with errors := report.errors ++ [e] }

/-- All offenses, in the order of the results. -/
def diagnostics (report : Report) : List Diagnostic :=
  report.results.flatMap (·.diagnostics)

end Report

end TapLint
