/-
Auditing formulae.

* `Auditor.audit` — one formula;
* `Auditor.auditSource`, `Auditor.auditFile` — one text, one file;
* `Auditor.auditPaths` — many files, with a report that also has the files that
  could not be audited; `Auditor.auditPathsBy` leaves open how it goes among the
  workers;
* `Auditor.auditPathsOn` — the same on a host that does not let everything be done.
-/
import TapLint.Audit.Pool
import TapLint.Files.Discovery
import TapLint.Formula.Basic
import TapLint.Host
import TapLint.Policy.OfValue
import TapLint.Report.Basic

namespace TapLint

/-- What an audit needs. -/
structure Auditor where
  reader : TreeReader
  cops : List Cop
  /-- The size of the largest file that is read, in units of 1024 bytes. -/
  limit : Int := 512
  /-- How many files may be audited at a time. -/
  workers : Int := 1
  /-- The time that results are stamped with. -/
  now : Moment

/-- What an audit of many files may break off at. -/
inductive AuditStop where
  /-- A path leads nowhere. -/
  | path (why : ReadError)
  /-- The host does not let a path be looked at. -/
  | refused (why : String)
  /-- A file nests deeper than calls may be nested. -/
  | tooDeep (path : String)
  deriving Repr, DecidableEq

/-- The wording of what an audit breaks off at. -/
def AuditStop.message : AuditStop → String
  | path why => why.message
  | refused why => why
  | tooDeep _ => "maximum recursion depth exceeded"

/-- Whether a diagnostic comes before another, or may: by the offset of its place,
then by the name of its cop. -/
def Diagnostic.precedes (a b : Diagnostic) : Bool :=
  a.location.start < b.location.start ||
    (a.location.start == b.location.start && decide (a.copName ≤ b.copName))

namespace Auditor

/-- Audits a formula: all that the cops report, ordered by place. -/
def audit (a : Auditor) (f : Formula) : Logged AuditResult := do
  let found ← Logged.forEach (fun c => Cop.evaluate c f) a.cops
  pure
    { formulaName := some f.name
      path := f.path
      diagnostics := found.flatten.mergeSort Diagnostic.precedes
      copsUsed := a.cops.map Cop.name
      timestamp := a.now }

/-- Audits a text. -/
def auditSource (a : Auditor) (text : String) (path name : Option String) :
    Logged (Except SyntaxError AuditResult) := do
  match ← Formula.ofSource a.reader text path name with
  | .error e => pure (.error e)
  | .ok f => .ok <$> a.audit f

/-- Audits a file, which is called `name` in the log. -/
def auditFileAs (a : Auditor) (files : Files) (path : Path) (name : String) :
    Logged (Except Formula.LoadError AuditResult) := do
  match ← Formula.ofFile a.reader files a.limit path with
  | .error e => pure (.error e)
  | .ok f =>
    unless f.isFormula do Logged.report (.nothingToAudit name)
    let result ← a.audit f
    Logged.report (.audited name result.diagnostics.length)
    pure (.ok result)

/-- Audits a file that is given as it is written. -/
def auditFile (a : Auditor) (files : Files) (path : String) :
    Logged (Except Formula.LoadError AuditResult) :=
  a.auditFileAs files (Path.ofString path) path

/-- Audits a file and turns a failure into an entry for the report. -/
def examine (a : Auditor) (files : Files) (path : Path) :
    Logged (Except AuditError AuditResult) := do
  match ← a.auditFileAs files path path.shown with
  | .ok result => pure (.ok result)
  | .error (.malformed why) =>
    Logged.report (.parseFailed path.shown why)
    pure (.error { path := path.shown, message := why.message,
                   line := some why.line, column := some why.column })
  | .error (.unreadable why) =>
    Logged.report (.loadFailed path.shown why)
    pure (.error { path := path.shown, message := why.message })

/-- Examines files by a pool of workers, in which things happen as `actions`
say. -/
def examineBy (a : Auditor) (files : Files) (paths : List Path) (actions : List Action) :
    List (Logged (Except AuditError AuditResult)) :=
  let tasks := paths.toArray
  let task (i : Nat) := a.examine files (tasks[i]?.getD default)
  ((Pool.ofSize paths.length).perform a.workers.toNat task actions).outcomes

/-- Examines files, by a pool if there may be several workers.  What happens in a
pool of so many tasks is for `schedule` to say. -/
def examineAll (a : Auditor) (schedule : Nat → List Action) (files : Files) (paths : List Path) :
    List (Logged (Except AuditError AuditResult)) :=
  if 1 < a.workers ∧ 1 < paths.length then a.examineBy files paths (schedule paths.length)
  else paths.map (a.examine files)

/-- Adds what came of one file to a report. -/
def enter (report : Report) : Except AuditError AuditResult → Report
  | .ok result => report.addResult result
  | .error e => report.addError e

/-- The report on files that were examined. -/
def collect (a : Auditor) (outcomes : List (Except AuditError AuditResult)) : Report :=
  outcomes.foldl enter { timestamp := a.now }

/-- Audits the files that some paths stand for, where a schedule says how it goes
among the workers.  Only a path that leads nowhere is an error of the whole. -/
def auditPathsBy (a : Auditor) (schedule : Nat → List Action) (files : Files) (recursive : Bool)
    (paths : List String) : Logged (Except ReadError Report) :=
  match files.discover recursive paths with
  | .error e => pure (.error e)
  | .ok found => do
    let outcomes ← Logged.forEach id (a.examineAll schedule files found)
    pure (.ok (a.collect outcomes))

/-- Audits the files that some paths stand for, with all workers busy. -/
def auditPaths (a : Auditor) (files : Files) (recursive : Bool) (paths : List String) :
    Logged (Except ReadError Report) :=
  a.auditPathsBy (fun n => Pool.steadily (min a.workers.toNat n) n) files recursive paths

/-! ### On a host -/

/-- The first of some files that nests too deep for a host. -/
def tooDeep? (a : Auditor) (host : Host) (files : Files) (found : List Path) : Option Path :=
  found.find? fun p =>
    host.callsFor a.workers found.length < Formula.callDepth a.reader files a.limit p

/-- Audits the files that some paths stand for, on a host. -/
def auditPathsOn (a : Auditor) (host : Host) (files : Files) (recursive : Bool)
    (paths : List String) : Logged (Except AuditStop Report) :=
  match host.firstRefusal? files paths with
  | some why => pure (.error (.refused why))
  | none =>
    match (files.discover recursive paths).toOption.bind (a.tooDeep? host files) with
    | some p => pure (.error (.tooDeep p.shown))
    | none => (·.mapError .path) <$> a.auditPaths files recursive paths

end Auditor

end TapLint
