/-
Results and reports as JSON values.
-/
import TapLint.Json.Basic
import TapLint.Report.Basic

namespace TapLint

open Json (ofString?)

/-- A place, without its offsets. -/
def Location.toJson (l : Location) : Json :=
  .object [("path", ofString? l.path), ("line", .int l.line), ("column", .int l.column),
    ("end_line", .int l.endLine), ("end_column", .int l.endColumn)]

/-- An offense. -/
def Diagnostic.toJson (d : Diagnostic) : Json :=
  .object [("cop_name", .string d.copName), ("message", .string d.message),
    ("severity", .string d.severity.name), ("formula_name", ofString? d.formulaName),
    ("location", d.location.toJson)]

/-- The result of an audit. -/
def AuditResult.toJson (r : AuditResult) : Json :=
  .object [("formula_name", ofString? r.formulaName), ("path", ofString? r.path),
    ("passed", .bool r.passed), ("diagnostics_count", .int r.diagnostics.length),
    ("diagnostics", .array (r.diagnostics.map Diagnostic.toJson)),
    ("cops_used", .array (r.copsUsed.map .string)), ("duration_ms", .int r.duration.milliseconds),
    ("timestamp", .string r.timestamp.iso)]

/-- A number, or nothing. -/
def Json.ofInt? : Option Int → Json
  | none => .null
  | some n => .int n

/-- A file that could not be audited. -/
def AuditError.toJson (e : AuditError) : Json :=
  .object [("path", .string e.path), ("message", .string e.message),
    ("line", Json.ofInt? e.line), ("column", Json.ofInt? e.column)]

/-- A report: the tally, the results and the errors. -/
def Report.toJson (report : Report) : Json :=
  .object [
    ("summary", .object [
      ("total_files_audited", .int report.tally.files),
      ("total_diagnostics", .int report.tally.offenses),
      ("passed_files", .int report.tally.passed),
      ("failed_files", .int report.errors.length),
      ("diagnostics_by_cop", .object (report.tally.byCop.map fun c => (c.1, .int c.2))),
      ("timestamp", .string report.timestamp.iso)]),
    ("results", .array (report.results.map AuditResult.toJson)),
    ("errors", .array (report.errors.map AuditError.toJson))]

end TapLint
