/-
Reports as text for people.

A line for each offense, a line for each error, an empty line if there was any
of them, and the totals.
-/
import TapLint.Report.Basic

namespace TapLint.Report

/-- The ending of a noun. -/
def plural (n : Nat) : String := if n = 1 then "" else "s"

/-- The line for an offense. -/
def offenseLine (d : Diagnostic) : String :=
  d.location.shown ++ ": " ++ d.severity.code ++ ": " ++ d.copName ++ ": " ++ d.message

/-- Where an error is.  Without a line, or in line zero, it concerns the file. -/
def errorPlace (e : AuditError) : String :=
  match e.line with
  | none => e.path
  | some line =>
    if line = 0 then e.path
    else e.path ++ ":" ++ toString line ++ ":" ++ (e.column.map toString).getD "None"

/-- The line for an error. -/
def errorLine (e : AuditError) : String :=
  errorPlace e ++ ": F: Lint/Syntax: " ++ e.message

/-- The line with the totals. -/
def totalsLine (t : Tally) : String :=
  toString t.files ++ " file" ++ plural t.files ++ " inspected, " ++
    (if t.offenses = 0 then "no" else toString t.offenses) ++ " offense" ++ plural t.offenses ++
    " detected"

/-- The line with the number of errors. -/
def errorsLine (n : Nat) : String :=
  toString n ++ " file" ++ plural n ++ " could not be audited"

/-- The lines of a summary. -/
def summaryLines (report : Report) : List String :=
  let details := report.diagnostics.map offenseLine ++ report.errors.map errorLine
  details ++ (if details.isEmpty then [] else [""]) ++ [totalsLine report.tally] ++
    (if report.errors.isEmpty then [] else [errorsLine report.errors.length])

/-- A report as text. -/
def summary (report : Report) : String := String.intercalate "\n" report.summaryLines

end TapLint.Report
