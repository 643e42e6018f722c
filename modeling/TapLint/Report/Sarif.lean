/-
Reports in the Static Analysis Results Interchange Format, version 2.1.0.

A log has one run.  The run names the tool with the rules that were broken, and
gives one result for each offense.

* `Sarif.log` — the log for some offenses;
* `Report.toSarif`, `AuditResult.toSarif` — the logs of a report and of a result.
-/
import TapLint.Cop.Catalogue
import TapLint.Report.Json

namespace TapLint

namespace Sarif

/-- The version of the format. -/
def version : String := "2.1.0"

/-- Where the schema of the format is found. -/
def schema : String :=
  "https://raw.githubusercontent.com/oasis-tcs/sarif-spec/master/Schemata/sarif-schema-2.1.0.json"

/-- A tool with its version. -/
structure Tool where
  name : String := "formula-cops"
  version : String := "0.1.0"
  deriving Repr, DecidableEq

/-- The level that stands for a severity. -/
def level : Severity → String
  | .fatal | .error => "error"
  | .warning => "warning"
  | .convention | .refactor | .info => "note"

/-- A name without its department. -/
def shortName (name : String) : String :=
  String.ofList (name.toList.reverse.takeWhile (· ≠ '/')).reverse

/-- What a rule asks for; of an unknown one only its name can be said. -/
def description (cop : String) : String :=
  match Rule.named? cop with
  | some rule => rule.description
  | none => cop

/-- The first offense of each cop that is not among those met before. -/
def newcomers (met : List String) : List Diagnostic → List Diagnostic
  | [] => []
  | d :: ds =>
    if d.copName ∈ met then newcomers met ds else d :: newcomers (d.copName :: met) ds

/-- The first offense of each cop. -/
def representatives (ds : List Diagnostic) : List Diagnostic := newcomers [] ds

/-- A rule, with the level of an offense against it. -/
def rule (d : Diagnostic) : Json :=
  .object [("id", .string d.copName), ("name", .string (shortName d.copName)),
    ("shortDescription", .object [("text", .string (description d.copName))]),
    ("defaultConfiguration", .object [("level", .string (level d.severity))])]

/-- The file that a formula is expected in. -/
def expectedFile (formula : Option String) : String := formula.getD "None" ++ ".rb"

/-- The file that an offense is in; one without a path is in the file that its
formula is expected in. -/
def uri (d : Diagnostic) : String :=
  match d.path with
  | some p => if p.isEmpty then expectedFile d.formulaName else p
  | none => expectedFile d.formulaName

/-- An offense. -/
def result (d : Diagnostic) : Json :=
  .object [("ruleId", .string d.copName), ("level", .string (level d.severity)),
    ("message", .object [("text", .string d.message)]),
    ("properties", .object [("severity", .string d.severity.name),
      ("formula", Json.ofString? d.formulaName)]),
    ("locations", .array [.object [("physicalLocation", .object [
      ("artifactLocation", .object [("uri", .string (uri d)),
        ("uriBaseId", .string "%SRCROOT%")]),
      ("region", .object [("startLine", .int d.location.line),
        ("startColumn", .int d.location.column), ("endLine", .int d.location.endLine),
        ("endColumn", .int d.location.endColumn)])])]])]

/-- The log for some offenses. -/
def log (tool : Tool) (ds : List Diagnostic) (time : Moment) : Json :=
  .object [("$schema", .string schema), ("version", .string version),
    ("runs", .array [.object [
      ("tool", .object [("driver", .object [("name", .string tool.name),
        ("version", .string tool.version),
        ("rules", .array ((representatives ds).map rule))])]),
      ("results", .array (ds.map result)),
      ("invocations", .array [.object [("executionSuccessful", .bool true),
        ("endTimeUtc", .string (time.iso ++ "Z"))]])]])]

end Sarif

/-- The log of one result. -/
def AuditResult.toSarif (tool : Sarif.Tool) (r : AuditResult) : Json :=
  Sarif.log tool r.diagnostics r.timestamp

/-- The log of a report. -/
def Report.toSarif (tool : Sarif.Tool) (report : Report) : Json :=
  Sarif.log tool report.diagnostics report.timestamp

end TapLint
