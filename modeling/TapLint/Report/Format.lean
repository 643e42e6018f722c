/-
The formats of reports.
-/
import TapLint.Report.Sarif
import TapLint.Report.Summary

namespace TapLint

/-- The formats that a command can be asked for. -/
inductive Format where
  | summary
  | json
  | sarif
  deriving Repr, DecidableEq

namespace Format

/-- The formats, in the order in which they are offered. -/
def all : List Format := [summary, json, sarif]

/-- The name of a format. -/
def name : Format → String
  | summary => "summary"
  | json => "json"
  | sarif => "sarif"

/-- The format with a name. -/
def ofName? (s : String) : Option Format := all.find? (·.name == s)

end Format

/-- A report in a format. -/
def Report.render (report : Report) : Format → String
  | .summary => report.summary
  | .json => report.toJson.pretty
  | .sarif => (report.toSarif {}).pretty

end TapLint
