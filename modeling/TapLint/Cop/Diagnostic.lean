/-
What a cop reports.
-/
import TapLint.Cop.Severity
import TapLint.Syntax.Node

namespace TapLint

/-- One offense, with the place where it stands. -/
structure Diagnostic where
  copName : String
  message : String
  location : Location
  severity : Severity := .convention
  formulaName : Option String := none
  deriving Repr, DecidableEq

namespace Diagnostic

/-- The file that the offense is in. -/
def path (d : Diagnostic) : Option String := d.location.path

end Diagnostic

end TapLint
