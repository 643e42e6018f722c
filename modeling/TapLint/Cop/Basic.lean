/-
Cops: rules that look for offenses in the body of a formula.

A rule says which calls offend and why; a cop is a rule with the severity that
its offenses get.  A formula without a body has nothing to offend.
-/
import TapLint.Cop.Diagnostic
import TapLint.Formula.Basic

namespace TapLint

/-- A rule for formulae. -/
structure Rule where
  /-- The qualified name: a department, a slash and a name. -/
  name : String
  /-- What the rule asks for. -/
  description : String
  /-- The messages, each with the call it is about, for a formula and its body. -/
  offenses : Formula → Node → Logged (List (String × Node))

/-- A rule with the severity of its offenses. -/
structure Cop where
  rule : Rule
  severity : Severity := .convention

namespace Cop

/-- The qualified name of a cop. -/
def name (c : Cop) : String := c.rule.name

/-- The diagnostic for an offense. -/
def problem (c : Cop) (f : Formula) (offense : String × Node) : Diagnostic :=
  { copName := c.name
    message := offense.1
    location := offense.2.location
    severity := c.severity
    formulaName := some f.name }

/-- The diagnostics of a cop for a formula, in source order. -/
def evaluate (c : Cop) (f : Formula) : Logged (List Diagnostic) :=
  match f.body with
  | none => pure []
  | some body => (fun offenses => offenses.map (c.problem f)) <$> c.rule.offenses f body

end Cop

end TapLint
