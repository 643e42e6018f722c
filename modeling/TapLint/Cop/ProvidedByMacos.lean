/-
The rule for formulae that call themselves provided by macOS.

A formula that is `keg_only :provided_by_macos` has to be registered as such.
-/
import TapLint.Cop.Basic
import TapLint.Formula.Provided

namespace TapLint.ProvidedByMacos

/-- What is said of a formula that is not registered. -/
def message : String :=
  "Formulae that are `keg_only :provided_by_macos` should be added to the " ++
    "`PROVIDED_BY_MACOS_FORMULAE` list (in the Homebrew/brew repository)"

/-- What is said of the calls that claim a formula to be provided by macOS, one after
the other.  If the formula is registered, the first of them ends it. -/
def report (name : String) : List Node → List (String × Node)
  | [] => []
  | call :: calls =>
    if Provided.isRegistered name then [] else (message, call) :: report name calls

/-- What is said of a formula. -/
def offenses (f : Formula) (body : Node) : List (String × Node) :=
  report f.name (Node.callsWith (some body) "keg_only" [.literal ":provided_by_macos"])

/-- The rule. -/
def rule : Rule :=
  { name := "FormulaAudit/ProvidedByMacos"
    description := "Formulae that are `keg_only :provided_by_macos` must be registered as " ++
      "provided by macOS"
    offenses := fun f body => pure (offenses f body) }

end TapLint.ProvidedByMacos
