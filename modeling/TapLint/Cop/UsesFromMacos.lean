/-
The rule for dependencies that are taken from macOS.

`uses_from_macos` may only name dependencies that macOS provides, and has no
place in a formula that requires Linux.
-/
import TapLint.Cop.Basic
import TapLint.Formula.Dependencies
import TapLint.Formula.Provided

namespace TapLint.UsesFromMacos

/-- What is said if the formula requires Linux. -/
def linuxMessage : String :=
  "`uses_from_macos` should not be used when Linux is required."

/-- What is said of a dependency that macOS does not provide. -/
def notProvidedMessage (name : String) : String :=
  "`uses_from_macos` should only be used for macOS dependencies, not '" ++ name ++ "'."

/-- The messages for one call. -/
def examine (requiresLinux : Bool) (call : Node) : Logged (List (String × Node)) :=
  let linux := if requiresLinux then [(linuxMessage, call)] else []
  match call.dependency with
  | .error why => do
    Logged.report (.callSkipped call.location why)
    pure linux
  | .ok dependency =>
    if Provided.byMacos dependency.name then pure linux
    else pure (linux ++ [(notProvidedMessage dependency.name, call)])

/-- The messages for all calls that have an argument which begins with a quoted
string. -/
def offenses (requiresLinux : Bool) (body : Node) : Logged (List (String × Node)) := do
  let found ← Logged.forEach (examine requiresLinux)
    (Node.callsWith (some body) "uses_from_macos" [.quotedString])
  pure found.flatten

/-- The rule, for a given way to tell whether a formula has a dependency. -/
def ruleWith (hasDependency : Formula → Logged (String → Bool)) : Rule :=
  { name := "FormulaAudit/UsesFromMacos"
    description := "`uses_from_macos` may only name dependencies that macOS provides"
    offenses := fun f body => do
      let has ← hasDependency f
      offenses (has "linux") body }

/-- The rule, which goes by what the formula itself declares. -/
def rule : Rule :=
  ruleWith fun f => Dependencies.has <$> Dependencies.collect f.body

end TapLint.UsesFromMacos
