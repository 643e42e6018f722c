/-
The rules that there are.

* `Rule.all` — every rule, in the order in which they are applied;
* `Rule.named?` — the rule with a qualified name;
* `Rule.qualify` — the qualified name that a short name stands for.
-/
import TapLint.Cop.ProvidedByMacos
import TapLint.Cop.UsesFromMacos

namespace TapLint.Rule

/-- Every rule, in the order in which they are applied. -/
def all : List Rule := [ProvidedByMacos.rule, UsesFromMacos.rule]

/-- The rule with a qualified name. -/
def named? (name : String) : Option Rule := all.find? (·.name == name)

/-- Whether a qualified name is that of a rule. -/
def isKnown (name : String) : Bool := (named? name).isSome

/-- The department of all rules. -/
def department : String := "FormulaAudit"

/-- The qualified name that a name stands for: one without a slash lacks its
department. -/
def qualify (name : String) : String :=
  if name.toList.contains '/' then name else department ++ "/" ++ name

end TapLint.Rule
