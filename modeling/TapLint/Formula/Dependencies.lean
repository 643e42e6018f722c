/-
The dependencies that a formula always has.

They are what its `depends_on` calls name.  A call inside an `on_…` call
(`on_macos`, `on_linux`, `on_arm`, …) holds on some systems only and does not
count, wherever below the `on_…` call it stands.

* `Dependencies.collect` — the names, in source order;
* `Dependencies.has` — whether a name is among them.
-/
import TapLint.Log
import TapLint.Syntax.Search

namespace TapLint.Dependencies

/-- The beginning of the names of calls that hold on some systems only. -/
def conditionalStart : String := "on_"

/-- Whether what stands below a node holds on some systems only. -/
def isConditional (n : Node) : Bool :=
  n.isCall && n.name.any fun name => conditionalStart.toList.isPrefixOf name.toList

/-- Whether a node, with its ancestors, declares a dependency that always holds. -/
def declares (entry : Node × List Node) : Bool :=
  entry.1.isCallOf "depends_on" && !entry.2.any isConditional

/-- The name that a declaration adds, if its first argument has one. -/
def nameOf (call : Node) : Logged (Option String) :=
  match call.arguments with
  | [] => pure none
  | n :: _ =>
    match n.dependencyName with
    | .ok name => pure (some name)
    | .error why => do
      Logged.report (.dependencyIgnored call.location why)
      pure none

/-- The names of all dependencies that a formula body always has. -/
def collect (body : Option Node) : Logged (List String) := do
  let calls := ((Node.walkWithAncestors? body).filter declares).map (·.1)
  let names ← Logged.forEach nameOf calls
  pure (names.filterMap id)

/-- Whether a name, less the colon that it may begin with, is among the names. -/
def has (names : List String) (query : String) : Bool :=
  names.contains (Node.dropColon query)

end TapLint.Dependencies
