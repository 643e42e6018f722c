/-
The dependency that a call names.

`depends_on "zlib"` and `uses_from_macos "zlib" => [:build]` both name `zlib`: a
dependency is given bare, as a string or symbol, or as the first key of a hash
whose values say when it is needed.  Anything else names no dependency, and
`ShapeError` says why.
-/
import TapLint.Syntax.Node

namespace TapLint

/-- Why an argument names no dependency. -/
inductive ShapeError where
  /-- There is no argument. -/
  | noArguments
  /-- A hash without a key. -/
  | emptyHash (location : Location)
  /-- A hash whose first key has to be computed. -/
  | computedKey (text : String) (location : Location)
  /-- Neither a literal nor a hash. -/
  | unsupported (kind : Kind) (text : String) (location : Location)
  deriving Repr, DecidableEq

namespace ShapeError

/-- The wording of a shape error. -/
def message : ShapeError → String
  | noArguments => "call has no arguments"
  | emptyHash l => "empty hash argument at " ++ l.shown
  | computedKey text l =>
    "non-literal hash key " ++ Text.quoted text ++ " at " ++ l.shown
  | unsupported kind text l =>
    "unsupported " ++ kind.name ++ " argument " ++ Text.quoted text ++ " at " ++ l.shown

end ShapeError

/-- A dependency as one call names it. -/
structure Dependency where
  name : String
  /-- Whether the name is a key of a hash. -/
  isHashForm : Bool
  /-- The argument that holds the name. -/
  source : Node

namespace Node

/-- The content of a literal that has one, and the text of any other node. -/
def content (n : Node) : String :=
  if n.isLiteral then n.literal.getD n.text else n.text

/-- The name that an argument gives to a dependency. -/
def dependencyName (n : Node) : Except ShapeError String :=
  match n.kind with
  | .string | .symbol => .ok n.content
  | .hash =>
    match n.keys with
    | [] => .error (.emptyHash n.location)
    | k :: _ =>
      if k.isLiteral then .ok k.content else .error (.computedKey k.text k.location)
  | k => .error (.unsupported k n.text n.location)

/-- The name that an optional argument gives to a dependency. -/
def dependencyName? : Option Node → Except ShapeError String
  | none => .error .noArguments
  | some n => n.dependencyName

/-- The dependency that the first argument of a call names. -/
def dependency (call : Node) : Except ShapeError Dependency := do
  let first := call.arguments.head?
  let name ← dependencyName? first
  match first with
  | some n => pure ⟨name, n.kind == .hash, n⟩
  | none => throw .noArguments

end Node

end TapLint
