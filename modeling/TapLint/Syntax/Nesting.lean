/-
How deep the calls of the conversion are nested.

The conversion of a concrete node calls itself for what it keeps of the node, through
one to three helpers; a helper that goes through a list counts twice, once for itself
and once for the step that it is at.  The walks over the converted tree, in contrast,
are loops.

* `Node.callsInside` — the calls within the conversion of one node;
* `Node.callDepth` — how many calls are nested when a tree is converted.
-/
import TapLint.Syntax.OfTree

namespace TapLint.Node

open Ruby (Tree Label)

/-- The deepest of some conversions, each within so many calls of helpers. -/
def deepest (helpers : Nat) (depths : List Nat) : Nat :=
  (depths.map (helpers + ·)).foldr max 0

/-- How deep the conversions of the statements of a class are. -/
def statementsDepth : List (Converted Nat) → Nat
  | [] => 0
  | [c] => if c.label.type == bodyType then 1 + c.node else 3 + c.node
  | cs => deepest 3 (cs.map (·.node))

/-- How many calls are nested within the conversion of a node, when those of its
children are known.  At least, there are those that make the node itself. -/
def callsInside (l : Label) (children : List (Converted Nat)) (parts : List Nat) : Nat :=
  let filling (name : String) := (fieldOf name children).toList
  let depthOf (name : String) := (filling name).map (·.node)
  let partsOf (name : String) := (filling name).flatMap (·.parts)
  match kindOf l.type with
  | .call =>
    max 4 (max (deepest 1 (depthOf "receiver" ++ depthOf "block"))
      (deepest 2 (partsOf "arguments")))
  | .pair => max 4 (deepest 1 (depthOf "key" ++ depthOf "value"))
  | .classDecl =>
    max 4 (max (deepest 1 (partsOf "superclass").head?.toList)
      (statementsDepth (statementsOf children)))
  | .string | .symbol => max 4 (deepest 3 parts)
  | .constant | .block | .hash | .array | .other => max 3 (deepest 2 parts)

/-- Counts the calls for a node, when those for its children have been counted. -/
def countCalls (l : Label) (children : List (Converted Nat)) : Converted Nat :=
  let parts := (children.filter (·.label.isPart)).map (·.node)
  { label := l, node := 1 + callsInside l children parts, parts := parts }

/-- How many calls are nested when a tree is converted. -/
def callDepth (t : Tree) : Nat := (t.fold countCalls).node

end TapLint.Node
