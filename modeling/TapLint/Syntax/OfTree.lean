/-
The simplified syntax of a concrete tree.

Comments and punctuation are left out, calls, pairs and classes keep only the
parts that have a name, and two nodes come into being that the concrete tree
does not have: consecutive pairs among the arguments of a call become one hash,
and the loose statements of a class become one body.

* `Node.kindOf` — the kind that a grammar rule gets;
* `Node.foldPairs` — the grouping of arguments;
* `Node.ofTree` — the whole conversion.
-/
import TapLint.Ruby.Tree
import TapLint.Syntax.Node
import TapLint.Text.Position

namespace TapLint.Node

open Ruby (Tree Label)

/-- The type of the statements of a class or a `do` block. -/
def bodyType : String := "body_statement"

/-- The kind of the nodes of a grammar rule. -/
def kindOf (type : String) : Kind :=
  if type == "call" || type == "method_call" then .call
  else if type == "string" then .string
  else if type == "simple_symbol" || type == "delimited_symbol" || type == "hash_key_symbol"
    || type == "symbol" then .symbol
  else if type == "pair" then .pair
  else if type == "hash" then .hash
  else if type == "array" then .array
  else if type == "constant" || type == "scope_resolution" then .constant
  else if type == "class" then .classDecl
  else if type == "block" || type == "do_block" then .block
  else .other

/-- A subtree of which something has been made, such as a node. -/
structure Converted (α : Type := Node) where
  /-- What the concrete node carries. -/
  label : Label
  /-- What is made of the whole subtree. -/
  node : α
  /-- What is made of its parts: its named children, comments left out. -/
  parts : List α

/-- The location of a concrete node. -/
def locate (src : Source) (l : Label) : Location :=
  let first := src.position l.start
  let last := src.position l.stop
  { path := src.path, line := first.line, column := first.column, endLine := last.line,
    endColumn := last.column, start := l.start, stop := l.stop }

/-- The text of a concrete node. -/
def textOf (src : Source) (l : Label) : String :=
  src.slice l.start l.stop

/-- What every node made of a concrete node carries. -/
def factsOf (src : Source) (l : Label) : Facts :=
  { kind := kindOf l.type, type := l.type, location := locate src l, text := textOf src l }

/-! ### Nodes that the concrete tree lacks -/

/-- A node that covers the stretch from `first` to the last of `more`, which are
its children. -/
def covering (src : Source) (kind : Kind) (type : String) (first : Node) (more : List Node) :
    Node :=
  let last := more.getLastD first
  let location := Location.span src.path first.location last.location
  .node { kind := kind, type := type, location := location,
          text := src.slice location.start location.stop } (first :: more)

/-- The hash that pairs among the arguments stand for. -/
def implicitHash (src : Source) (first : Node) (more : List Node) : Node :=
  covering src .hash "hash" first more

/-- The body that the loose statements of a class stand for. -/
def implicitBody (src : Source) (first : Node) (more : List Node) : Node :=
  covering src .other bodyType first more

/-- A pair. -/
def isPair (n : Node) : Bool := n.kind == .pair

/-- Arguments on the way into groups: those that are done, and the pairs that wait for
more of them. -/
structure Grouping where
  done : List Node := []
  pending : List Node := []

namespace Grouping

/-- The hash for the pairs that wait, if there are any. -/
def hashes (src : Source) : List Node → List Node
  | [] => []
  | first :: more => [implicitHash src first more]

/-- All arguments; no pair waits any longer. -/
def close (src : Source) (g : Grouping) : List Node := g.done ++ hashes src g.pending

/-- Takes an argument: a pair waits, and anything else comes after those that wait. -/
def take (src : Source) (g : Grouping) (n : Node) : Grouping :=
  if n.isPair then { g with pending := g.pending ++ [n] }
  else { done := g.close src ++ [n] }

end Grouping

/-- Arguments with each maximal run of pairs made one hash. -/
def foldPairs (src : Source) (ns : List Node) : List Node :=
  (ns.foldl (Grouping.take src) {}).close src

/-! ### The content of literals -/

/-- What stands between the first and the last token of a literal, if both are
punctuation; otherwise all of it. -/
def delimitedContent (src : Source) (l : Label) (children : List Converted) : String :=
  match children.head?, children.getLast? with
  | some first, some last =>
    if 2 ≤ children.length && !first.label.named && !last.label.named then
      src.slice first.label.stop last.label.start
    else textOf src l
  | _, _ => textOf src l

/-- A text without the colon that it may begin with. -/
def dropColon (s : String) : String :=
  match s.toList with
  | ':' :: cs => String.ofList cs
  | _ => s

/-- The content of a symbol: a delimited one has it between its tokens, a key
before a colon is its own content, and others begin with a colon. -/
def symbolContent (src : Source) (l : Label) (children : List Converted) : String :=
  if l.type == "delimited_symbol" then delimitedContent src l children
  else if l.type == "hash_key_symbol" then textOf src l
  else dropColon (textOf src l)

/-! ### The kinds one by one -/

/-- The first child that fills a field. -/
def fieldOf {α : Type} (name : String) (children : List (Converted α)) : Option (Converted α) :=
  children.find? fun c => c.label.field == some name

/-- A call has its receiver, its arguments and its block as children. -/
def ofCall (src : Source) (l : Label) (children : List Converted) : Node :=
  let receiver := (fieldOf "receiver" children).map (·.node)
  let arguments := match fieldOf "arguments" children with
    | some c => foldPairs src c.parts
    | none => []
  let block := (fieldOf "block" children).map (·.node)
  .node
    { factsOf src l with
      name := (fieldOf "method" children).map fun c => textOf src c.label
      receiver := receiver.map fun _ => 0
      arguments := List.range' receiver.toList.length arguments.length }
    (receiver.toList ++ arguments ++ block.toList)

/-- A pair has its key and its value as children. -/
def ofPair (src : Source) (l : Label) (children : List Converted) : Node :=
  let key := (fieldOf "key" children).map (·.node)
  let value := (fieldOf "value" children).map (·.node)
  .node
    { factsOf src l with
      key := key.map fun _ => 0
      valueNode := value.map fun _ => key.toList.length }
    (key.toList ++ value.toList)

/-- Whether two concrete nodes cover the same stretch and have the same type. -/
def sameStretch (a b : Label) : Bool :=
  a.start == b.start && a.stop == b.stop && a.type == b.type

/-- The parts of a class that are neither its name nor its superclass. -/
def statementsOf {α : Type} (children : List (Converted α)) : List (Converted α) :=
  let name := (fieldOf "name" children).map (·.label)
  let superclass := (fieldOf "superclass" children).map (·.label)
  children.filter fun c =>
    c.label.isPart && !name.any (sameStretch · c.label) && !superclass.any (sameStretch · c.label)

/-- The body of a class: its one statement if that is a body already, or else
a body around its statements, if it has any. -/
def bodyOf (src : Source) : List Converted → Option Node
  | [] => none
  | [c] => if c.label.type == bodyType then some c.node else some (implicitBody src c.node [])
  | c :: cs => some (implicitBody src c.node (cs.map (·.node)))

/-- A class has its superclass and its body as children. -/
def ofClass (src : Source) (l : Label) (children : List Converted) : Node :=
  let superclass := (fieldOf "superclass" children).bind fun c => c.parts.head?
  let body := bodyOf src (statementsOf children)
  .node
    { factsOf src l with
      name := (fieldOf "name" children).map fun c => textOf src c.label
      superclass := superclass.map fun _ => 0
      body := body.map fun _ => superclass.toList.length }
    (superclass.toList ++ body.toList)

/-- Whether a node is the body of a block. -/
def isBlockBody (n : Node) : Bool :=
  n.type == "block_body" || n.type == bodyType

/-- The node made of a concrete node whose children have been converted. -/
def assembleNode (src : Source) (l : Label) (children : List Converted) (parts : List Node) :
    Node :=
  let facts := factsOf src l
  match facts.kind with
  | .call => ofCall src l children
  | .pair => ofPair src l children
  | .classDecl => ofClass src l children
  | .string => .node { facts with value := some (delimitedContent src l children) } parts
  | .symbol => .node { facts with value := some (symbolContent src l children) } parts
  | .constant => .node { facts with name := some facts.text } parts
  | .block => .node { facts with body := parts.findIdx? isBlockBody } parts
  | .hash | .array | .other => .node facts parts

/-- Converts a concrete node whose children have been converted. -/
def assemble (src : Source) (l : Label) (children : List Converted) : Converted :=
  let parts := (children.filter (·.label.isPart)).map (·.node)
  { label := l, node := assembleNode src l children parts, parts := parts }

/-- Converts a concrete tree, remembering the parts of its root. -/
def convert (src : Source) (t : Tree) : Converted :=
  t.fold (assemble src)

/-- The simplified syntax of a concrete tree. -/
def ofTree (src : Source) (t : Tree) : Node :=
  (convert src t).node

end TapLint.Node
