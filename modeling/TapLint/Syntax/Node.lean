/-
The simplified syntax that rules look at.

A node has one of ten kinds, a location, the text that it covers, and its
children in source order.  The parts of a node that have a name of their own
(the receiver of a call, the key of a pair, …) are children too: a node records
at which places among its children they stand, so a part is always a child.
-/
import TapLint.Rose
import TapLint.Text.Quoted

namespace TapLint

/-- The kinds of nodes that rules tell apart. -/
inductive Kind where
  | call
  | string
  | symbol
  | hash
  | pair
  | array
  | constant
  | classDecl
  | block
  | other
  deriving Repr, DecidableEq, Inhabited

namespace Kind

/-- The kinds, in the order in which they are listed. -/
def all : List Kind :=
  [call, string, symbol, hash, pair, array, constant, classDecl, block, other]

/-- The name of a kind. -/
def name : Kind → String
  | call => "call"
  | string => "string"
  | symbol => "symbol"
  | hash => "hash"
  | pair => "pair"
  | array => "array"
  | constant => "constant"
  | classDecl => "class"
  | block => "block"
  | other => "other"

/-- The kind with a name. -/
def ofName? (s : String) : Option Kind :=
  all.find? (·.name == s)

/-- Strings and symbols are literals: their value stands in the source. -/
def isLiteral : Kind → Bool
  | string | symbol => true
  | _ => false

end Kind

/-- Where a node stands: lines and columns from 1, offsets from 0, in bytes. -/
structure Location where
  path : Option String
  line : Nat
  column : Nat
  endLine : Nat
  endColumn : Nat
  start : Nat
  stop : Nat
  deriving Repr, DecidableEq, Inhabited

namespace Location

/-- How a source is named in messages. -/
def sourceName (path : Option String) : String :=
  match path with
  | none => "<source>"
  | some p => if p.isEmpty then "<source>" else p

/-- A place as it is printed in messages. -/
def shownAt (path : Option String) (line column : Nat) : String :=
  sourceName path ++ ":" ++ toString line ++ ":" ++ toString column

/-- The location as it is printed in messages. -/
def shown (l : Location) : String :=
  shownAt l.path l.line l.column

/-- The location that begins where `first` does and ends where `last` does. -/
def span (path : Option String) (first last : Location) : Location :=
  { path := path, line := first.line, column := first.column, endLine := last.endLine,
    endColumn := last.endColumn, start := first.start, stop := last.stop }

end Location

/-- What a node carries. -/
structure Facts where
  kind : Kind
  /-- The grammar rule that the node comes from. -/
  type : String
  location : Location
  text : String
  /-- The method of a call; the name of a class or constant. -/
  name : Option String := none
  /-- The content of a string or symbol, without its delimiters. -/
  value : Option String := none
  /-- The places, among the children, of the parts that have a name. -/
  receiver : Option Nat := none
  arguments : List Nat := []
  key : Option Nat := none
  valueNode : Option Nat := none
  superclass : Option Nat := none
  body : Option Nat := none
  deriving Repr, DecidableEq, Inhabited

/-- A node of the simplified syntax with all that is below it. -/
abbrev Node := Rose Facts

namespace Node

/-- The kind of a node. -/
def kind (n : Node) : Kind := n.value.kind

/-- The grammar rule that a node comes from. -/
def type (n : Node) : String := n.value.type

/-- Where a node stands. -/
def location (n : Node) : Location := n.value.location

/-- The text that a node covers. -/
def text (n : Node) : String := n.value.text

/-- The name of a node: the method of a call, the name of a class or constant. -/
def name (n : Node) : Option String := n.value.name

/-- The content of a literal. -/
def literal (n : Node) : Option String := n.value.value

/-- The child at a place. -/
def child? (n : Node) (i : Nat) : Option Node := n.children[i]?

/-- What a call is sent to. -/
def receiver (n : Node) : Option Node := n.value.receiver.bind n.child?

/-- What a call is given, trailing pairs taken together as one hash. -/
def arguments (n : Node) : List Node := n.value.arguments.filterMap n.child?

/-- The key of a pair. -/
def key (n : Node) : Option Node := n.value.key.bind n.child?

/-- The value of a pair. -/
def valueNode (n : Node) : Option Node := n.value.valueNode.bind n.child?

/-- What a class inherits from. -/
def superclass (n : Node) : Option Node := n.value.superclass.bind n.child?

/-- The statements of a class or block. -/
def body (n : Node) : Option Node := n.value.body.bind n.child?

/-- Whether a node is a call. -/
def isCall (n : Node) : Bool := n.kind == .call

/-- Whether a node is a call of this method. -/
def isCallOf (n : Node) (method : String) : Bool := n.isCall && n.name == some method

/-- The method that a node calls; nothing for a node that is no call. -/
def methodName (n : Node) : Option String := if n.isCall then n.name else none

/-- Whether a node is a string or a symbol. -/
def isLiteral (n : Node) : Bool := n.kind.isLiteral

/-- The pairs of a hash, in order. -/
def pairs (n : Node) : List Node := n.children.filter fun (c : Node) => c.kind == .pair

/-- The keys of a hash, in order; a pair without one is passed over. -/
def keys (n : Node) : List Node := n.pairs.filterMap key

/-- The name that tells a node from others: its own, or else its content. -/
def label (n : Node) : Option String :=
  match n.name with
  | some s => if s.isEmpty then n.literal else some s
  | none => n.literal

/-- A node as it is shown when a node itself is printed. -/
def shown (n : Node) : String :=
  let label := match n.label with
    | some s => " " ++ Text.quoted s
    | none => ""
  "<SyntaxNode " ++ n.kind.name ++ label ++ " at " ++ toString n.location.line ++ ":" ++
    toString n.location.column ++ ">"

/-- The root and everything below it, a node before its children. -/
def walk (root : Node) : List Node := Rose.walk root

/-- The walk, each node with its ancestors, the outermost first. -/
def walkWithAncestors (root : Node) : List (Node × List Node) := Rose.walkWithAncestors root

end Node

end TapLint
