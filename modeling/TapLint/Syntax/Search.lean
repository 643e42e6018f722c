/-
Looking for calls.

All searches go through the whole tree below a node, the node included, and
give what they find in source order.  A search below nothing finds nothing.

* `Node.callsOf` — the calls of a method;
* `Node.callsWith` — those of them whose arguments fit a list of patterns.
-/
import TapLint.Syntax.OfTree

namespace TapLint

/-- What is asked of an argument. -/
inductive Pattern where
  /-- It is a literal with this value, where a leading colon is not counted. -/
  | literal (value : String)
  /-- Its text contains what the test finds. -/
  | text (test : List Char → Bool)

namespace Pattern

/-- Whether a text begins with a double-quoted string that holds something and
stays on its line: a quote, at least one character that is no line feed, and a
quote again before the line ends. -/
def opensQuoted : List Char → Bool
  | '"' :: c :: cs => c != '\n' && (cs.takeWhile (· != '\n')).contains '"'
  | _ => false

/-- The pattern for arguments that begin with a double-quoted string. -/
def quotedString : Pattern := .text opensQuoted

/-- Whether an argument fits a pattern. -/
def accepts (argument : Node) : Pattern → Bool
  | .literal value => argument.isLiteral && argument.literal == some (Node.dropColon value)
  | .text test => test argument.text.toList

end Pattern

namespace Node

/-- The nodes at and below an optional node. -/
def walk? : Option Node → List Node
  | none => []
  | some root => root.walk

/-- The nodes at and below an optional node, each with its ancestors. -/
def walkWithAncestors? : Option Node → List (Node × List Node)
  | none => []
  | some root => root.walkWithAncestors

/-- Every call of a method. -/
def callsOf (root : Option Node) (method : String) : List Node :=
  (walk? root).filter fun n => n.isCallOf method

/-- Whether every pattern fits some argument of a call, wherever it stands. -/
def fitsAll (patterns : List Pattern) (call : Node) : Bool :=
  patterns.all fun p => call.arguments.any fun a => p.accepts a

/-- Every call of a method whose arguments fit the patterns. -/
def callsWith (root : Option Node) (method : String) (patterns : List Pattern) : List Node :=
  (callsOf root method).filter (fitsAll patterns)

end Node

end TapLint
