/-
Concrete Ruby syntax.

A concrete tree has a node for every construct and, where they matter, for the
tokens that delimit it.  Nodes are known by the name of their grammar rule; a
node may fill a field of its parent.

* `Tree.field?` — the child that fills a field;
* `Tree.hasError` — whether something in the tree could not be read;
* `Tree.firstError?` — the first such node in reading order.
-/
import TapLint.Rose

namespace TapLint.Ruby

/-- What a concrete node carries. -/
structure Label where
  /-- The grammar rule, or the token's own text. -/
  type : String
  /-- Whether the node is a construct; the others are punctuation and keywords. -/
  named : Bool
  /-- Whether the node stands for a token that the text lacks. -/
  missing : Bool
  /-- Whether the node is marked as erroneous by itself. -/
  flagged : Bool
  /-- The offset of the first byte. -/
  start : Nat
  /-- The offset after the last byte. -/
  stop : Nat
  /-- The field of the parent that the node fills. -/
  field : Option String
  deriving Repr, DecidableEq, Inhabited

/-- A concrete syntax tree. -/
abbrev Tree := Rose Label

namespace Tree

/-- The type of nodes that stand for unreadable text. -/
def errorType : String := "ERROR"

/-- The type of comments, which are part of no construct. -/
def commentType : String := "comment"

end Tree

namespace Label

/-- Whether the node itself stands for unreadable or lacking text. -/
def isError (l : Label) : Bool :=
  l.type == Tree.errorType || l.missing

/-- Whether the node is a comment. -/
def isComment (l : Label) : Bool :=
  l.type == Tree.commentType

/-- Whether the node is a construct of the program: named, and not a comment. -/
def isPart (l : Label) : Bool :=
  l.named && !l.isComment

end Label

namespace Tree

/-- The first child that fills a field. -/
def field? (t : Tree) (name : String) : Option Tree :=
  t.children.find? (fun c => c.value.field == some name)

/-- Whether a tree has an error: at its root or in any subtree. -/
def hasError (t : Tree) : Bool :=
  t.fold fun l below => l.flagged || l.isError || below.any id

/-- The first node, in reading order, that is an error by itself. -/
def firstError? (t : Tree) : Option Tree :=
  t.walk.find? (fun n => n.value.isError)

end Tree

end TapLint.Ruby
