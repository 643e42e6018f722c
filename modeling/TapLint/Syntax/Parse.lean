/-
From concrete syntax to the tree that rules look at, or to a syntax error.

Reading the text itself is the work of a `TreeReader`, which gives a concrete tree
for every text, marked where the text is not well formed.  `parse` accepts the
trees without a mark and reports the first unreadable node of the others.
-/
import TapLint.Syntax.OfTree

namespace TapLint

/-- A way to read Ruby: the concrete tree of every text. -/
abbrev TreeReader := String → Ruby.Tree

/-- A text that is not well formed, and where this shows first. -/
structure SyntaxError where
  path : Option String
  line : Nat
  column : Nat
  deriving Repr, DecidableEq

namespace SyntaxError

/-- The wording of a syntax error. -/
def message (e : SyntaxError) : String :=
  "Syntax error at " ++ Location.shownAt e.path e.line e.column

end SyntaxError

/-- The simplified syntax of a concrete tree, unless the tree has an error.  The
error is placed at the first node that is an error by itself, or at the root. -/
def Node.parseTree (src : Source) (t : Ruby.Tree) : Except SyntaxError Node :=
  if Ruby.Tree.hasError t then
    let culprit := (Ruby.Tree.firstError? t).getD t
    let place := src.position culprit.value.start
    .error { path := src.path, line := place.line, column := place.column }
  else .ok (Node.ofTree src t)

/-- Reads a text. -/
def Node.parse (reader : TreeReader) (path : Option String) (text : String) :
    Except SyntaxError Node :=
  Node.parseTree (Source.ofText path text) (reader text)

end TapLint
