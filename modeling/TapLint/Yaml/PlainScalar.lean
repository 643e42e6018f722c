/-
Scalars without quotes.

A plain scalar ends before a comment, before a colon that a blank follows, and, in
a flow collection, before its marks.  It may go on over several lines as long as
these are indented.
-/
import TapLint.Yaml.Cursor

namespace TapLint.Yaml

/-- Whether a character is a mark of flow collections. -/
def isFlowMark (c : Char) : Bool :=
  c == ',' || c == '[' || c == ']' || c == '\x7b' || c == '\x7d'

/-- Whether a plain scalar may begin here. -/
def Cursor.startsPlain (c : Cursor) (flow : Bool) : Bool :=
  match c.peek 0 with
  | none => false
  | some x =>
    !(isGap (some x) || isFlowMark x || "-?:#&*!|>'\"%@\x60".toList.contains x) ||
      (!isGap (c.peek 1) && (x == '-' || (!flow && (x == '?' || x == ':'))))

/-- The characters of a plain scalar up to the next blank. -/
def plainRun (flow : Bool) : List Char → List Char
  | [] => []
  | x :: rest =>
    if isGap (some x) || (flow && (isFlowMark x || x == '?')) ||
        (x == ':' && (isGap rest.head? || (flow && rest.head?.any isFlowMark))) then []
    else x :: plainRun flow rest

/-- The blanks between two stretches of a plain scalar, as they count within it, and
whether a line ended among them. -/
structure PlainGap where
  text : List Char
  after : Cursor
  broken : Bool

/-- Goes past empty lines and indentation; a document mark ends the scalar. -/
def plainBreaks (c : Cursor) (sofar : List Char) : Nat → Option (List Char) × Cursor
  | 0 => (some sofar, c)
  | bound + 1 =>
    if c.peek 0 == some ' ' then plainBreaks c.next sofar bound
    else match c.lineBreak with
      | none => (some sofar, c)
      | some (x, after) =>
        if after.isDocumentMark then (none, after)
        else plainBreaks after (sofar ++ [x]) bound

/-- What an end of line, and empty lines after it, count as within a scalar: a
single end of line is a space. -/
def foldedBreaks (first : Char) (others : List Char) : List Char :=
  (if first != '\n' then [first] else if others.isEmpty then [' '] else []) ++ others

/-- The blanks at a place in a plain scalar. -/
def plainGap (c : Cursor) : PlainGap :=
  let spaces := c.run (· == ' ')
  let c := c.skip spaces.length
  match c.lineBreak with
  | none => { text := spaces, after := c, broken := false }
  | some (first, after) =>
    if after.isDocumentMark then { text := [], after, broken := true }
    else match plainBreaks after [] after.rest.length with
      | (none, after) => { text := [], after, broken := true }
      | (some others, after) => { text := foldedBreaks first others, after, broken := true }

/-- A plain scalar, and whether a line ended after it. -/
structure PlainScan where
  text : List Char
  after : Cursor
  broken : Bool

/-- Goes on with a plain scalar after some blanks. -/
def plainFrom (flow : Bool) (indent : Int) (sofar : List Char) (gap : PlainGap) :
    Nat → PlainScan
  | 0 => { text := sofar, after := gap.after, broken := gap.broken }
  | bound + 1 =>
    let run := if gap.after.peek 0 == some '#' then [] else plainRun flow gap.after.rest
    if run.isEmpty then { text := sofar, after := gap.after, broken := gap.broken }
    else
      let text := sofar ++ gap.text ++ run
      let next := plainGap (gap.after.skip run.length)
      if next.text.isEmpty || (!flow && decide ((next.after.column : Int) < indent)) then
        { text, after := next.after, broken := next.broken }
      else plainFrom flow indent text next bound

/-- The plain scalar that begins here; its lines are indented by `indent` at
least, unless it stands in a flow collection. -/
def plainScalar (flow : Bool) (indent : Int) (c : Cursor) : PlainScan :=
  plainFrom flow indent [] { text := [], after := c, broken := false } (c.rest.length + 1)

end TapLint.Yaml
