/-
Scalars that are written as an indented block.

The block begins after a bar, which keeps its lines, or after an angle bracket,
which folds them.  What ends the last line is kept, dropped, or kept with all
empty lines after it.
-/
import TapLint.Yaml.Cursor
import TapLint.Yaml.Token

namespace TapLint.Yaml

/-- What becomes of the end of a block. -/
inductive Chomping where
  /-- The last end of line stays. -/
  | clip
  /-- Nothing stays. -/
  | strip
  /-- The empty lines stay, too. -/
  | keep
  deriving Repr, DecidableEq

/-- The sign for a way of chomping. -/
def chomping? : Option Char → Option Chomping
  | some '+' => some .keep
  | some '-' => some .strip
  | _ => none

/-- The depth of indentation that a digit states. -/
def stated? (c : Option Char) : Option Nat :=
  match c with
  | some x => if '0' ≤ x ∧ x ≤ '9' then some (x.toNat - 48) else none
  | none => none

/-- What stands after the mark that begins a block: the chomping and the
indentation, in either order. -/
def blockHeader (c : Cursor) : Except Fault (Chomping × Option Nat × Cursor) := do
  let (chomping, depth, c) := match chomping? (c.peek 0) with
    | some chomping =>
      match stated? (c.peek 1) with
      | some n => (chomping, some n, c.skip 2)
      | none => (chomping, none, c.next)
    | none =>
      match stated? (c.peek 0) with
      | some n =>
        match chomping? (c.peek 1) with
        | some chomping => (chomping, some n, c.skip 2)
        | none => (Chomping.clip, some n, c.next)
      | none => (Chomping.clip, none, c)
  if depth == some 0 then throw .malformed
  unless isSpaceOrStop (c.peek 0) do throw .malformed
  pure (chomping, depth, c)

/-- Goes past the rest of a line that may hold a comment only. -/
def blankLineEnd (c : Cursor) : Except Fault Cursor :=
  let c := c.skipWhile (· == ' ')
  let c := if c.peek 0 == some '#' then c.skipWhile fun x => !isBreak x else c
  if isStop (c.peek 0) then .ok ((c.lineBreak.map (·.2)).getD c) else .error .malformed

/-- Goes past the empty lines before a block, and finds how far its lines are
indented. -/
def leadingBreaks (c : Cursor) (sofar : List Char) (deepest : Nat) :
    Nat → List Char × Nat × Cursor
  | 0 => (sofar, deepest, c)
  | bound + 1 =>
    if c.peek 0 == some ' ' then
      leadingBreaks c.next sofar (max deepest c.next.column) bound
    else match c.lineBreak with
      | none => (sofar, deepest, c)
      | some (x, after) => leadingBreaks after (sofar ++ [x]) deepest bound

/-- Goes past indentation, up to a column. -/
def indentTo (column : Nat) (c : Cursor) : Cursor :=
  c.skip (min (column - c.column) (c.run (· == ' ')).length)

/-- Goes past empty lines within a block. -/
def blockBreaks (indent : Nat) (c : Cursor) (sofar : List Char) : Nat → List Char × Cursor
  | 0 => (sofar, c)
  | bound + 1 =>
    let c := indentTo indent c
    match c.lineBreak with
    | none => (sofar, c)
    | some (x, after) => blockBreaks indent after (sofar ++ [x]) bound

/-- Whether a line has more indentation than the block asks for. -/
def isDeeper (c : Cursor) : Bool := c.peek 0 == some ' ' || c.peek 0 == some '\t'

/-- The text of a block whose lines so far are `sofar`, before empty lines that count
as `breaks`. -/
def blockLines (folded : Bool) (chomping : Chomping) (indent : Nat) (c : Cursor)
    (sofar breaks : List Char) : Nat → List Char × Cursor
  | 0 => (sofar, c)
  | bound + 1 =>
    let deeper := isDeeper c
    let line := c.run fun x => !isBreak x
    let sofar := sofar ++ breaks ++ line
    let c := c.skip line.length
    let (ending, c) := match c.lineBreak with
      | none => ([], c)
      | some (x, after) => ([x], after)
    let (breaks, c) := blockBreaks indent c [] (c.rest.length + 1)
    if c.column == indent && !c.rest.isEmpty then
      let between :=
        if folded && ending == ['\n'] && !deeper && !isDeeper c then
          if breaks.isEmpty then [' '] else []
        else ending
      blockLines folded chomping indent c (sofar ++ between) breaks bound
    else match chomping with
      | .strip => (sofar, c)
      | .clip => (sofar ++ ending, c)
      | .keep => (sofar ++ ending ++ breaks, c)

/-- The block that begins here, inside a block with the given indentation. -/
def blockScalar (folded : Bool) (outer : Int) (c : Cursor) :
    Except Fault (List Char × Cursor) := do
  let (chomping, depth, c) ← blockHeader c.next
  let c ← blankLineEnd c
  let least := (max (outer + 1) 1).toNat
  let (breaks, indent, c) := match depth with
    | some n =>
      let indent := least + n - 1
      let (breaks, c) := blockBreaks indent c [] (c.rest.length + 1)
      (breaks, indent, c)
    | none =>
      let (breaks, deepest, c) := leadingBreaks c [] 0 (c.rest.length + 1)
      (breaks, max least deepest, c)
  if c.column == indent && !c.rest.isEmpty then
    pure (blockLines folded chomping indent c [] breaks (c.rest.length + 1))
  else match chomping with
    | .keep => pure (breaks, c)
    | _ => pure ([], c)

end TapLint.Yaml
