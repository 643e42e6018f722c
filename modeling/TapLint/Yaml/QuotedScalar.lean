/-
Scalars between quotes.

Between single quotes only the quote itself is special: it is written twice.
Between double quotes a backslash begins an escape.  The blanks around the end of
a line count as one space.
-/
import TapLint.Yaml.PlainScalar
import TapLint.Yaml.Token

namespace TapLint.Yaml

/-- The characters that a backslash and one character stand for. -/
def escapes : List (Char × Nat) := [
  ('0', 0x0), ('a', 0x7), ('b', 0x8), ('t', 0x9), ('\t', 0x9), ('n', 0xA), ('v', 0xB),
  ('f', 0xC), ('r', 0xD), ('e', 0x1B), (' ', 0x20), ('"', 0x22), ('\\', 0x5C), ('/', 0x2F),
  ('N', 0x85), ('_', 0xA0), ('L', 0x2028), ('P', 0x2029)]

/-- How many hexadecimal digits follow a backslash and a character. -/
def escapeWidth? (x : Char) : Option Nat :=
  if x = 'x' then some 2 else if x = 'u' then some 4 else if x = 'U' then some 8 else none

/-- The value of a hexadecimal digit. -/
def hexValue? (c : Char) : Option Nat :=
  let n := c.toNat
  if 48 ≤ n ∧ n ≤ 57 then some (n - 48)
  else if 97 ≤ n ∧ n ≤ 102 then some (n - 87)
  else if 65 ≤ n ∧ n ≤ 70 then some (n - 55)
  else none

/-- The number that a stretch of hexadecimal digits stands for. -/
def hexNumber? (cs : List Char) : Option Nat :=
  (cs.mapM hexValue?).map fun ds => ds.foldl (fun n d => n * 16 + d) 0

/-- Goes past empty lines within quotes. -/
def quotedBreaks (c : Cursor) (sofar : List Char) : Nat → Except Fault (List Char × Cursor)
  | 0 => .ok (sofar, c)
  | bound + 1 =>
    if c.isDocumentMark then .error .malformed
    else
      let c := c.skipWhile fun x => x == ' ' || x == '\t'
      match c.lineBreak with
      | none => .ok (sofar, c)
      | some (x, after) => quotedBreaks after (sofar ++ [x]) bound

/-- The blanks at a place within quotes. -/
def quotedGap (c : Cursor) : Except Fault (List Char × Cursor) := do
  let blanks := c.run fun x => x == ' ' || x == '\t'
  let c := c.skip blanks.length
  if c.rest.isEmpty then throw .malformed
  match c.lineBreak with
  | none => pure (blanks, c)
  | some (first, after) =>
    let (others, after) ← quotedBreaks after [] (after.rest.length + 1)
    pure (foldedBreaks first others, after)

/-- What an escape stands for; the cursor is past the backslash. -/
def escaped (c : Cursor) : Except Fault (List Char × Cursor) :=
  match c.peek 0 with
  | none => .error .malformed
  | some x =>
    match escapes.find? (·.1 == x) with
    | some (_, n) => .ok ([Char.ofNat n], c.next)
    | none =>
      match escapeWidth? x with
      | some width =>
        let digits := c.next.rest.take width
        match hexNumber? digits with
        | none => .error .malformed
        | some n =>
          if digits.length < width then .error .malformed
          else if 0x10FFFF < n then .error .characterCode
          else .ok ([Char.ofNat n], c.next.skip width)
      | none =>
        match c.lineBreak with
        | some (_, after) => quotedBreaks after [] (after.rest.length + 1)
        | none => .error .malformed

/-- The text up to the closing quote; the cursor is past the opening one. -/
def quotedFrom (double : Bool) (c : Cursor) (sofar : List Char) :
    Nat → Except Fault (List Char × Cursor)
  | 0 => .error .malformed
  | bound + 1 =>
    let run := c.run fun x => !(x == '\'' || x == '"' || x == '\\' || isGap (some x))
    let sofar := sofar ++ run
    let c := c.skip run.length
    match c.peek 0 with
    | none => .error .malformed
    | some x =>
      if x == '\'' && !double then
        if c.peek 1 == some '\'' then quotedFrom double (c.skip 2) (sofar ++ ['\'']) bound
        else .ok (sofar, c.next)
      else if x == '"' && double then .ok (sofar, c.next)
      else if x == '\\' && double then
        match escaped c.next with
        | .error e => .error e
        | .ok (text, after) => quotedFrom double after (sofar ++ text) bound
      else if isGap (some x) then
        match quotedGap c with
        | .error e => .error e
        | .ok (text, after) => quotedFrom double after (sofar ++ text) bound
      else quotedFrom double c.next (sofar ++ [x]) bound

/-- The scalar between quotes that begins here. -/
def quotedScalar (double : Bool) (c : Cursor) : Except Fault (List Char × Cursor) :=
  quotedFrom double c.next [] (c.rest.length + 1)

end TapLint.Yaml
