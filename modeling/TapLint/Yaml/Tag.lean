/-
Tags, names and directives, as they are written.

* `tagAt` — a tag, with its handle;
* `nameAt` — the name of an anchor;
* `directiveAt` — a line that begins with a percent sign.
-/
import TapLint.Text.Utf8
import TapLint.Yaml.BlockScalar
import TapLint.Yaml.QuotedScalar

namespace TapLint.Yaml

/-- The bytes of a run of escapes, each a percent sign and two hexadecimal
digits. -/
def percentBytes (c : Cursor) (sofar : List UInt8) : Nat → Except Fault (List UInt8 × Cursor)
  | 0 => .ok (sofar, c)
  | bound + 1 =>
    if c.peek 0 == some '%' then
      match c.next.rest.take 2 with
      | [a, b] =>
        match hexNumber? [a, b] with
        | some n => percentBytes (c.skip 3) (sofar ++ [UInt8.ofNat n]) bound
        | none => .error .malformed
      | _ => .error .malformed
    else .ok (sofar, c)

/-- The characters of a tag from here on. -/
def tagCharsFrom (c : Cursor) (sofar : List Char) : Nat → Except Fault (List Char × Cursor)
  | 0 => .ok (sofar, c)
  | bound + 1 =>
    match c.peek 0 with
    | none => .ok (sofar, c)
    | some x =>
      if x == '%' then
        match percentBytes c [] c.rest.length with
        | .error e => .error e
        | .ok (bytes, after) =>
          match Utf8.strict bytes with
          | .error _ => .error .malformed
          | .ok text => tagCharsFrom after (sofar ++ text.toList) bound
      else if isTagChar x then tagCharsFrom c.next (sofar ++ [x]) bound
      else .ok (sofar, c)

/-- The characters of a tag, of which there is at least one. -/
def tagChars (c : Cursor) : Except Fault (String × Cursor) := do
  let (text, after) ← tagCharsFrom c [] c.rest.length
  if after.index == c.index then throw .malformed
  pure (String.ofList text, after)

/-- The handle that a tag begins with: one exclamation mark, or two with a name
between them. -/
def handleAt (c : Cursor) : Except Fault (String × Cursor) := do
  unless c.peek 0 == some '!' do throw .malformed
  if c.peek 1 == some ' ' then pure ("!", c.next)
  else
    let name := c.next.run isNameChar
    let after := c.next.skip name.length
    unless after.peek 0 == some '!' do throw .malformed
    pure (String.ofList ('!' :: name ++ ['!']), after.next)

/-- Whether another exclamation mark follows before the next blank. -/
def hasLongHandle (c : Cursor) : Bool :=
  (c.next.run fun x => !isSpaceOrStop (some x)).contains '!'

/-- The tag that begins here. -/
def tagAt (c : Cursor) : Except Fault (Token × Cursor) := do
  let (token, after) ←
    if c.peek 1 == some '<' then do
      let (name, after) ← tagChars (c.skip 2)
      unless after.peek 0 == some '>' do throw Fault.malformed
      pure (Token.tag none name, after.next)
    else if isGap (c.peek 1) then pure (Token.tag none "!", c.next)
    else do
      let (handle, after) ← if hasLongHandle c then handleAt c else pure ("!", c.next)
      let (suffix, after) ← tagChars after
      pure (Token.tag (some handle) suffix, after)
  unless isSpaceOrStop (after.peek 0) do throw .malformed
  pure (token, after)

/-- The name after the mark of an anchor or of a reference to one. -/
def nameAt (c : Cursor) : Except Fault (String × Cursor) := do
  let name := c.next.run isNameChar
  let after := c.next.skip name.length
  if name.isEmpty then throw .malformed
  unless isGap (after.peek 0) || "?:,]\x7d%@\x60".toList.any (after.peek 0 == some ·) do
    throw .malformed
  pure (String.ofList name, after)

/-- The decimal number at a place. -/
def numberAt (c : Cursor) : Except Fault (Nat × Cursor) :=
  let digits := c.run Char.isDigit
  if digits.isEmpty then .error .malformed
  else .ok (digits.foldl (fun n d => n * 10 + (d.toNat - 48)) 0, c.skip digits.length)

/-- Goes past spaces. -/
def spaces (c : Cursor) : Cursor := c.skipWhile (· == ' ')

/-- What a directive says; the cursor is past its name. -/
def directiveBody (name : List Char) (c : Cursor) : Except Fault (Directive × Cursor) := do
  if name == ['Y', 'A', 'M', 'L'] then
    let (major, c) ← numberAt (spaces c)
    unless c.peek 0 == some '.' do throw .malformed
    let (_, c) ← numberAt c.next
    unless isSpaceOrStop (c.peek 0) do throw .malformed
    pure (.version major, c)
  else if name == ['T', 'A', 'G'] then
    let (handle, c) ← handleAt (spaces c)
    unless c.peek 0 == some ' ' do throw .malformed
    let (stem, c) ← tagChars (spaces c)
    unless isSpaceOrStop (c.peek 0) do throw .malformed
    pure (.tag handle stem, c)
  else pure (.other, c.skipWhile fun x => !isBreak x)

/-- The directive on this line. -/
def directiveAt (c : Cursor) : Except Fault (Directive × Cursor) := do
  let name := c.next.run isNameChar
  if name.isEmpty then throw .malformed
  let c := c.next.skip name.length
  unless isSpaceOrStop (c.peek 0) do throw .malformed
  let (d, c) ← directiveBody name c
  let c ← blankLineEnd c
  pure (d, c)

end TapLint.Yaml
