/-
A place in a YAML text.

* `Cursor.next`, `Cursor.skip` — going on;
* `Cursor.isDocumentMark` — whether a document begins or ends here;
* `isBreak`, `isStop`, `isGap` — what may end a line, a comment and a word.
-/

namespace TapLint.Yaml

/-- What is left of a text, and where in the text that is. -/
structure Cursor where
  rest : List Char
  index : Nat := 0
  line : Nat := 0
  column : Nat := 0
  deriving Inhabited

/-! ### Characters -/

/-- Whether a text may hold a character. -/
def isAllowed (c : Char) : Bool :=
  let n := c.toNat
  n == 0x9 || n == 0xA || n == 0xD || (0x20 ≤ n && n ≤ 0x7E) || n == 0x85 ||
    (0xA0 ≤ n && n ≤ 0xD7FF) || (0xE000 ≤ n && n ≤ 0xFFFD) || 0x10000 ≤ n

/-- The mark at the start of a text that tells the order of its bytes. -/
def byteOrderMark : Char := Char.ofNat 0xFEFF

/-- Whether a character ends a line. -/
def isBreak (c : Char) : Bool :=
  c == '\n' || c == '\r' || c == Char.ofNat 0x85 || c == Char.ofNat 0x2028 ||
    c == Char.ofNat 0x2029

/-- Whether the line, or the text, ends here. -/
def isStop : Option Char → Bool
  | none => true
  | some c => isBreak c

/-- Whether a line ends here or a space stands here. -/
def isSpaceOrStop : Option Char → Bool
  | some ' ' => true
  | c => isStop c

/-- Whether a line ends here or a space or a tab stands here. -/
def isGap : Option Char → Bool
  | some '\t' => true
  | c => isSpaceOrStop c

/-- Whether a character may stand in the name of an anchor. -/
def isNameChar (c : Char) : Bool := c.isAlphanum || c == '-' || c == '_'

/-- Whether a character may stand in a tag. -/
def isTagChar (c : Char) : Bool :=
  c.isAlphanum || "-;/?:@&=+$,_.!~*'()[]%".toList.contains c

namespace Cursor

/-- The character after `k` others. -/
def peek (c : Cursor) (k : Nat) : Option Char := c.rest[k]?

/-- Goes past one character. -/
def next (c : Cursor) : Cursor :=
  match c.rest with
  | [] => c
  | x :: rest =>
    if isBreak x && !(x == '\r' && rest.head? == some '\n') then
      { rest, index := c.index + 1, line := c.line + 1, column := 0 }
    else if x == byteOrderMark then { c with rest, index := c.index + 1 }
    else { rest, index := c.index + 1, line := c.line, column := c.column + 1 }

/-- Goes past some characters. -/
def skip (c : Cursor) : Nat → Cursor
  | 0 => c
  | n + 1 => c.next.skip n

/-- The characters from here on that have a property. -/
def run (c : Cursor) (p : Char → Bool) : List Char := c.rest.takeWhile p

/-- Goes past the characters that have a property. -/
def skipWhile (c : Cursor) (p : Char → Bool) : Cursor := c.skip (c.run p).length

/-- Goes past the end of a line, and gives what it counts as within a scalar. -/
def lineBreak (c : Cursor) : Option (Char × Cursor) :=
  match c.rest with
  | '\r' :: '\n' :: _ => some ('\n', c.skip 2)
  | x :: _ =>
    if x == Char.ofNat 0x2028 || x == Char.ofNat 0x2029 then some (x, c.next)
    else if isBreak x then some ('\n', c.next)
    else none
  | [] => none

/-- Whether three like characters stand here, apart from what follows. -/
def isTriple (c : Cursor) (x : Char) : Bool :=
  c.peek 0 == some x && c.peek 1 == some x && c.peek 2 == some x && isGap (c.peek 3)

/-- Whether a document begins or ends here, if this is the start of a line. -/
def isDocumentMark (c : Cursor) : Bool := c.isTriple '-' || c.isTriple '.'

end Cursor

end TapLint.Yaml
