/-
Quoted text: the form in which a text is shown inside a message.

The text stands between single quotes, or between double quotes if it has a
single quote and no double one.  A backslash, the quote itself and characters
that are not printable are escaped; other characters stand for themselves.

* `Text.quoted` — a text;
* `Text.quotedBytes` — bytes, of which those of ASCII are shown as characters.
-/
import TapLint.Text.Printable

namespace TapLint.Text

/-- A number in hexadecimal, with lower-case digits and at least `width` of them. -/
def hexPadded (width n : Nat) : List Char :=
  let ds := Nat.toDigits 16 n
  List.replicate (width - ds.length) '0' ++ ds

/-- How a character is written between quotes of one kind. -/
def quoteChar (quote c : Char) : List Char :=
  if c = '\\' || c = quote then ['\\', c]
  else if c = '\n' then ['\\', 'n']
  else if c = '\r' then ['\\', 'r']
  else if c = '\t' then ['\\', 't']
  else if isPrintable c then [c]
  else if c.toNat < 0x100 then '\\' :: 'x' :: hexPadded 2 c.toNat
  else if c.toNat < 0x10000 then '\\' :: 'u' :: hexPadded 4 c.toNat
  else '\\' :: 'U' :: hexPadded 8 c.toNat

/-- The quote that a text is put between. -/
def chooseQuote (cs : List Char) : Char :=
  if cs.contains '\'' && !cs.contains '"' then '"' else '\''

/-- A text between quotes. -/
def quoted (s : String) : String :=
  let cs := s.toList
  let q := chooseQuote cs
  String.ofList (q :: cs.flatMap (quoteChar q) ++ [q])

/-- How a byte is written between quotes of one kind. -/
def quoteByte (quote : Char) (b : UInt8) : List Char :=
  if b < 0x80 then quoteChar quote (Char.ofNat b.toNat) else '\\' :: 'x' :: hexPadded 2 b.toNat

/-- Bytes between quotes. -/
def quotedBytes (bytes : List UInt8) : String :=
  let q := chooseQuote (bytes.map fun b => Char.ofNat b.toNat)
  String.ofList ('b' :: q :: bytes.flatMap (quoteByte q) ++ [q])

end TapLint.Text
