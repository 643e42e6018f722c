/-
Lines and columns.

Both are counted from 1, columns in bytes, and only a line feed ends a line.

* `Position.after` — the position that follows a stretch of bytes;
* `Position.table` — the positions of all offsets of a text at once;
* `Source` — a text as the syntax sees it: it gives the position of an offset
  and the characters between two offsets.
-/
import TapLint.Text.Utf8

namespace TapLint

/-- A line and a column, both counted from 1. -/
structure Position where
  line : Nat
  column : Nat
  deriving Repr, DecidableEq, Inhabited

namespace Position

/-- Where a text begins. -/
def origin : Position := ⟨1, 1⟩

/-- The byte that ends a line. -/
def lineFeed : UInt8 := 10

/-- The position after one more byte. -/
def advance (p : Position) (b : UInt8) : Position :=
  if b = lineFeed then ⟨p.line + 1, 1⟩ else ⟨p.line, p.column + 1⟩

/-- The position reached from `p` by reading bytes. -/
def afterFrom (p : Position) (bytes : List UInt8) : Position :=
  bytes.foldl advance p

/-- The position that follows these bytes at the start of a text. -/
def after (bytes : List UInt8) : Position :=
  afterFrom origin bytes

/-- Adds the position after each byte to those before it; `p` is the last one. -/
def tableFrom (p : Position) (sofar : Array Position) : List UInt8 → Array Position
  | [] => sofar
  | b :: bs => tableFrom (p.advance b) (sofar.push (p.advance b)) bs

/-- The position of every offset of a text, its end included. -/
def table (bytes : List UInt8) : Array Position :=
  tableFrom origin #[origin] bytes

theorem tableFrom_getElem? (p : Position) (sofar : Array Position) (bytes : List UInt8) (i : Nat) :
    (tableFrom p sofar bytes)[i]? =
      if i < sofar.size then sofar[i]?
      else if i < sofar.size + bytes.length then
        some (afterFrom p (bytes.take (i + 1 - sofar.size)))
      else none := by
  induction bytes generalizing p sofar with
  | nil => simp only [tableFrom, List.length_nil]; grind
  | cons b bs ih =>
    rw [tableFrom, ih]
    simp only [Array.size_push, List.length_cons, Array.getElem?_push]
    by_cases h : i < sofar.size
    · simp [h, Nat.lt_succ_of_lt h, Nat.ne_of_lt h]
    · by_cases h' : i = sofar.size
      · subst h'
        simp [afterFrom]
      · have h1 : ¬ i < sofar.size + 1 := by omega
        have h2 : i + 1 - sofar.size = (i + 1 - (sofar.size + 1)) + 1 := by omega
        rw [if_neg h1, if_neg h, h2]
        have h3 : sofar.size + 1 + bs.length = sofar.size + (bs.length + 1) := by omega
        simp [afterFrom, h3]

theorem table_getElem? (bytes : List UInt8) (i : Nat) (h : i ≤ bytes.length) :
    (table bytes)[i]? = some (after (bytes.take i)) := by
  rw [table, tableFrom_getElem?]
  cases i with
  | zero => simp [after, afterFrom]
  | succ i =>
    have h1 : ¬ i + 1 < (#[origin] : Array Position).size := by simp
    have h2 : i + 1 < (#[origin] : Array Position).size + bytes.length := by simp; omega
    rw [if_neg h1, if_pos h2]
    simp [after]

end Position

/-- A text with a name, seen through offsets in bytes. -/
structure Source where
  /-- The file that the text came from, if any. -/
  path : Option String
  /-- The position of an offset. -/
  position : Nat → Position
  /-- The characters from one offset up to another. -/
  slice : Nat → Nat → String

namespace Source

/-- The view of a byte string.  An offset beyond the end has the end's position. -/
def ofBytes (path : Option String) (bytes : Array UInt8) : Source :=
  let positions := Position.table bytes.toList
  let last := Position.after bytes.toList
  { path
    position := fun i => positions[i]?.getD last
    slice := fun a b => Utf8.lossy (bytes.extract a b).toList }

/-- The view of a text. -/
def ofText (path : Option String) (text : String) : Source :=
  ofBytes path text.toUTF8.data

end Source

end TapLint
