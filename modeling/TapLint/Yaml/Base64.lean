/-
Bytes written in base 64.

Four characters stand for three bytes.  Characters that are no digits are passed
over; an equals sign stands where a digit lacks, and what follows the last one that
is needed does not count.
-/

namespace TapLint.Yaml

/-- The value of a digit in base 64. -/
def digit64? (c : Char) : Option Nat :=
  let n := c.toNat
  if 'A' ≤ c ∧ c ≤ 'Z' then some (n - 65)
  else if 'a' ≤ c ∧ c ≤ 'z' then some (n - 71)
  else if '0' ≤ c ∧ c ≤ '9' then some (n + 4)
  else if c = '+' then some 62
  else if c = '/' then some 63
  else none

/-- The bytes of what follows.  `place` digits of a group of four have been read, of
which `rest` is not in a byte yet, and `signs` equals signs after them. -/
def bytes64From (place rest signs : Nat) : List Char → Option (List UInt8)
  | [] => if place = 0 then some [] else none
  | '=' :: cs =>
    if place < 2 then bytes64From place rest signs cs
    else if 4 ≤ place + signs + 1 then some []
    else bytes64From place rest (signs + 1) cs
  | c :: cs =>
    match digit64? c with
    | none => bytes64From place rest signs cs
    | some d =>
      match place with
      | 0 => bytes64From 1 d 0 cs
      | 1 => (bytes64From 2 (d % 16) 0 cs).map (UInt8.ofNat (rest * 4 + d / 16) :: ·)
      | 2 => (bytes64From 3 (d % 4) 0 cs).map (UInt8.ofNat (rest * 16 + d / 4) :: ·)
      | _ => (bytes64From 0 0 0 cs).map (UInt8.ofNat (rest * 64 + d) :: ·)

/-- The bytes that a text of ASCII characters stands for. -/
def bytes64? (text : String) : Option (List UInt8) :=
  if text.toList.all (·.toNat < 0x80) then bytes64From 0 0 0 text.toList else none

end TapLint.Yaml
