/-
Integers written as text.

An integer may stand between blanks, may have a sign, and may have single
underscores between its digits, which can be of any script.
-/
import TapLint.Text.Blank
import TapLint.Text.Digit

namespace TapLint.Text

/-- The blanks around a number: those of ASCII if the whole text is ASCII, else any
white space. -/
def isBlankIn (cs : List Char) : Char → Bool :=
  if cs.all (·.toNat < 0x80) then fun c => c = ' ' || (9 ≤ c.toNat && c.toNat ≤ 13) else isBlank

/-- A text without the blanks around a number. -/
def trimNumber (cs : List Char) : List Char :=
  let blank := isBlankIn cs
  ((cs.dropWhile blank).reverse.dropWhile blank).reverse

/-- The value of a digit, where letters stand for the digits from ten on. -/
def digitIn? (base : Nat) (c : Char) : Option Nat :=
  let n := c.toNat
  let v := match digitValue? c with
    | some v => some v
    | none =>
      if 97 ≤ n ∧ n ≤ 122 then some (n - 87)
      else if 65 ≤ n ∧ n ≤ 90 then some (n - 55)
      else none
  v.filter (· < base)

/-- Drops the underscores of a number; each has to stand between two digits. -/
def joinDigits (base : Nat) : List Char → Option (List Nat)
  | [] => none
  | [c] => (digitIn? base c).map fun v => [v]
  | c :: '_' :: cs => do
    let v ← digitIn? base c
    let rest ← joinDigits base cs
    pure (v :: rest)
  | c :: cs => do
    let v ← digitIn? base c
    let rest ← joinDigits base cs
    pure (v :: rest)

/-- The number that some digits stand for, the first digit being the highest. -/
def ofDigits (base : Nat) (ds : List Nat) : Nat := ds.foldl (fun n d => n * base + d) 0

/-- How many decimal digits a number may be written with. -/
def maxDigits : Nat := 4300

/-- The integer that a text is, in some base. -/
def integer? (base : Nat) (s : String) : Option Int :=
  let cs := trimNumber s.toList
  let (negative, cs) := match cs with
    | '-' :: rest => (true, rest)
    | '+' :: rest => (false, rest)
    | _ => (false, cs)
  match joinDigits base cs with
  | none => none
  | some ds =>
    if base = 10 ∧ maxDigits < ds.length then none
    else
      let n := ofDigits base ds
      some (if negative then -n else n)

end TapLint.Text
