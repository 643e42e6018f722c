/-
Upper and lower case for all of Unicode 14.

A letter may map to several (`ß` to `SS`), and the small form of the capital
sigma depends on its place: at the end of a word it is `ς`, elsewhere `σ`.
-/
import TapLint.Text.CaseTable

namespace TapLint.Text

/-- Whether a number lies in one of the ranges. -/
def inRanges (ranges : List (Nat × Nat)) (n : Nat) : Bool :=
  ranges.any fun r => r.1 ≤ n && n ≤ r.2

/-- Whether a run maps a character. -/
def CaseRun.covers (r : CaseRun) (n : Nat) : Bool :=
  r.first ≤ n && n ≤ r.last && (n - r.first) % r.stride == 0

/-- Maps one character by a table of runs and a list of exceptions. -/
def mapCase (runs : List CaseRun) (special : List (Nat × List Nat)) (c : Char) : List Char :=
  let n := c.toNat
  match special.find? (·.1 == n) with
  | some (_, cs) => cs.map Char.ofNat
  | none =>
    match runs.find? (·.covers n) with
    | some r => [Char.ofNat (Int.ofNat n + r.shift).toNat]
    | none => [c]

/-- A letter with case. -/
def isCased (c : Char) : Bool :=
  inRanges casedRanges c.toNat

/-- A character that is passed over when looking for the end of a word. -/
def isCaseIgnorable (c : Char) : Bool :=
  inRanges caseIgnorableRanges c.toNat

/-- Whether the nearest character that counts is a letter with case. -/
def nextIsCased (cs : List Char) : Bool :=
  (cs.find? (!isCaseIgnorable ·)).any isCased

/-- The small form of a character that has `before` in front of it, the nearest
first, and `after` behind it. -/
def lowerAt (before : List Char) (c : Char) (after : List Char) : List Char :=
  if c.toNat < 0x80 then [c.toLower]
  else if c = 'Σ' then [if nextIsCased before && !nextIsCased after then 'ς' else 'σ']
  else mapCase lowerRuns lowerSpecial c

/-- The small form of a text that follows `before`, the nearest character first. -/
def lowerFrom (before : List Char) : List Char → List Char
  | [] => []
  | c :: cs => lowerAt before c cs ++ lowerFrom (c :: before) cs

/-- A text in small letters. -/
def toLower (s : String) : String :=
  String.ofList (lowerFrom [] s.toList)

/-- The capital form of a character. -/
def upperChar (c : Char) : List Char :=
  if c.toNat < 0x80 then [c.toUpper] else mapCase upperRuns upperSpecial c

/-- A text in capitals. -/
def toUpper (s : String) : String :=
  String.ofList (s.toList.flatMap upperChar)

end TapLint.Text
