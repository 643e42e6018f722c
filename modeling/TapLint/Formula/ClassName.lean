/-
Formula names and the names of their classes.

The formula `berkeley-db` is the class `BerkeleyDb`, and `openssl@3` is
`OpensslAT3`.  `Formula.nameOfClass` goes from the class to the formula.
-/
import TapLint.Text.Case
import TapLint.Text.Digit

namespace TapLint.Formula

/-- What follows the last `::` of a name. -/
def lastSegment : List Char → List Char
  | [] => []
  | ':' :: ':' :: cs => lastSegment cs
  | c :: cs => if hasSeparator cs then lastSegment cs else c :: cs
where
  /-- Whether a name has a `::`. -/
  hasSeparator : List Char → Bool
    | ':' :: ':' :: _ => true
    | _ :: cs => hasSeparator cs
    | [] => false

/-- Writes `@` for `AT` in front of a digit. -/
def markVersion : List Char → List Char
  | 'A' :: 'T' :: d :: cs =>
    if Text.isDigit d then '@' :: markVersion (d :: cs) else 'A' :: markVersion ('T' :: d :: cs)
  | c :: cs => c :: markVersion cs
  | [] => []

/-- Writes `-` between a small letter or a digit and a capital. -/
def splitWords : List Char → List Char
  | c :: d :: cs =>
    if (c.isLower || c.isDigit) && d.isUpper then c :: '-' :: splitWords (d :: cs)
    else c :: splitWords (d :: cs)
  | cs => cs

/-- The name of the formula that a class defines. -/
def nameOfClass (className : String) : String :=
  Text.toLower (String.ofList (splitWords (markVersion (lastSegment className.toList))))

end TapLint.Formula
