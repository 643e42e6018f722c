/-
Numbers with a fraction, written as text.
-/
import TapLint.Data.Binary64
import TapLint.Text.Integer

namespace TapLint.Text

/-- The exponent at the end of a number. -/
def exponent? : List Char → Option Int
  | [] => some 0
  | 'e' :: cs =>
    let (negative, cs) := match cs with
      | '-' :: rest => (true, rest)
      | '+' :: rest => (false, rest)
      | _ => (false, cs)
    if cs.isEmpty then none
    else (cs.mapM (digitIn? 10)).map fun ds =>
      if negative then -(ofDigits 10 ds : Int) else ofDigits 10 ds
  | _ => none

/-- The number without a sign that a text in small letters is. -/
def unsigned? (negative : Bool) (cs : List Char) : Option Binary64 :=
  if cs == "inf".toList || cs == "infinity".toList then some (.infinity negative)
  else if cs == "nan".toList then some .nan
  else do
    let isOne (c : Char) : Bool := (digitIn? 10 c).isSome
    let whole := cs.takeWhile isOne
    let rest := cs.dropWhile isOne
    let (fraction, rest) := match rest with
      | '.' :: rest => (rest.takeWhile isOne, rest.dropWhile isOne)
      | _ => ([], rest)
    let digits := (whole ++ fraction).filterMap (digitIn? 10)
    guard (!digits.isEmpty)
    let e ← exponent? rest
    pure (Binary64.ofDecimal negative (ofDigits 10 digits) (e - fraction.length))

/-- The number that a text in small letters is. -/
def decimal? (s : String) : Option Binary64 :=
  match trimNumber s.toList with
  | '-' :: cs => unsigned? true cs
  | '+' :: cs => unsigned? false cs
  | cs => unsigned? false cs

end TapLint.Text
