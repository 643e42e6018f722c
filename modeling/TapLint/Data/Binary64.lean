/-
Binary floating-point numbers of 64 bits, as exact data.

A finite number is a sign and `mantissa · 2 ^ exponent`; every operation computes
exactly and rounds once, to the nearest number and of two equally near ones to
the one with the even mantissa.

* `Binary64.ofDecimal` — the number nearest to a decimal;
* `Binary64.times`, `Binary64.add` — rounded product and sum;
* `Binary64.truncate` — the integer that is left without the fraction;
* `Binary64.shown` — the shortest decimal that is read back as the number.
-/

namespace TapLint

/-- A floating-point number. -/
inductive Binary64 where
  | finite (negative : Bool) (mantissa : Nat) (exponent : Int)
  | infinity (negative : Bool)
  | nan
  deriving Repr, DecidableEq, Inhabited

namespace Binary64

/-- The exponent of the smallest positive number. -/
def minExponent : Int := -1074

/-- The largest exponent. -/
def maxExponent : Int := 971

/-- The number of bits of a mantissa. -/
def precision : Nat := 53

/-- A power of two. -/
def pow2 (k : Nat) : Nat := Nat.pow 2 k

/-- A power of ten. -/
def pow10 (k : Nat) : Nat := Nat.pow 10 k

/-- Zero. -/
def zero (negative : Bool) : Binary64 := finite negative 0 minExponent

/-- The quotient rounded to the nearest integer, a half going to the even one. -/
def roundDiv (n d : Nat) : Nat :=
  let q := n / d
  let r := n % d
  if d < 2 * r ∨ (2 * r = d ∧ q % 2 = 1) then q + 1 else q

/-- The quotient of `n / d` and `2 ^ e`, as a fraction. -/
def scale (n d : Nat) (e : Int) : Nat × Nat :=
  match e with
  | .ofNat k => (n, d * pow2 k)
  | .negSucc k => (n * pow2 (k + 1), d)

/-- The number nearest to a fraction. -/
def ofRatio (negative : Bool) (n d : Nat) : Binary64 :=
  if n = 0 then zero negative
  else
    let guess : Int := Int.ofNat (Nat.log2 n) - Int.ofNat (Nat.log2 d) - precision
    let (a, b) := scale n d guess
    let e := max (if a / b < pow2 precision then guess else guess + 1) minExponent
    let (a, b) := scale n d e
    let q := roundDiv a b
    let (q, e) := if q = pow2 precision then (pow2 (precision - 1), e + 1) else (q, e)
    if maxExponent < e then infinity negative else finite negative q e

/-- The number nearest to a decimal, `digits · 10 ^ exponent`. -/
def ofDecimal (negative : Bool) (digits : Nat) (exponent : Int) : Binary64 :=
  if digits = 0 then zero negative
  else match exponent with
    | .ofNat k => if 400 < k then infinity negative else ofRatio negative (digits * pow10 k) 1
    | .negSucc k =>
      if Nat.log2 digits + 1200 < k then zero negative else ofRatio negative digits (pow10 (k + 1))

/-- The number nearest to `m · 2 ^ e`. -/
def ofDyadic (negative : Bool) (m : Nat) (e : Int) : Binary64 :=
  match e with
  | .ofNat k => ofRatio negative (m * pow2 k) 1
  | .negSucc k => ofRatio negative m (pow2 (k + 1))

/-- A number with its sign reversed. -/
def neg : Binary64 → Binary64
  | finite s m e => finite (!s) m e
  | infinity s => infinity (!s)
  | nan => nan

/-- The product with a natural number, rounded. -/
def times (x : Binary64) (n : Nat) : Binary64 :=
  match x with
  | finite s m e => ofDyadic s (m * n) e
  | infinity s => if n = 0 then nan else infinity s
  | nan => nan

/-- The mantissa with its sign. -/
def signed (negative : Bool) (m : Nat) : Int := if negative then -m else m

/-- The sum of two numbers, rounded. -/
def add (x y : Binary64) : Binary64 :=
  match x, y with
  | finite s m e, finite t n f =>
    let low := min e f
    let sum := signed s m * pow2 (e - low).toNat + signed t n * pow2 (f - low).toNat
    ofDyadic (if sum = 0 then s && t else decide (sum < 0)) sum.natAbs low
  | infinity s, infinity t => if s = t then infinity s else nan
  | nan, _ => nan
  | _, nan => nan
  | infinity s, finite .. => infinity s
  | finite .., infinity t => infinity t

/-- What is left without the fraction; nothing for what is no number. -/
def truncate : Binary64 → Int
  | finite s m e =>
    match e with
    | .ofNat k => signed s (m * pow2 k)
    | .negSucc k => signed s (m / pow2 (k + 1))
  | _ => 0

/-- Whether a number is zero. -/
def isZero : Binary64 → Bool
  | finite _ m _ => m == 0
  | _ => false

/-- The integer that a number is, if it is one. -/
def toInt? : Binary64 → Option Int
  | finite s m e =>
    match e with
    | .ofNat k => some (signed s (m * pow2 k))
    | .negSucc k => if m % pow2 (k + 1) = 0 then some (signed s (m / pow2 (k + 1))) else none
  | _ => none

/-! ### Shortest decimals -/

/-- The first `k`, from `i` on, with `d ≤ n · 10 ^ k`. -/
def firstPower (n d : Nat) (i : Nat) : Nat → Nat
  | 0 => i
  | bound + 1 => if d ≤ n * pow10 i then i else firstPower n d (i + 1) bound

/-- The power of ten of the first digit of a positive fraction. -/
def decimalExponent (n d : Nat) : Int :=
  if d ≤ n then Int.ofNat ((Nat.toDigits 10 (n / d)).length - 1)
  else -Int.ofNat (firstPower n d 1 400)

/-- A decimal, `digits · 10 ^ exponent`. -/
structure Decimal where
  digits : Nat
  exponent : Int

/-- The decimals with a given last place next to the fraction `n / d`, the lower
one first. -/
def neighbours (n d : Nat) (place : Int) : List Decimal :=
  let q := match place with
    | .ofNat k => n / (d * pow10 k)
    | .negSucc k => n * pow10 (k + 1) / d
  [⟨q, place⟩, ⟨q + 1, place⟩]

/-- A decimal as a fraction. -/
def Decimal.ratio (x : Decimal) : Nat × Nat :=
  match x.exponent with
  | .ofNat k => (x.digits * pow10 k, 1)
  | .negSucc k => (x.digits, pow10 (k + 1))

/-- The fractions that round to a number: its value, the two ends, whether the
ends belong to it, all over one denominator. -/
structure Interval where
  low : Nat
  value : Nat
  high : Nat
  denominator : Nat
  closed : Bool

/-- The interval of `mantissa · 2 ^ exponent`.  It is narrower below a power of two. -/
def interval (mantissa : Nat) (exponent : Int) : Interval :=
  let narrow := mantissa = pow2 (precision - 1) ∧ exponent ≠ minExponent
  let (factor, denominator) := scale 1 1 (2 - exponent)
  { low := (4 * mantissa - if narrow then 1 else 2) * factor
    value := 4 * mantissa * factor
    high := (4 * mantissa + 2) * factor
    denominator
    closed := mantissa % 2 = 0 }

/-- Whether a decimal rounds to the number of an interval. -/
def Interval.contains (i : Interval) (x : Decimal) : Bool :=
  let (a, b) := x.ratio
  let v := a * i.denominator
  if i.closed then decide (i.low * b ≤ v ∧ v ≤ i.high * b)
  else decide (i.low * b < v ∧ v < i.high * b)

/-- How far a decimal is from the value of an interval, in a unit that depends on
the last place only. -/
def Interval.distance (i : Interval) (x : Decimal) : Nat :=
  let (a, b) := x.ratio
  ((a * i.denominator : Int) - (i.value * b : Int)).natAbs

/-- The nearest of the decimals with a given last place that round to the number. -/
def Interval.best? (i : Interval) (place : Int) : Option Decimal :=
  match (neighbours i.value i.denominator place).filter i.contains with
  | [] => none
  | [x] => some x
  | x :: y :: _ =>
    let dx := i.distance x
    let dy := i.distance y
    some (if dx < dy ∨ (dx = dy ∧ x.digits % 2 = 0) then x else y)

/-- The decimal with the fewest digits that rounds to the number; `top` is the
place of the first digit. -/
def Interval.shortest (i : Interval) (top : Int) (count : Nat) : Nat → Decimal
  | 0 => ⟨i.value / i.denominator, 0⟩
  | bound + 1 =>
    match i.best? (top - count) with
    | some x => x
    | none => i.shortest top (count + 1) bound

/-- The digits of a number without the zeros at its end, and how many these are. -/
def dropZeros (n : Nat) : List Char × Nat :=
  let ds := (Nat.toDigits 10 n).reverse
  ((ds.dropWhile (· == '0')).reverse, (ds.takeWhile (· == '0')).length)

/-- The exponent after an `e`: with a sign and at least two digits. -/
def shownExponent (e : Int) : List Char :=
  let ds := Nat.toDigits 10 e.natAbs
  (if e < 0 then '-' else '+') :: (List.replicate (2 - ds.length) '0' ++ ds)

/-- Digits with the first one at the power `e` of ten: positional from 10⁻⁴ up to
10¹⁶, always with a point; beyond that with an exponent. -/
def layOut (ds : List Char) (e : Int) : List Char :=
  if -4 ≤ e ∧ e < 16 then
    match e with
    | .ofNat k =>
      let whole := ds.take (k + 1)
      let rest := ds.drop (k + 1)
      whole ++ List.replicate (k + 1 - whole.length) '0' ++ '.' ::
        (if rest.isEmpty then ['0'] else rest)
    | .negSucc k => '0' :: '.' :: (List.replicate k '0' ++ ds)
  else
    match ds with
    | [] => []
    | [d] => d :: 'e' :: shownExponent e
    | d :: rest => d :: '.' :: rest ++ 'e' :: shownExponent e

/-- The shortest decimal that is read back as the number. -/
def shown : Binary64 → String
  | nan => "nan"
  | infinity s => if s then "-inf" else "inf"
  | finite s m e =>
    let body :=
      if m = 0 then ['0', '.', '0']
      else
        let i := interval m e
        let x := i.shortest (decimalExponent i.value i.denominator) 0 18
        let (ds, zeros) := dropZeros x.digits
        layOut ds (x.exponent + zeros + ds.length - 1)
    String.ofList (if s then '-' :: body else body)

end Binary64

end TapLint
