/-
Reading JSON.

The grammar is that of the standard.  White space may stand between tokens; a
number is an integer unless it has a fraction or an exponent; a surrogate pair in
a string is one character, and a lone surrogate the replacement character.
-/
import TapLint.Json.Basic

namespace TapLint.Json

/-- White space between tokens. -/
def isSpace (c : Char) : Bool :=
  c == ' ' || c == '\n' || c == '\r' || c == '\t'

/-- A text without the white space in front. -/
def skip (cs : List Char) : List Char := cs.dropWhile isSpace

/-! ### Strings -/

/-- The value of a hexadecimal digit. -/
def hexValue? (c : Char) : Option Nat :=
  if '0' ≤ c ∧ c ≤ '9' then some (c.toNat - '0'.toNat)
  else if 'a' ≤ c ∧ c ≤ 'f' then some (c.toNat - 'a'.toNat + 10)
  else if 'A' ≤ c ∧ c ≤ 'F' then some (c.toNat - 'A'.toNat + 10)
  else none

/-- The 16-bit unit that four hexadecimal digits give. -/
def unit? (a b c d : Char) : Option Nat := do
  let a ← hexValue? a
  let b ← hexValue? b
  let c ← hexValue? c
  let d ← hexValue? d
  pure (a * 4096 + b * 256 + c * 16 + d)

/-- What the character after a backslash stands for. -/
def unescape? (c : Char) : Option Char :=
  if c = '"' then some '"'
  else if c = '\\' then some '\\'
  else if c = '/' then some '/'
  else if c = 'n' then some '\n'
  else if c = 'r' then some '\r'
  else if c = 't' then some '\t'
  else if c = 'f' then some '\x0c'
  else if c = 'b' then some '\x08'
  else none

/-- The first of a surrogate pair. -/
def isHigh (n : Nat) : Bool := 0xD800 ≤ n && n < 0xDC00

/-- The second of a surrogate pair. -/
def isLow (n : Nat) : Bool := 0xDC00 ≤ n && n < 0xE000

/-- The character that a surrogate pair stands for. -/
def joinPair (high low : Nat) : Char :=
  Char.ofNat (0x10000 + (high - 0xD800) * 0x400 + (low - 0xDC00))

/-- The character of a unit that is no part of a pair. -/
def single (n : Nat) : Char :=
  if isHigh n || isLow n then '\uFFFD' else Char.ofNat n

/-- The characters so far, the last first, where a surrogate that waited for its
second half turns out to be alone. -/
def settle (high : Option Nat) (sofar : List Char) : List Char :=
  match high with
  | some _ => '\uFFFD' :: sofar
  | none => sofar

/-- Reads the inside of a string up to its closing quote.  `high` is the first
surrogate of a pair whose second one is still to come, `sofar` what has been
read, the last character first. -/
def stringBody (high : Option Nat) (sofar : List Char) : List Char → Option (List Char × List Char)
  | '"' :: cs => some ((settle high sofar).reverse, cs)
  | '\\' :: 'u' :: a :: b :: c :: d :: cs =>
    match unit? a b c d, high with
    | none, _ => none
    | some n, some h =>
      if isLow n then stringBody none (joinPair h n :: sofar) cs
      else if isHigh n then stringBody (some n) ('\uFFFD' :: sofar) cs
      else stringBody none (Char.ofNat n :: '\uFFFD' :: sofar) cs
    | some n, none =>
      if isHigh n then stringBody (some n) sofar cs else stringBody none (single n :: sofar) cs
  | '\\' :: c :: cs =>
    match unescape? c with
    | some x => stringBody none (x :: settle high sofar) cs
    | none => none
  | c :: cs =>
    if c.toNat < 0x20 ∨ c = '\\' then none else stringBody none (c :: settle high sofar) cs
  | [] => none

/-- Reads a string. -/
def string? : List Char → Option (List Char × List Char)
  | '"' :: cs => stringBody none [] cs
  | _ => none

/-! ### Numbers -/

/-- Whether a character is a decimal digit. -/
def isDigit (c : Char) : Bool := '0' ≤ c && c ≤ '9'

/-- The digits that a text begins with, and the rest. -/
def digits (cs : List Char) : List Char × List Char :=
  (cs.takeWhile isDigit, cs.dropWhile isDigit)

/-- The number that decimal digits stand for. -/
def valueOf (ds : List Char) : Nat :=
  ds.foldl (fun n c => 10 * n + (c.toNat - '0'.toNat)) 0

/-- Reads the digits of an integer: at least one, and no zero in front. -/
def whole? (cs : List Char) : Option (List Char × List Char) :=
  match digits cs with
  | ([], _) => none
  | ('0' :: _ :: _, _) => none
  | (ds, rest) => some (ds, rest)

/-- Reads a fraction: its digits, none if there is no point. -/
def fraction? : List Char → Option (List Char × List Char)
  | '.' :: cs =>
    match digits cs with
    | ([], _) => none
    | (ds, rest) => some (ds, rest)
  | cs => some ([], cs)

/-- Reads the digits of an exponent. -/
def exponentDigits? (negative : Bool) (cs : List Char) : Option (Option Int × List Char) :=
  match digits cs with
  | ([], _) => none
  | (ds, rest) =>
    let n : Int := valueOf ds
    some (some (if negative then -n else n), rest)

/-- Reads an exponent, if there is one. -/
def exponent? : List Char → Option (Option Int × List Char)
  | e :: cs =>
    if e = 'e' ∨ e = 'E' then
      match cs with
      | '-' :: r => exponentDigits? true r
      | '+' :: r => exponentDigits? false r
      | r => exponentDigits? false r
    else some (none, e :: cs)
  | [] => some (none, [])

/-- Reads a number whose sign has been read. -/
def unsigned? (negative : Bool) (cs : List Char) : Option (Json × List Char) := do
  let (ds, r) ← whole? cs
  let (fs, r) ← fraction? r
  let (e, r) ← exponent? r
  match fs, e with
  | [], none =>
    let n : Int := valueOf ds
    pure (.int (if negative then -n else n), r)
  | _, _ => pure (.decimal negative (valueOf (ds ++ fs)) (e.getD 0 - fs.length), r)

/-- Reads a number. -/
def number? : List Char → Option (Json × List Char)
  | '-' :: cs => unsigned? true cs
  | cs => unsigned? false cs

/-! ### Values -/

mutual

/-- Reads a value with `fuel` levels to go.  White space in front is passed over. -/
def value? (fuel : Nat) (cs : List Char) : Option (Json × List Char) :=
  match fuel with
  | 0 => none
  | fuel + 1 =>
    match skip cs with
    | '"' :: r => (stringBody none [] r).map fun (s, r) => (.string (String.ofList s), r)
    | '[' :: r =>
      match skip r with
      | ']' :: r => some (.array [], r)
      | r => (items? fuel r).map fun (vs, r) => (.array vs, r)
    | '\x7b' :: r =>
      match skip r with
      | '\x7d' :: r => some (.object [], r)
      | r => (fields? fuel r).map fun (fs, r) => (.object fs, r)
    | 't' :: 'r' :: 'u' :: 'e' :: r => some (.bool true, r)
    | 'f' :: 'a' :: 'l' :: 's' :: 'e' :: r => some (.bool false, r)
    | 'n' :: 'u' :: 'l' :: 'l' :: r => some (.null, r)
    | r => number? r

/-- Reads the members of an array, up to its closing bracket. -/
def items? (fuel : Nat) (cs : List Char) : Option (List Json × List Char) :=
  match fuel with
  | 0 => none
  | fuel + 1 => do
    let (v, r) ← value? fuel cs
    match skip r with
    | ',' :: r =>
      let (vs, r) ← items? fuel r
      pure (v :: vs, r)
    | ']' :: r => pure ([v], r)
    | _ => none

/-- Reads the fields of an object, up to its closing brace. -/
def fields? (fuel : Nat) (cs : List Char) : Option (List (String × Json) × List Char) :=
  match fuel with
  | 0 => none
  | fuel + 1 => do
    let (k, r) ← string? (skip cs)
    match skip r with
    | ':' :: r =>
      let (v, r) ← value? fuel r
      let field := (String.ofList k, v)
      match skip r with
      | ',' :: r =>
        let (fs, r) ← fields? fuel r
        pure (field :: fs, r)
      | '\x7d' :: r => pure ([field], r)
      | _ => none
    | _ => none

end

/-- Reads a text that holds one value and nothing else. -/
def parse? (s : String) : Option Json :=
  let cs := s.toList
  match value? (cs.length + 1) cs with
  | some (v, r) => if (skip r).isEmpty then some v else none
  | none => none

end TapLint.Json
