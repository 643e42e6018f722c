/-
JSON values and the two ways to print them.

* `Json.compact` — on one line, without spaces;
* `Json.pretty` — indented by two spaces a level.

Both texts are plain ASCII: characters beyond the tilde are escaped, those
outside the basic plane as two surrogates.
-/

namespace TapLint

/-- A JSON value.  A number with a fraction or an exponent is kept as its digits
and the power of ten that they are to be multiplied with. -/
inductive Json where
  | null
  | bool (b : Bool)
  | int (n : Int)
  | decimal (negative : Bool) (digits : Nat) (exponent : Int)
  | string (s : String)
  | array (items : List Json)
  | object (fields : List (String × Json))
  deriving Inhabited

namespace Json

/-! ### Strings -/

/-- A hexadecimal digit, in lower case. -/
def hexDigit (n : Nat) : Char := Nat.digitChar (n % 16)

/-- A 16-bit unit as an escape. -/
def escapeUnit (n : Nat) : List Char :=
  ['\\', 'u', hexDigit (n / 4096), hexDigit (n / 256), hexDigit (n / 16), hexDigit n]

/-- How a character is written inside a string. -/
def escapeChar (c : Char) : List Char :=
  let n := c.toNat
  if c = '"' then ['\\', '"']
  else if c = '\\' then ['\\', '\\']
  else if 0x20 ≤ n ∧ n ≤ 0x7E then [c]
  else if n = 0x0A then ['\\', 'n']
  else if n = 0x0D then ['\\', 'r']
  else if n = 0x09 then ['\\', 't']
  else if n = 0x0C then ['\\', 'f']
  else if n = 0x08 then ['\\', 'b']
  else if n < 0x10000 then escapeUnit n
  else escapeUnit (0xD800 + (n - 0x10000) / 0x400) ++ escapeUnit (0xDC00 + (n - 0x10000) % 0x400)

/-- A string between quotes. -/
def printString (s : String) : List Char :=
  '"' :: s.toList.flatMap escapeChar ++ ['"']

/-! ### Numbers -/

/-- An integer in decimal. -/
def printInt : Int → List Char
  | .ofNat n => Nat.toDigits 10 n
  | .negSucc n => '-' :: Nat.toDigits 10 (n + 1)

/-- A number with an exponent. -/
def printDecimal (negative : Bool) (digits : Nat) (exponent : Int) : List Char :=
  (if negative then ['-'] else []) ++ Nat.toDigits 10 digits ++ 'e' :: printInt exponent

/-! ### Layouts -/

/-- How a value is laid out: what stands after the opening bracket of a container
that is not empty, between two members, before the closing bracket, and between
a key and its value.  Each may depend on the depth of the container. -/
structure Layout where
  opening : Nat → List Char
  between : Nat → List Char
  closing : Nat → List Char
  colon : List Char

/-- Everything on one line, without spaces. -/
def Layout.compact : Layout :=
  { opening := fun _ => []
    between := fun _ => [',']
    closing := fun _ => []
    colon := [':'] }

/-- A new line, indented for a depth. -/
def newLine (depth : Nat) : List Char := '\n' :: List.replicate (2 * depth) ' '

/-- Every member on a line of its own. -/
def Layout.pretty : Layout :=
  { opening := fun depth => newLine (depth + 1)
    between := fun depth => ',' :: newLine (depth + 1)
    closing := fun depth => newLine depth
    colon := [':', ' '] }

mutual

/-- Prints a value that stands inside `depth` containers. -/
def print (layout : Layout) (depth : Nat) : Json → List Char
  | null => ['n', 'u', 'l', 'l']
  | bool true => ['t', 'r', 'u', 'e']
  | bool false => ['f', 'a', 'l', 's', 'e']
  | int n => printInt n
  | decimal negative digits exponent => printDecimal negative digits exponent
  | string s => printString s
  | array [] => ['[', ']']
  | array (v :: vs) =>
    '[' :: layout.opening depth ++ print layout (depth + 1) v ++ printItems layout depth vs ++
      layout.closing depth ++ [']']
  | object [] => ['\x7b', '\x7d']
  | object ((k, v) :: fs) =>
    '\x7b' :: layout.opening depth ++ printString k ++ layout.colon ++ print layout (depth + 1) v ++
      printFields layout depth fs ++ layout.closing depth ++ ['\x7d']

/-- Prints the members of an array that follow its first one. -/
def printItems (layout : Layout) (depth : Nat) : List Json → List Char
  | [] => []
  | v :: vs => layout.between depth ++ print layout (depth + 1) v ++ printItems layout depth vs

/-- Prints the fields of an object that follow its first one. -/
def printFields (layout : Layout) (depth : Nat) : List (String × Json) → List Char
  | [] => []
  | (k, v) :: fs =>
    layout.between depth ++ printString k ++ layout.colon ++ print layout (depth + 1) v ++
      printFields layout depth fs

end

/-- A value on one line. -/
def compact (v : Json) : String := String.ofList (print .compact 0 v)

/-- A value indented by two spaces a level. -/
def pretty (v : Json) : String := String.ofList (print .pretty 0 v)

/-! ### Building and taking apart -/

/-- A text, or nothing. -/
def ofString? : Option String → Json
  | none => null
  | some s => string s

/-- The value of a field; the last one counts if a key stands twice. -/
def field? (key : String) : Json → Option Json
  | object fields => (fields.reverse.find? (·.1 == key)).map (·.2)
  | _ => none

end Json

end TapLint
