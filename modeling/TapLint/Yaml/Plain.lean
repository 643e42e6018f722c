/-
What a scalar without quotes means.

A plain scalar is a truth value, a number, a date, nothing or a mark if it is
written like one, and a text otherwise.

* `Tag.ofPlain` — the tag that the form of a plain scalar implies.
-/

namespace TapLint.Yaml

namespace Tag

/-- How the tags of the language begin. -/
def stem : String := "tag:yaml.org,2002:"

/-- Nothing. -/
def null : String := stem ++ "null"

/-- A truth value. -/
def bool : String := stem ++ "bool"

/-- An integer. -/
def int : String := stem ++ "int"

/-- A number with a fraction. -/
def float : String := stem ++ "float"

/-- A date, or a moment. -/
def timestamp : String := stem ++ "timestamp"

/-- A text. -/
def string : String := stem ++ "str"

/-- Bytes in base 64. -/
def binary : String := stem ++ "binary"

/-- A list. -/
def sequence : String := stem ++ "seq"

/-- A map. -/
def mapping : String := stem ++ "map"

/-- The keys of a map. -/
def set : String := stem ++ "set"

/-- A list of pairs, each written as a map of its own. -/
def pairs : String := stem ++ "pairs"

/-- A list of pairs that stand for an ordered map. -/
def omap : String := stem ++ "omap"

/-- The mark before a map that is merged into another. -/
def merge : String := stem ++ "merge"

/-- The mark for the value of a map itself. -/
def value : String := stem ++ "value"

end Tag

/-! ### Forms -/

/-- Whether a character is a digit. -/
def isDigit (c : Char) : Bool := '0' ≤ c && c ≤ '9'

/-- Whether a character may stand among the digits of a number in some base. -/
def isDigitIn (base : Nat) (c : Char) : Bool :=
  c == '_' ||
    (if base == 16 then c.isDigit || ('a' ≤ c && c ≤ 'f') || ('A' ≤ c && c ≤ 'F')
     else c.isDigit && c.toNat < 48 + base)

/-- A text without its sign. -/
def dropSign : List Char → List Char
  | '+' :: cs => cs
  | '-' :: cs => cs
  | cs => cs

/-- Whether a text is a colon with a number below sixty, some times over. -/
def isSixties : List Char → Bool
  | [':', b] => isDigit b
  | ':' :: a :: ':' :: cs => isDigit a && isSixties (':' :: cs)
  | [':', a, b] => '0' ≤ a && a ≤ '5' && isDigit b
  | ':' :: a :: b :: cs => '0' ≤ a && a ≤ '5' && isDigit b && isSixties cs
  | _ => false
termination_by cs => cs.length

/-- Whether a text is an integer: in base two, eight, ten or sixteen, or in base
sixty. -/
def isInteger (text : List Char) : Bool :=
  match dropSign text with
  | '0' :: 'b' :: cs => !cs.isEmpty && cs.all (isDigitIn 2)
  | '0' :: 'x' :: cs => !cs.isEmpty && cs.all (isDigitIn 16)
  | ['0'] => true
  | '0' :: cs => cs.all (isDigitIn 8)
  | c :: cs =>
    isDigit c &&
      (cs.all (isDigitIn 10) || isSixties (cs.dropWhile (isDigitIn 10)))
  | [] => false

/-- Whether a text is an exponent, or is empty. -/
def isExponent : List Char → Bool
  | [] => true
  | e :: sign :: ds =>
    (e == 'e' || e == 'E') && (sign == '+' || sign == '-') && !ds.isEmpty && ds.all isDigit
  | _ => false

/-- Whether a text is a number with a point. -/
def isFloat (text : List Char) : Bool :=
  let cs := dropSign text
  let signed := cs.length != text.length
  match cs with
  | '.' :: rest =>
    let name := String.ofList rest
    name == "inf" || name == "Inf" || name == "INF" ||
      (!signed && (name == "nan" || name == "NaN" || name == "NAN" ||
        (rest.head?.any isDigit && isExponent (rest.dropWhile (isDigitIn 10)))))
  | c :: rest =>
    isDigit c &&
      (let after := rest.dropWhile (isDigitIn 10)
       match after with
       | '.' :: fraction => isExponent (fraction.dropWhile (isDigitIn 10))
       | _ =>
         let whole := after.takeWhile (· != '.')
         match after.dropWhile (· != '.') with
         | '.' :: fraction => isSixties whole && fraction.all (isDigitIn 10)
         | _ => false)
  | [] => false

/-- The words for truth and falsehood; each may be written small, capitalised or
large. -/
def truthWords : List (String × Bool) := [
  ("yes", true), ("no", false), ("true", true), ("false", false), ("on", true), ("off", false)]

/-- The three ways to write a word. -/
def spellings (word : String) : List String :=
  [word, String.ofList (word.toList.mapIdx fun i c => if i = 0 then c.toUpper else c),
    word.map Char.toUpper]

/-- Whether a text is a word for truth or falsehood. -/
def isTruthWord (text : String) : Bool :=
  truthWords.any fun w => (spellings w.1).contains text

/-! ### Dates -/

/-- The parts of a date or a moment, as they are written. -/
structure Stamp where
  year : List Char
  month : List Char
  day : List Char
  hour : List Char := []
  minute : List Char := []
  second : List Char := []
  fraction : List Char := []
  /-- Whether there is a zone; that of Greenwich has no sign. -/
  zoned : Bool := false
  sign : Option Char := none
  zoneHour : List Char := []
  zoneMinute : List Char := []
  deriving Inhabited

/-- Takes one or two digits. -/
def oneOrTwo : List Char → Option (List Char × List Char)
  | a :: b :: cs =>
    if isDigit a then if isDigit b then some ([a, b], cs) else some ([a], b :: cs) else none
  | [a] => if isDigit a then some ([a], []) else none
  | [] => none

/-- Takes two digits. -/
def two : List Char → Option (List Char × List Char)
  | a :: b :: cs => if isDigit a && isDigit b then some ([a, b], cs) else none
  | _ => none

/-- Takes a character. -/
def one (x : Char) : List Char → Option (List Char)
  | c :: cs => if c == x then some cs else none
  | [] => none

/-- Goes past spaces and tabs. -/
def dropBlanks (cs : List Char) : List Char := cs.dropWhile fun c => c == ' ' || c == '\t'

/-- Reads the zone at the end of a moment. -/
def zone (s : Stamp) (cs : List Char) : Option Stamp :=
  match cs with
  | [] => some s
  | _ =>
    match dropBlanks cs with
    | ['Z'] => some { s with zoned := true }
    | c :: rest =>
      if c == '+' || c == '-' then do
        let (hour, rest) ← oneOrTwo rest
        match rest with
        | [] => pure { s with zoned := true, sign := some c, zoneHour := hour }
        | _ => do
          let rest ← one ':' rest
          let (minute, rest) ← two rest
          guard rest.isEmpty
          pure { s with zoned := true, sign := some c, zoneHour := hour, zoneMinute := minute }
      else none
    | [] => none

/-- Reads what follows the day. -/
def timeOfDay (s : Stamp) (cs : List Char) : Option Stamp := do
  let cs ← match cs with
    | c :: rest =>
      if c == 'T' || c == 't' then some rest
      else if c == ' ' || c == '\t' then some (dropBlanks rest)
      else none
    | [] => none
  let (hour, cs) ← oneOrTwo cs
  let cs ← one ':' cs
  let (minute, cs) ← two cs
  let cs ← one ':' cs
  let (second, cs) ← two cs
  let (fraction, cs) := match cs with
    | '.' :: rest => (rest.takeWhile isDigit, rest.dropWhile isDigit)
    | _ => ([], cs)
  zone { s with hour, minute, second, fraction } cs

/-- Reads a date, or a date with a time of day. -/
def Stamp.ofChars? (cs : List Char) : Option Stamp := do
  let year := cs.take 4
  guard (year.length == 4 && year.all isDigit)
  let cs ← one '-' (cs.drop 4)
  let (month, cs) ← oneOrTwo cs
  let cs ← one '-' cs
  let (day, cs) ← oneOrTwo cs
  let s : Stamp := { year, month, day }
  if cs.isEmpty then some s else timeOfDay s cs

/-- Whether a plain scalar is a date or a moment.  A date alone has two digits for
the month and for the day. -/
def isTimestamp (cs : List Char) : Bool :=
  match Stamp.ofChars? cs with
  | some s => !s.hour.isEmpty || (s.month.length == 2 && s.day.length == 2)
  | none => false

/-! ### Tags -/

/-- The tag that the form of a plain scalar implies. -/
def Tag.ofPlain (text : String) : String :=
  let cs := text.toList
  if isTruthWord text then Tag.bool
  else if isFloat cs then Tag.float
  else if isInteger cs then Tag.int
  else if text == "<<" then Tag.merge
  else if text == "" || text == "~" || text == "null" || text == "Null" || text == "NULL" then
    Tag.null
  else if isTimestamp cs then Tag.timestamp
  else if text == "=" then Tag.value
  else Tag.string

end TapLint.Yaml
