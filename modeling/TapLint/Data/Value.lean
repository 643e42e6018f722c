/-
Values of settings: what a policy file may hold.

A value is a scalar, a list, a set of scalars, a pair, or a map from scalars to
values that remembers the order of its keys.  Two keys are the same if they are
equal as texts, as numbers (a truth value counts as 0 or 1), as dates or as bytes.

* `Value.merge` — one map laid over another, level by level;
* `Value.isTruthy` — whether a value counts as true;
* `Value.shown` — a value as text, if it can be shown.
-/
import TapLint.Data.Binary64
import TapLint.Data.Moment
import TapLint.Text.Integer
import TapLint.Text.Quoted

namespace TapLint

/-- Why a value cannot be shown. -/
inductive ShowError where
  /-- An integer has too many digits. -/
  | digits
  /-- Too many values are nested in each other. -/
  | depth
  deriving Repr, DecidableEq

/-- The wording of an error. -/
def ShowError.message : ShowError → String
  | digits => "Exceeds the limit (" ++ toString Text.maxDigits ++
      " digits) for integer string conversion; " ++
      "use sys.set_int_max_str_digits() to increase the limit"
  | depth => "maximum recursion depth exceeded while getting the repr of an object"

/-- A value without parts. -/
inductive Scalar where
  | null
  | bool (b : Bool)
  | int (n : Int)
  | float (x : Binary64)
  | string (s : String)
  | date (d : Date)
  | moment (m : Moment)
  | bytes (content : List UInt8)
  deriving Repr, DecidableEq, Inhabited

namespace Scalar

/-- A scalar in the form that keys are compared in: a number that is an integer
as that integer. -/
def keyForm : Scalar → Scalar
  | bool b => int (if b then 1 else 0)
  | float x =>
    match x.toInt? with
    | some n => int n
    | none => float x
  | s => s

/-- Whether two scalars are the same key. -/
def sameKey (a b : Scalar) : Bool := a.keyForm == b.keyForm

/-- Whether a scalar counts as true: no null, no zero, no empty text. -/
def isTruthy : Scalar → Bool
  | null => false
  | bool b => b
  | int n => n != 0
  | float x => !x.isZero
  | string s => !s.isEmpty
  | date _ | moment _ => true
  | bytes content => !content.isEmpty

/-- The name of the type of a scalar. -/
def typeName : Scalar → String
  | null => "NoneType"
  | bool _ => "bool"
  | int _ => "int"
  | float _ => "float"
  | string _ => "str"
  | date _ => "datetime.date"
  | moment _ => "datetime.datetime"
  | bytes _ => "bytes"

/-- A time zone as it is shown inside a list or a map. -/
def shownZone (minutes : Int) : String :=
  if minutes = 0 then "datetime.timezone.utc"
  else "datetime.timezone(" ++ MomentError.span (minutes * 60) ++ ")"

/-- The numbers of a moment that are shown: seconds and microseconds only if they
are not zero. -/
def momentNumbers (m : Moment) : List Nat :=
  [m.date.year, m.date.month, m.date.day, m.hour, m.minute] ++
    (if m.microsecond ≠ 0 then [m.second, m.microsecond]
     else if m.second ≠ 0 then [m.second] else [])

/-- An integer in decimal digits, of which there must not be too many. -/
def shownInteger (n : Int) : Except ShowError String :=
  if Text.maxDigits < (Nat.toDigits 10 n.natAbs).length then .error .digits else .ok (toString n)

/-- A scalar as it is shown inside another value. -/
def shownInside : Scalar → Except ShowError String
  | null => .ok "None"
  | bool b => .ok (if b then "True" else "False")
  | int n => shownInteger n
  | float x => .ok x.shown
  | string s => .ok (Text.quoted s)
  | date d => .ok ("datetime.date(" ++ toString d.year ++ ", " ++ toString d.month ++ ", " ++
      toString d.day ++ ")")
  | moment m => .ok ("datetime.datetime(" ++
      String.intercalate ", " ((momentNumbers m).map toString ++
        (m.offset.map fun o => "tzinfo=" ++ shownZone o).toList) ++ ")")
  | bytes content => .ok (Text.quotedBytes content)

/-- A scalar as text. -/
def shown : Scalar → Except ShowError String
  | string s => .ok s
  | date d => .ok d.iso
  | moment m => .ok (m.shownWith " ")
  | s => s.shownInside

end Scalar

/-- A value of a setting. -/
inductive Value where
  | scalar (s : Scalar)
  | list (items : List Value)
  /-- A set, with its members in the order in which it gives them. -/
  | set (members : List Scalar)
  | pair (first second : Value)
  | map (fields : List (Scalar × Value))
  deriving Inhabited

namespace Value

/-- A text. -/
def string (s : String) : Value := scalar (.string s)

/-- The empty value. -/
def null : Value := scalar .null

/-! ### Fields of maps -/

/-- The value under a key. -/
def lookup (key : Scalar) (fields : List (Scalar × Value)) : Option Value :=
  (fields.find? fun f => f.1.sameKey key).map (·.2)

/-- Puts a value under a key: in the key's place if it is there, else at the end. -/
def put (key : Scalar) (v : Value) : List (Scalar × Value) → List (Scalar × Value)
  | [] => [(key, v)]
  | f :: fs => if f.1.sameKey key then (f.1, v) :: fs else f :: put key v fs

/-- The value of a map under a name. -/
def field? (name : String) : Value → Option Value
  | map fields => lookup (.string name) fields
  | _ => none

/-! ### Laying a map over another -/

mutual

/-- A value laid over another: two maps are merged, and anything else replaces
what was there. -/
def merge (base : Value) : Value → Value
  | map added =>
    match base with
    | map fields => map (mergeFields fields added)
    | _ => map added
  | scalar s => scalar s
  | list items => list items
  | set members => set members
  | pair first second => pair first second

/-- Lays the fields of a map over those of another, one after the other. -/
def mergeFields (fields : List (Scalar × Value)) :
    List (Scalar × Value) → List (Scalar × Value)
  | [] => fields
  | (key, v) :: added =>
    let placed := match lookup key fields with
      | some old => merge old v
      | none => v
    mergeFields (put key placed fields) added

end

/-! ### Truth and text -/

/-- Whether a value counts as true; an empty list, set or map does not. -/
def isTruthy : Value → Bool
  | scalar s => s.isTruthy
  | list items => !items.isEmpty
  | set members => !members.isEmpty
  | pair _ _ => true
  | map fields => !fields.isEmpty

/-- The name of the type of a value. -/
def typeName : Value → String
  | scalar s => s.typeName
  | list _ => "list"
  | set _ => "set"
  | pair _ _ => "tuple"
  | map _ => "dict"

/-- A value, or the empty map if it does not count as true. -/
def orEmpty (v : Value) : Value := if v.isTruthy then v else map []

/-- Texts between brackets. -/
def enclosed (opening : String) (texts : List String) (closing : String) : String :=
  opening ++ String.intercalate ", " texts ++ closing

mutual

/-- A value as it is shown inside another, where so many levels are left. -/
def shownInside : Value → Nat → Except ShowError String
  | _, 0 => .error .depth
  | scalar s, _ + 1 => s.shownInside
  | list items, levels + 1 => (shownItems items levels).map fun texts => enclosed "[" texts "]"
  | set members, _ + 1 =>
    if members.isEmpty then .ok "set()"
    else (members.mapM Scalar.shownInside).map fun texts => enclosed "\x7b" texts "\x7d"
  | pair first second, levels + 1 => do
    let a ← shownInside first levels
    let b ← shownInside second levels
    pure (enclosed "(" [a, b] ")")
  | map fields, levels + 1 =>
    (shownFields fields levels).map fun texts => enclosed "\x7b" texts "\x7d"

/-- The members of a list, each as it is shown. -/
def shownItems : List Value → Nat → Except ShowError (List String)
  | [], _ => .ok []
  | v :: vs, levels => do
    let text ← shownInside v levels
    let texts ← shownItems vs levels
    pure (text :: texts)

/-- The fields of a map, each as it is shown. -/
def shownFields : List (Scalar × Value) → Nat → Except ShowError (List String)
  | [], _ => .ok []
  | (k, v) :: fs, levels => do
    let key ← k.shownInside
    let text ← shownInside v levels
    let texts ← shownFields fs levels
    pure ((key ++ ": " ++ text) :: texts)

end

/-- A value as text, where values may be nested so many levels deep. -/
def shown (levels : Nat) : Value → Except ShowError String
  | scalar s => s.shown
  | v => v.shownInside levels

end Value

end TapLint
