/-
From documents to values.

The tag of a node says what its text or its parts mean.  A mapping takes over the
pairs of the mappings that are merged into it, and of two equal keys the later one
counts.

* `Value.ofYaml` — the value that a text holds, a `YamlReader` for the texts in
  which no node is a part of itself.
-/
import TapLint.Text.Case
import TapLint.Text.Decimal
import TapLint.Yaml.Base64
import TapLint.Yaml.Lexer
import TapLint.Yaml.Node
import TapLint.Yaml.Reader

namespace TapLint

namespace Yaml

/-- The text is not YAML, or its nodes do not fit their tags. -/
def illFormed : YamlError := .malformed "not well-formed YAML"

/-- What cannot be read is malformed, unless it is an escape. -/
def errorOf : Fault → YamlError
  | .malformed => illFormed
  | .characterCode => .unreadable .characterCode

/-! ### Scalars -/

/-- A number without its underscores. -/
def dropUnderscores (text : String) : List Char := text.toList.filter (· != '_')

/-- An integer in a base. -/
def integerIn (base : Nat) (cs : List Char) : Except ScalarError Int :=
  match Text.integer? base (String.ofList cs) with
  | some n => .ok n
  | none =>
    match Text.joinDigits base cs with
    | some ds => .error (.tooManyDigits ds.length)
    | none => .error (.notInteger base (String.ofList cs))

/-- A text cut at its colons. -/
def splitColons (cs : List Char) : List (List Char) :=
  cs.foldr (fun c parts =>
    if c == ':' then [] :: parts
    else match parts with
      | [] => [[c]]
      | p :: ps => (c :: p) :: ps) [[]]

/-- Whether a number has a minus sign, and the number without its sign. -/
def signOf (cs : List Char) : Bool × List Char :=
  match cs with
  | '-' :: rest => (true, rest)
  | '+' :: rest => (false, rest)
  | _ => (false, cs)

/-- An integer without a sign: two, eight and sixteen are bases of their own, and
colons make it a number in base sixty. -/
def magnitude (cs : List Char) : Except ScalarError Int :=
  match cs with
  | [] => .error .emptyNumber
  | ['0'] => .ok 0
  | '0' :: 'b' :: ds => integerIn 2 ds
  | '0' :: 'x' :: ds => integerIn 16 ds
  | '0' :: _ => integerIn 8 cs
  | _ =>
    if cs.contains ':' then do
      let parts ← (splitColons cs).mapM (integerIn 10)
      pure (parts.foldl (fun n d => n * 60 + d) 0)
    else integerIn 10 cs

/-- The integer that a scalar is. -/
def integer (text : String) : Except ScalarError Int :=
  match dropUnderscores text with
  | [] => .error .emptyNumber
  | cs =>
    let (negative, cs) := signOf cs
    (magnitude cs).map fun n => if negative then -n else n

/-- A number with a fraction. -/
def number (cs : List Char) : Except ScalarError Binary64 :=
  match Text.decimal? (String.ofList cs) with
  | some x => .ok x
  | none => .error (.notNumber (String.ofList cs))

/-- The sum of the parts of a number in base sixty, the lowest part first. -/
def sixties (sum : Binary64) (base : Nat) : List Binary64 → Binary64
  | [] => sum
  | x :: xs => sixties (sum.add (x.times base)) (base * 60) xs

/-- The number with a fraction that a scalar is. -/
def float (text : String) : Except ScalarError Binary64 :=
  match dropUnderscores (Text.toLower text) with
  | [] => .error .emptyNumber
  | cs => do
    let (negative, cs) := signOf cs
    let x ←
      if cs == ".inf".toList then pure (Binary64.infinity false)
      else if cs == ".nan".toList then pure Binary64.nan
      else if cs.contains ':' then do
        let parts ← (splitColons cs).mapM number
        pure (sixties (.zero false) 1 parts.reverse)
      else number cs
    pure (if negative then x.neg else x)

/-- The truth value that a scalar is, in letters of any size. -/
def truth (text : String) : Except ScalarError Bool :=
  let word := Text.toLower text
  match truthWords.find? (·.1 == word) with
  | some w => .ok w.2
  | none => .error (.notTruthWord word)

/-- The number that some digits are. -/
def numeral (ds : List Char) : Int := ds.foldl (fun n d => n * 10 + (d.toNat - 48)) 0

/-- The microseconds of a fraction; what is finer is dropped. -/
def microseconds (fraction : List Char) : Int :=
  let ds := fraction.take 6
  numeral (ds ++ List.replicate (6 - ds.length) '0')

/-- How many minutes local time is ahead. -/
def Stamp.offset (s : Stamp) : Option Int :=
  if s.zoned then
    let minutes := numeral s.zoneHour * 60 + numeral s.zoneMinute
    some (if s.sign == some '-' then -minutes else minutes)
  else none

/-- The date or the moment that a scalar is. -/
def timestamp (text : String) : Except ScalarError Scalar :=
  match Stamp.ofChars? text.toList with
  | none => .error .notTimestamp
  | some s =>
    let made :=
      if s.hour.isEmpty then
        (Date.make (numeral s.year) (numeral s.month) (numeral s.day)).map Scalar.date
      else
        (Moment.make (numeral s.year) (numeral s.month) (numeral s.day) (numeral s.hour)
          (numeral s.minute) (numeral s.second) (microseconds s.fraction) s.offset).map
          Scalar.moment
    made.mapError .moment

/-! ### Nodes -/

mutual

/-- The text of a node that should be a scalar.  A mapping can stand for its
value, if it marks one. -/
def textOf : Node → Option String
  | .scalar _ text => some text
  | .mapping _ pairs => textOfValue pairs
  | .sequence .. => none

/-- The text of the value that some pairs mark. -/
def textOfValue : List (Node × Node) → Option String
  | [] => none
  | (k, v) :: rest => if k.tag == Tag.value then textOf v else textOfValue rest

end

/-- The bytes that a scalar stands for. -/
def binary (text : String) : Except YamlError Scalar :=
  match bytes64? text with
  | some bytes => .ok (.bytes bytes)
  | none => .error illFormed

/-- The scalar of a node with a scalar's tag. -/
def scalarIn (tag text : String) : Except YamlError Scalar :=
  if tag == Tag.null then .ok .null
  else if tag == Tag.bool then ((truth text).map .bool).mapError .unreadable
  else if tag == Tag.int then ((integer text).map .int).mapError .unreadable
  else if tag == Tag.float then ((float text).map .float).mapError .unreadable
  else if tag == Tag.timestamp then (timestamp text).mapError .unreadable
  else if tag == Tag.binary then binary text
  else if tag == Tag.string then .ok (.string text)
  else .error illFormed

mutual

/-- The pairs of a mapping with those that are merged into it in front. -/
def mergedPairs : Node → Except YamlError (List (Node × Node))
  | .mapping _ pairs => do
    let (merged, own) ← mergePairs pairs
    pure (merged ++ own)
  | _ => .error illFormed

/-- What some pairs merge, and the other pairs. -/
def mergePairs : List (Node × Node) → Except YamlError (List (Node × Node) × List (Node × Node))
  | [] => .ok ([], [])
  | (k, v) :: rest =>
    if k.tag == Tag.merge then do
      let found ← match v with
        | .mapping tag pairs => mergedPairs (.mapping tag pairs)
        | .sequence _ items => mergedItems items
        | .scalar .. => .error illFormed
      let (merged, own) ← mergePairs rest
      pure (found ++ merged, own)
    else do
      let (merged, own) ← mergePairs rest
      pure (merged, (k, v) :: own)

/-- The pairs of a list of mappings, the last mapping first, so that an earlier
mapping counts more. -/
def mergedItems : List Node → Except YamlError (List (Node × Node))
  | [] => .ok []
  | n :: ns => do
    let first ← mergedPairs n
    let others ← mergedItems ns
    pure (others ++ first)

end

/-- An error and how deep it lies.  The outer one of two errors is reported, and of
two equally deep ones the first. -/
abbrev Outcome (α : Type) := Except (Nat × YamlError) α

/-- Both of two outcomes, or the error to be reported. -/
def both {α β : Type} (x : Outcome α) (y : Outcome β) : Outcome (α × β) :=
  match x, y with
  | .ok a, .ok b => .ok (a, b)
  | .error e, .ok _ => .error e
  | .ok _, .error e => .error e
  | .error (m, e), .error (n, f) => if n < m then .error (n, f) else .error (m, e)

/-- A key: a scalar. -/
def keyOf (depth : Nat) (n : Node) : Outcome Scalar :=
  match textOf n with
  | none => .error (depth, illFormed)
  | some text =>
    match scalarIn (if n.tag == Tag.value then Tag.string else n.tag) text with
    | .ok s => .ok s
    | .error e => .error (depth, e)

mutual

/-- The value of a node; `bound` limits how deep nodes are nested. -/
def valueOf (depth : Nat) (n : Node) : Nat → Outcome Value
  | 0 => .error (depth, illFormed)
  | bound + 1 =>
    if n.tag == Tag.mapping then
      match mergedPairs n with
      | .error e => .error (depth + 1, e)
      | .ok pairs => (fieldsOf (depth + 1) [] pairs bound).map Value.map
    else if n.tag == Tag.sequence then
      match n with
      | .sequence _ items => (itemsOf (depth + 1) items bound).map Value.list
      | _ => .error (depth + 1, illFormed)
    else if n.tag == Tag.set then
      match mergedPairs n with
      | .error e => .error (depth + 1, e)
      | .ok pairs =>
        (fieldsOf (depth + 1) [] pairs bound).map fun fields => Value.set (fields.map (·.1))
    else if n.tag == Tag.pairs || n.tag == Tag.omap then
      match n with
      | .sequence _ items => (pairsOf (depth + 1) items bound).map Value.list
      | _ => .error (depth + 1, illFormed)
    else match textOf n with
      | none => .error (depth, illFormed)
      | some text =>
        match scalarIn n.tag text with
        | .ok s => .ok (.scalar s)
        | .error e => .error (depth, e)
termination_by structural bound => bound

/-- The values of some nodes. -/
def itemsOf (depth : Nat) (ns : List Node) : Nat → Outcome (List Value)
  | 0 => .error (depth, illFormed)
  | bound + 1 =>
    match ns with
    | [] => .ok []
    | n :: rest =>
      (both (valueOf depth n bound) (itemsOf depth rest bound)).map fun p => p.1 :: p.2
termination_by structural bound => bound

/-- The pairs that some mappings of one pair each describe. -/
def pairsOf (depth : Nat) (ns : List Node) : Nat → Outcome (List Value)
  | 0 => .error (depth, illFormed)
  | bound + 1 =>
    match ns with
    | [] => .ok []
    | .mapping _ [(k, v)] :: rest =>
      (both (both (valueOf depth k bound) (valueOf depth v bound)) (pairsOf depth rest bound)).map
        fun p => .pair p.1.1 p.1.2 :: p.2
    | _ => .error (depth, illFormed)
termination_by structural bound => bound

/-- The fields that some pairs describe, beside those that are known already. -/
def fieldsOf (depth : Nat) (sofar : List (Scalar × Value)) (pairs : List (Node × Node)) :
    Nat → Outcome (List (Scalar × Value))
  | 0 => .error (depth, illFormed)
  | bound + 1 =>
    match pairs with
    | [] => .ok sofar
    | (k, v) :: rest =>
      match both (keyOf depth k) (valueOf depth v bound) with
      | .ok (key, value) => fieldsOf depth (Value.put key value sofar) rest bound
      | .error e =>
        (both (.error e : Outcome Unit) (fieldsOf depth sofar rest bound)).map (·.2)
termination_by structural bound => bound

end

mutual

/-- The number of nodes in a node. -/
def Node.size : Node → Nat
  | .scalar .. => 1
  | .sequence _ items => 1 + sizeOfItems items
  | .mapping _ pairs => 1 + sizeOfPairs pairs

/-- The number of nodes in some nodes. -/
def sizeOfItems : List Node → Nat
  | [] => 0
  | n :: ns => n.size + sizeOfItems ns

/-- The number of nodes in some pairs. -/
def sizeOfPairs : List (Node × Node) → Nat
  | [] => 0
  | (k, v) :: rest => k.size + v.size + sizeOfPairs rest

end

end Yaml

/-- The value that a text holds; an empty text holds nothing. -/
def Value.ofYaml : YamlReader := fun text => do
  let tokens ← (Yaml.Token.ofText text).mapError Yaml.errorOf
  match ← (Yaml.Node.ofTokens tokens).mapError Yaml.errorOf with
  | none => pure .null
  | some n => (Yaml.valueOf 0 n (4 * n.size + 4)).mapError (·.2)

end TapLint
