/-
Reading the arguments of a command.

An argument that begins with a dash is an option, unless it is one that no option
can be; others are words.  A long option may be shortened as long as it stays
unambiguous, its argument may follow an equals sign, and short options may be run
together.  After two dashes everything is a word.

* `Piece.ofText` — what one argument is;
* `Signature.read` — what all arguments say.
-/
import TapLint.Text.Digit
import TapLint.Text.Quoted

namespace TapLint.CommandLine

/-- An option. -/
structure Switch where
  /-- Its names, each with its dashes. -/
  names : List String
  /-- Whether it takes an argument. -/
  takesArgument : Bool := false
  /-- The arguments that it takes, if not all are right. -/
  choices : List String := []
  /-- Whether nothing after it is read. -/
  final : Bool := false
  /-- A group of which only one option may be given. -/
  group : Option Nat := none
  deriving Repr, DecidableEq, Inhabited

namespace Switch

/-- What an option is called in messages. -/
def title (s : Switch) : String := String.intercalate "/" s.names

/-- What an option is called in what was read. -/
def key (s : Switch) : String := s.names.headD ""

end Switch

/-- The words that a command takes. -/
inductive Words where
  | none
  /-- One or more. -/
  | some (title : String)
  /-- One of some words, after which another command reads what follows. -/
  | command (title : String) (choices : List String)
  deriving Repr, DecidableEq

/-- What a command understands. -/
structure Signature where
  switches : List Switch
  words : Words

/-- Why arguments cannot be read. -/
inductive ArgumentError where
  | ambiguous (text : String) (matching : List String)
  | missingArgument (title : String)
  | needlessArgument (title argument : String)
  | invalidChoice (title value : String) (choices : List String)
  | excluded (title other : String)
  | missingWords (title : String)
  | unknown (texts : List String)
  deriving Repr, DecidableEq

/-- The wording of an error. -/
def ArgumentError.message : ArgumentError → String
  | ambiguous text matching =>
    "ambiguous option: " ++ text ++ " could match " ++ String.intercalate ", " matching
  | missingArgument title => "argument " ++ title ++ ": expected one argument"
  | needlessArgument title argument =>
    "argument " ++ title ++ ": ignored explicit argument " ++ Text.quoted argument
  | invalidChoice title value choices =>
    "argument " ++ title ++ ": invalid choice: " ++ Text.quoted value ++ " (choose from " ++
      String.intercalate ", " (choices.map Text.quoted) ++ ")"
  | excluded title other => "argument " ++ title ++ ": not allowed with argument " ++ other
  | missingWords title => "the following arguments are required: " ++ title
  | unknown texts => "unrecognized arguments: " ++ String.intercalate " " texts

/-! ### Single arguments -/

/-- An argument that hangs together with its option. -/
structure Attached where
  /-- Whether an equals sign stands between them. -/
  byEquals : Bool
  text : String
  deriving Repr, DecidableEq

/-- An option as it was found: under one of its names, maybe with an argument. -/
structure Found where
  switch : Switch
  name : String
  attached : Option Attached := none
  deriving Repr, DecidableEq

/-- What an argument is. -/
inductive Piece where
  | word (text : String)
  /-- The two dashes after which all are words. -/
  | separator
  | option (found : Found)
  /-- An option that nobody knows. -/
  | stranger (text : String)
  deriving Repr, DecidableEq

/-- Whether an argument is a negative number. -/
def isNegativeNumber (cs : List Char) : Bool :=
  match cs with
  | '-' :: ds =>
    let rest := ds.dropWhile Text.isDigit
    match rest with
    | [] => !ds.isEmpty
    | '.' :: fraction => !fraction.isEmpty && fraction.all Text.isDigit
    | _ => false
  | _ => false

/-- A text cut at its first equals sign. -/
def splitEquals (s : String) : Option (String × String) :=
  let cs := s.toList
  match cs.dropWhile (· ≠ '=') with
  | [] => none
  | _ :: rest => some (String.ofList (cs.takeWhile (· ≠ '=')), String.ofList rest)

namespace Signature

/-- All names, each with its option. -/
def names (x : Signature) : List (String × Switch) :=
  x.switches.flatMap fun s => s.names.map (·, s)

/-- The option with a name. -/
def named? (x : Signature) (name : String) : Option Switch :=
  (x.names.find? (·.1 == name)).map (·.2)

/-- The options that a text with one dash may mean: a short one with an argument
attached, or one that it is the beginning of. -/
def shortMatches (x : Signature) (text : List Char) : List Found :=
  x.names.filterMap fun (name, switch) =>
    if name.toList = text.take 2 then
      some { switch, name, attached := some ⟨false, String.ofList (text.drop 2)⟩ }
    else if text.isPrefixOf name.toList then some { switch, name }
    else none

/-- The options that a text with two dashes may mean: those that it is the beginning
of. -/
def longMatches (x : Signature) (text : String) : List Found :=
  let (start, attached) := match splitEquals text with
    | some (start, argument) => (start, some (Attached.mk true argument))
    | none => (text, none)
  x.names.filterMap fun (name, switch) =>
    if start.toList.isPrefixOf name.toList then some { switch, name, attached } else none

/-- The option that a text names in full, before an equals sign. -/
def exactMatch? (x : Signature) (text : String) : Option Found :=
  match splitEquals text with
  | some (name, argument) =>
    (x.named? name).map fun switch => { switch, name, attached := some ⟨true, argument⟩ }
  | none => none

/-- What a text that begins with a dash is, if no option has it as a name. -/
def piece (x : Signature) (text : String) : Except ArgumentError Piece :=
  let cs := text.toList
  let found := if cs[1]? == some '-' then x.longMatches text else x.shortMatches cs
  match found with
  | [f] => .ok (.option f)
  | [] => .ok (if isNegativeNumber cs || cs.contains ' ' then .word text else .stranger text)
  | _ => .error (.ambiguous text (found.map (·.name)))

end Signature

/-- What an argument is. -/
def Piece.ofText (x : Signature) (text : String) : Except ArgumentError Piece :=
  match text.toList with
  | '-' :: rest =>
    match x.named? text with
    | some switch => .ok (.option { switch, name := text })
    | none =>
      if rest.isEmpty then .ok (.word text)
      else match x.exactMatch? text with
        | some f => .ok (.option f)
        | none => x.piece text
  | _ => .ok (.word text)

/-- What all arguments are. -/
def Piece.ofTexts (x : Signature) : List String → Except ArgumentError (List Piece)
  | [] => .ok []
  | text :: rest =>
    if text = "--" then .ok (.separator :: rest.map .word)
    else do
      let p ← Piece.ofText x text
      let ps ← Piece.ofTexts x rest
      pure (p :: ps)

/-! ### Options in a row -/

/-- What stands in one argument: options that are complete, one that may take the
next word, and what nobody knows. -/
structure Cluster where
  complete : List (Switch × Option String) := []
  pending : Option Switch := none
  stranger : Option String := none

/-- Takes an argument apart in which short options may be run together. -/
def unfold (x : Signature) (f : Found) (sofar : List (Switch × Option String)) :
    Nat → Except ArgumentError Cluster
  | 0 => .ok { complete := sofar }
  | bound + 1 =>
    match f.attached with
    | none => .ok { complete := sofar, pending := some f.switch }
    | some a =>
      if f.switch.takesArgument then
        .ok { complete := sofar ++ [(f.switch, some a.text)] }
      else
        let refused : Except ArgumentError Cluster :=
          .error (.needlessArgument f.switch.title a.text)
        match a.text.toList with
        | [] => refused
        | c :: cs =>
          if f.name.toList[1]? == some '-' || a.byEquals || c = '-' then refused
          else
            let sofar := sofar ++ [(f.switch, none)]
            let name := String.ofList ['-', c]
            match x.named? name with
            | none => .ok { complete := sofar, stranger := some (String.ofList ('-' :: c :: cs)) }
            | some switch =>
              let attached := match cs with
                | [] => none
                | '=' :: argument => some (Attached.mk true (String.ofList argument))
                | _ => some (Attached.mk false (String.ofList cs))
              unfold x { switch, name, attached } sofar bound

/-! ### All arguments -/

/-- What was read. -/
structure Reading where
  /-- The options that were given, each with its argument. -/
  given : List (Switch × Option String) := []
  words : List String := []
  /-- Whether the words have been taken. -/
  satisfied : Bool := false
  /-- What nobody knows. -/
  strangers : List String := []

/-- Why reading ends before the last argument. -/
inductive Stop where
  /-- An option after which nothing is read. -/
  | final (key : String)
  | error (why : ArgumentError)
  deriving Repr, DecidableEq

/-- Takes an option. -/
def Reading.take (r : Reading) (s : Switch) (argument : Option String) : Except Stop Reading := do
  match argument with
  | some a =>
    if !s.choices.isEmpty && !s.choices.contains a then
      throw (.error (.invalidChoice s.title a s.choices))
  | none => pure ()
  match r.given.find? fun g => g.1.group.isSome && g.1.group == s.group && g.1 != s with
  | some other => throw (.error (.excluded s.title other.1.title))
  | none => pure ()
  if s.final then throw (.final s.key)
  pure { r with given := r.given ++ [(s, argument)] }

/-- Takes options in order. -/
def Reading.takeAll (r : Reading) : List (Switch × Option String) → Except Stop Reading
  | [] => .ok r
  | (s, argument) :: rest => do
    let r ← r.take s argument
    r.takeAll rest

/-- Whether a piece is no option. -/
def Piece.isPlain : Piece → Bool
  | word _ | separator => true
  | option _ | stranger _ => false

/-- Words without the first separator among them. -/
def withoutSeparator : List (Piece × String) → List String
  | [] => []
  | (.separator, _) :: rest => rest.map (·.2)
  | (_, text) :: rest => text :: withoutSeparator rest

/-- Takes words that follow one another. -/
def Reading.takeWords (x : Signature) (r : Reading) (run : List (Piece × String)) : Reading :=
  let isWord (p : Piece × String) : Bool := p.1 != .separator
  match x.words with
  | .some _ =>
    if r.satisfied || !run.any isWord then { r with strangers := r.strangers ++ run.map (·.2) }
    else { r with satisfied := true, words := withoutSeparator run }
  | _ => { r with strangers := r.strangers ++ run.map (·.2) }

/-- Whether words that follow one another name a command. -/
def Signature.startsCommand (x : Signature) (run : List (Piece × String)) : Bool :=
  match x.words with
  | .command .. => run.any fun p => p.1 != .separator
  | _ => false

/-- Reads arguments from some point on. -/
def Signature.readFrom (x : Signature) (r : Reading) (pieces : List (Piece × String)) :
    Nat → Except Stop Reading
  | 0 => .ok r
  | bound + 1 =>
    match pieces with
    | [] => .ok r
    | (.stranger text, _) :: rest =>
      x.readFrom { r with strangers := r.strangers ++ [text] } rest bound
    | (.option f, text) :: rest => do
      let cluster ← (unfold x f [] (text.length + 1)).mapError .error
      let r := { r with strangers := r.strangers ++ cluster.stranger.toList }
      match cluster.pending with
      | none =>
        let r ← r.takeAll cluster.complete
        x.readFrom r rest bound
      | some s =>
        if s.takesArgument then
          match rest with
          | (.word a, _) :: rest =>
            let r ← r.takeAll (cluster.complete ++ [(s, some a)])
            x.readFrom r rest bound
          | _ => throw (.error (.missingArgument s.title))
        else
          let r ← r.takeAll (cluster.complete ++ [(s, none)])
          x.readFrom r rest bound
    | _ =>
      let run := pieces.takeWhile (·.1.isPlain)
      if x.startsCommand run then
        .ok { r with satisfied := true, words := pieces.map (·.2) }
      else x.readFrom (r.takeWords x run) (pieces.dropWhile (·.1.isPlain)) bound

/-- Reads all arguments. -/
def Signature.read (x : Signature) (texts : List String) : Except Stop Reading := do
  let pieces ← (Piece.ofTexts x texts).mapError .error
  let r ← x.readFrom {} (pieces.zip texts) (texts.length + 1)
  match x.words with
  | .some title => if r.satisfied then pure r else throw (.error (.missingWords title))
  | .command title choices =>
    match r.words with
    | [] => pure r
    | name :: _ =>
      if choices.contains name then pure r
      else throw (.error (.invalidChoice title name choices))
  | .none => pure r

end TapLint.CommandLine
