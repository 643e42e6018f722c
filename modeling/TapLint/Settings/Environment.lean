/-
Environment variables.

An environment gives a text to some names.  It may be extended by the lines of a
file, each of which assigns a text to a name.

* `Environment.get?`, `Environment.set` — reading and writing a variable;
* `Environment.assignments` — what the lines of a text assign;
* `Environment.extend` — the environment after some assignments.
-/
import TapLint.Files.Path
import TapLint.Text.Blank

namespace TapLint

/-- An environment: every name stands for at most one text. -/
structure Environment where
  bindings : List (String × String) := []
  deriving Repr, DecidableEq

/-- Why a variable cannot be set. -/
inductive AssignmentError where
  /-- A name or a text that holds the null character. -/
  | nullCharacter
  /-- A name without characters. -/
  | emptyName
  deriving Repr, DecidableEq

/-- The wording of an error. -/
def AssignmentError.message : AssignmentError → String
  | nullCharacter => "embedded null byte"
  | emptyName => "[Errno 22] Invalid argument"

namespace Environment

/-- The text of a variable. -/
def get? (env : Environment) (name : String) : Option String :=
  (env.bindings.find? (·.1 == name)).map (·.2)

/-- The text of a variable, unless it is empty. -/
def given? (env : Environment) (name : String) : Option String :=
  (env.get? name).filter (!·.isEmpty)

/-- Puts a text in the place of a variable, or at the end. -/
def put (name text : String) : List (String × String) → List (String × String)
  | [] => [(name, text)]
  | v :: vs => if v.1 = name then (name, text) :: vs else v :: put name text vs

/-- Sets a variable. -/
def set (env : Environment) (name text : String) : Environment :=
  ⟨put name text env.bindings⟩

/-- Whether a text holds the null character. -/
def hasNull (s : String) : Bool := s.toList.contains (Char.ofNat 0)

/-- Sets a variable, if that is possible. -/
def assign (env : Environment) (name text : String) : Except AssignmentError Environment :=
  if hasNull name || hasNull text then .error .nullCharacter
  else if name.isEmpty then .error .emptyName
  else .ok (env.set name text)

/-! ### Files of assignments -/

/-- What a line assigns: a text to a name, both without the blanks around them.
Lines without an equals sign, and comments, assign nothing. -/
def assignment? (line : List Char) : Option (String × String) :=
  match Text.trimChars line with
  | [] => none
  | '#' :: _ => none
  | cs =>
    match cs.dropWhile (· ≠ '=') with
    | [] => none
    | _ :: text =>
      some (String.ofList (Text.trimChars (cs.takeWhile (· ≠ '='))),
        String.ofList (Text.trimChars text))

/-- What the lines of a text assign, in order. -/
def assignments (text : String) : List (String × String) :=
  (Path.splitChars '\n' text.toList).filterMap assignment?

/-- The environment after some assignments, up to the first that is not possible,
and why that one is not. -/
def extend (env : Environment) : List (String × String) → Environment × Option AssignmentError
  | [] => (env, none)
  | (name, text) :: rest =>
    match env.assign name text with
    | .ok env => env.extend rest
    | .error why => (env, some why)

end Environment

end TapLint
