/-
Writing files.

* `Files.destination` — the place that a path gives to a new file;
* `Files.save` — the tree with a text written to a path.
-/
import TapLint.Files.Tree
import TapLint.Text.Quoted

namespace TapLint

/-- Why a file cannot be written. -/
inductive WriteError where
  /-- A directory on the way to the file is not there. -/
  | missing (path : String)
  /-- What should be a directory on the way to the file is a file. -/
  | notDirectory (path : String)
  /-- A directory is in the place of the file. -/
  | directory (path : String)
  deriving Repr, DecidableEq

/-- The wording of an error. -/
def WriteError.message : WriteError → String
  | missing path => "[Errno 2] No such file or directory: " ++ Text.quoted path
  | notDirectory path => "[Errno 20] Not a directory: " ++ Text.quoted path
  | directory path => "[Errno 21] Is a directory: " ++ Text.quoted path

namespace Files

/-- What stands in the way from a place along some names: a lacking directory, or a
file. -/
def obstacle (root : Entry) (path : String) (place : List String) : List String → WriteError
  | [] => .missing path
  | part :: rest =>
    match root.at? place with
    | some (.directory _) =>
      obstacle root path (if part = ".." then place.dropLast else place ++ [part]) rest
    | some (.file _) => .notDirectory path
    | none => .missing path

/-- Whether a path ends with a slash. -/
def endsWithSlash (path : String) : Bool := path.toList.getLast? == some '/'

/-- The place that a path gives to a new file. -/
def destination (files : Files) (path : String) : Except WriteError (List String) :=
  let p := Path.ofString path
  match p.parts.getLast? with
  | none => .error (.directory path)
  | some name =>
    match files.resolve? { p with parts := p.parts.dropLast } with
    | none => .error (obstacle files.root path (if p.anchor = 0 then files.here else []) p.parts)
    | some place =>
      match files.root.at? place with
      | some (.directory _) =>
        if name = ".." then .error (.directory path)
        else match files.root.at? (place ++ [name]) with
          | some (.directory _) => .error (.directory path)
          | some (.file _) =>
            if endsWithSlash path then .error (.notDirectory path) else .ok (place ++ [name])
          | none =>
            if endsWithSlash path then .error (.directory path) else .ok (place ++ [name])
      | some (.file _) => .error (.notDirectory path)
      | none => .error (.missing path)

/-- The tree with a text written to a path, and the place of the file. -/
def save (files : Files) (path text : String) : Except WriteError (List String × Files) := do
  let place ← files.destination path
  pure (place, files.write place text.toUTF8.data.toList)

end Files

end TapLint
