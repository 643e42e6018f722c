/-
Finding formula files.

A path to a file stands for that file, whatever it is called; a path to a
directory stands for the formula files in it, or anywhere below it.

* `Files.formulaFiles` — the formula files of a directory, in order;
* `Files.discover` — the files that some paths stand for.
-/
import TapLint.Files.Text

namespace TapLint

/-- How the name of a formula file ends. -/
def formulaExtension : List Char := ['.', 'r', 'b']

/-- Whether a file is named like a formula file. -/
def isFormulaFileName (name : String) : Bool := formulaExtension.isSuffixOf name.toList

namespace Files

/-- Whether a chain of names leads to a formula file: directly, unless the search
is recursive. -/
def isWanted (recursive : Bool) (names : List String) : Bool :=
  (recursive || names.length == 1) && names.getLast?.any isFormulaFileName

/-- Whether a chain of names comes after another: at the first place where they
differ its name is the greater one, or it goes on where the other ends. -/
def isAfter (names others : List String) : Bool :=
  List.lex others names fun a b => decide (a < b)

/-- The formula files of a directory, each as the names that lead to it, ordered
name by name. -/
def formulaFiles (recursive : Bool) (directory : Entry) : List (List String) :=
  (directory.filesBelow.filter (isWanted recursive)).mergeSort fun a b => !isAfter a b

/-- The files that a path stands for. -/
def expand (files : Files) (recursive : Bool) (p : Path) : Except ReadError (List Path) :=
  match files.entry? p with
  | some (.directory entries) =>
    .ok ((formulaFiles recursive (.directory entries)).map p.append)
  | some (.file _) => .ok [p]
  | none => .error (.noSuchPath p.shown)

/-- The files that some paths stand for, or the first path that leads nowhere. -/
def discover (files : Files) (recursive : Bool) (paths : List String) :
    Except ReadError (List Path) :=
  (paths.mapM fun s => files.expand recursive (Path.ofString s)).map List.flatten

end Files

end TapLint
