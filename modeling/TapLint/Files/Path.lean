/-
Paths of files.

A path is absolute or relative and has a list of parts.  Reading it drops empty
parts and single dots, and keeps double dots, which only the file tree can
resolve.

* `Path.ofString`, `Path.shown` — reading and printing;
* `Path.stem` — the last part without its extension.
-/

namespace TapLint

/-- A path: how many slashes it begins with, and its parts. -/
structure Path where
  /-- Nothing for a relative path, one or two slashes for an absolute one. -/
  anchor : Nat
  parts : List String
  deriving Repr, DecidableEq, Inhabited

namespace Path

/-- A text cut at every occurrence of a character. -/
def splitChars (sep : Char) : List Char → List (List Char)
  | [] => [[]]
  | c :: cs =>
    if c = sep then [] :: splitChars sep cs
    else match splitChars sep cs with
      | [] => [[c]]
      | s :: ss => (c :: s) :: ss

/-- How many slashes count at the start of a path: two mean something else than
one, and three or more mean one. -/
def anchorOf : List Char → Nat
  | '/' :: '/' :: '/' :: _ => 1
  | '/' :: '/' :: _ => 2
  | '/' :: _ => 1
  | _ => 0

/-- Reads a path. -/
def ofString (s : String) : Path :=
  { anchor := anchorOf s.toList
    parts := ((splitChars '/' s.toList).filter fun p => p ≠ [] ∧ p ≠ ['.']).map String.ofList }

/-- Prints a path; the path without parts is a dot. -/
def shown (p : Path) : String :=
  let body := String.intercalate "/" p.parts
  if p.anchor = 0 then (if p.parts.isEmpty then "." else body)
  else String.ofList (List.replicate p.anchor '/') ++ body

/-- The path with further parts. -/
def append (p : Path) (more : List String) : Path :=
  { p with parts := p.parts ++ more }

/-- The last part of a path. -/
def name (p : Path) : String := p.parts.getLast?.getD ""

/-- A file name without its extension: what stands before the last dot, if
something stands on both sides of it. -/
def stemOf (name : String) : String :=
  let cs := name.toList.reverse
  let extension := cs.takeWhile (· ≠ '.')
  match cs.dropWhile (· ≠ '.') with
  | '.' :: rest => if extension = [] ∨ rest = [] then name else String.ofList rest.reverse
  | _ => name

/-- The last part of a path, without its extension. -/
def stem (p : Path) : String := stemOf p.name

end Path

end TapLint
