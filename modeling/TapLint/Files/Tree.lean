/-
A tree of files, and where in it a program runs.

* `Entry.at?` — what stands at a place below a directory;
* `Files.resolve?` — the place that a path leads to, from the working directory;
* `Entry.filesBelow` — all files below a directory.
-/
import TapLint.Files.Path

namespace TapLint

/-- A file with its bytes, or a directory with its entries. -/
inductive Entry where
  | file (bytes : List UInt8)
  | directory (entries : List (String × Entry))

namespace Entry

/-- Whether an entry is a directory. -/
def isDirectory : Entry → Bool
  | file _ => false
  | directory _ => true

/-- Whether an entry is a file. -/
def isFile : Entry → Bool
  | file _ => true
  | directory _ => false

/-- The bytes of a file. -/
def bytes? : Entry → Option (List UInt8)
  | file bytes => some bytes
  | directory _ => none

/-- What a directory has under a name. -/
def child? (name : String) : Entry → Option Entry
  | file _ => none
  | directory entries => (entries.find? (·.1 == name)).map (·.2)

/-- What stands at the end of a chain of names. -/
def at? (e : Entry) : List String → Option Entry
  | [] => some e
  | name :: rest => (e.child? name).bind (·.at? rest)

mutual

/-- The files below an entry, each with the names that lead to it; a file is
below itself, with no name. -/
def filesBelow : Entry → List (List String)
  | file _ => [[]]
  | directory entries => filesBelowList entries

/-- The files below the entries of a directory. -/
def filesBelowList : List (String × Entry) → List (List String)
  | [] => []
  | (name, e) :: rest => (filesBelow e).map (name :: ·) ++ filesBelowList rest

end

/-- Puts a file or directory at a place; directories that lack on the way are
made, and what stood there is replaced.  A file on the way lets nothing be put
below it. -/
def put (new : Entry) (e : Entry) : List String → Entry
  | [] => new
  | name :: rest =>
    match e with
    | file bytes => file bytes
    | directory entries =>
      let old := ((entries.find? (·.1 == name)).map (·.2)).getD (directory [])
      let placed := put new old rest
      if entries.any (·.1 == name) then
        directory (entries.map fun p => if p.1 == name then (name, placed) else p)
      else directory (entries ++ [(name, placed)])

mutual

/-- What is known of a place from two looks at it: a directory has what either of
them found, and otherwise the second look counts. -/
def overlay (old : Entry) : Entry → Entry
  | file bytes => file bytes
  | directory more =>
    match old with
    | file _ => directory more
    | directory entries => directory (overlayEntries entries more)

/-- The entries of a directory from two looks at it. -/
def overlayEntries (entries : List (String × Entry)) :
    List (String × Entry) → List (String × Entry)
  | [] => entries
  | (name, e) :: more =>
    let merged := match entries.find? (·.1 == name) with
      | some (_, old) => overlay old e
      | none => e
    let rest := entries.filter fun p => p.1 != name
    overlayEntries (rest ++ [(name, merged)]) more

end

end Entry

/-- All files, and the directory that relative paths start from. -/
structure Files where
  root : Entry
  /-- The names that lead from the root to the working directory. -/
  here : List String

namespace Files

/-- Follows the parts of a path from a place.  A part leads on only from a
directory; two dots lead back, and stay at the root. -/
def follow? (root : Entry) (place : List String) : List String → Option (List String)
  | [] => if (root.at? place).isSome then some place else none
  | part :: rest =>
    if (root.at? place).any Entry.isDirectory then
      follow? root (if part = ".." then place.dropLast else place ++ [part]) rest
    else none

/-- The place that a path leads to, if something stands there. -/
def resolve? (files : Files) (p : Path) : Option (List String) :=
  follow? files.root (if p.anchor = 0 then files.here else []) p.parts

/-- What a path leads to. -/
def entry? (files : Files) (p : Path) : Option Entry :=
  (files.resolve? p).bind files.root.at?

/-- The bytes of the file that a path leads to. -/
def bytes? (files : Files) (p : Path) : Option (List UInt8) :=
  (files.entry? p).bind Entry.bytes?

/-- Whether something stands at a path. -/
def has (files : Files) (p : Path) : Bool := (files.entry? p).isSome

/-- The tree with a file written. -/
def write (files : Files) (place : List String) (bytes : List UInt8) : Files :=
  { files with root := (Entry.file bytes).put files.root place }

end Files

end TapLint
