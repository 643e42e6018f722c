/-
Reading text files.

Files hold UTF-8.  A line may end with a line feed, a carriage return or both,
and the text that is read has line feeds only.  `ReadError` says why a formula
file could not be read.
-/
import TapLint.Files.Tree
import TapLint.Text.Utf8

namespace TapLint

/-- Why a file, or a path to look for files at, cannot be used. -/
inductive ReadError where
  /-- A formula file that is not there, or not a file. -/
  | missing (path : String)
  /-- A file over the size limit. -/
  | tooLarge (size : Nat) (path : String)
  /-- A file that is not UTF-8. -/
  | undecodable (path : String) (why : Utf8.Error)
  /-- A path to search that leads nowhere. -/
  | noSuchPath (path : String)
  deriving Repr, DecidableEq

namespace ReadError

/-- The wording of a read error. -/
def message : ReadError → String
  | missing path => "Formula file does not exist: " ++ path
  | tooLarge size path =>
    "Formula file too large (" ++ toString size ++ " bytes): " ++ path
  | undecodable path why => "Failed to read " ++ path ++ ": " ++ why.message
  | noSuchPath path => "Path does not exist: " ++ path

end ReadError

namespace Text

/-- Makes every line end a line feed; `sofar` is what came before, the last
character first. -/
def unifyLineEndsFrom (sofar : List Char) : List Char → List Char
  | '\r' :: '\n' :: cs => unifyLineEndsFrom ('\n' :: sofar) cs
  | '\r' :: cs => unifyLineEndsFrom ('\n' :: sofar) cs
  | c :: cs => unifyLineEndsFrom (c :: sofar) cs
  | [] => sofar.reverse

/-- A text whose every line ends with a line feed. -/
def unifyLineEnds (s : String) : String :=
  String.ofList (unifyLineEndsFrom [] s.toList)

/-- The text that a file's bytes hold. -/
def ofFileBytes (bytes : List UInt8) : Except Utf8.Error String :=
  (Utf8.strict bytes).map unifyLineEnds

/-- The number of bytes that are read at a time from a file that is not read as a
whole. -/
def blockSize : Nat := 8192

/-- What is read from a file block by block: the text before the first block that
is not UTF-8, and what is wrong with that block. -/
def streamed (bytes : List UInt8) : String × Option Utf8.Error :=
  let (text, fault) := Utf8.streamed blockSize bytes
  (unifyLineEnds text, fault)

/-- The text up to the end of its last complete line. -/
def completeLines (s : String) : String :=
  String.ofList (s.toList.reverse.dropWhile (· ≠ '\n')).reverse

end Text

end TapLint
