/-
UTF-8, read as an automaton over bytes.

`Utf8.pieces` cuts any byte string into characters and ill-formed parts, each
ill-formed part as long as the encoding of some character agrees with it and at
least one byte.  The two ways to read a text follow from it:

* `Utf8.lossy` — every ill-formed part becomes U+FFFD;
* `Utf8.strict` — the first ill-formed part is an error that names its bytes.

`Utf8.streamed` reads strictly as well, but one block after the other, so that the
text before a faulty block is known and positions count from the block.
-/

namespace TapLint.Utf8

/-- Why bytes are not the encoding of a character. -/
inductive Fault where
  /-- A byte that starts no character. -/
  | invalidStart
  /-- A character that is broken off by a byte that cannot continue it. -/
  | invalidContinuation
  /-- A character that is broken off by the end of the bytes. -/
  | unexpectedEnd
  deriving Repr, DecidableEq

/-- A maximal stretch of bytes that is read as one unit. -/
inductive Piece where
  | char (c : Char)
  | bad (fault : Fault) (bytes : List UInt8)
  deriving Repr, DecidableEq

/-- A character whose encoding has begun: the bits so far, how many bytes are
still to come, the bounds of the next one, and the bytes read, the last first. -/
structure Open where
  bits : Nat
  more : Nat
  low : Nat
  high : Nat
  read : List UInt8

/-- What a first byte opens: nothing after an ASCII byte (no bytes to come), and
`none` if no character starts with it.  The bounds of the second byte leave out
overlong forms, surrogates and what lies beyond U+10FFFF. -/
def lead (b : UInt8) : Option Open :=
  let n := b.toNat
  if n < 0x80 then some ⟨n, 0, 0x80, 0xBF, [b]⟩
  else if n < 0xC2 then none
  else if n < 0xE0 then some ⟨n - 0xC0, 1, 0x80, 0xBF, [b]⟩
  else if n < 0xF0 then
    some ⟨n - 0xE0, 2, if n = 0xE0 then 0xA0 else 0x80, if n = 0xED then 0x9F else 0xBF, [b]⟩
  else if n < 0xF5 then
    some ⟨n - 0xF0, 3, if n = 0xF0 then 0x90 else 0x80, if n = 0xF4 then 0x8F else 0xBF, [b]⟩
  else none

/-- The automaton's state: between characters, or inside one. -/
abbrev State := Option Open

/-- Reads a byte between two characters. -/
def start (b : UInt8) : State × List Piece :=
  match lead b with
  | none => (none, [.bad .invalidStart [b]])
  | some o => if o.more = 0 then (none, [.char (Char.ofNat o.bits)]) else (some o, [])

/-- Reads one byte.  A byte that cannot continue the open character ends it as
ill-formed and is read again as a first byte. -/
def step : State → UInt8 → State × List Piece
  | none, b => start b
  | some o, b =>
    if o.low ≤ b.toNat ∧ b.toNat ≤ o.high then
      let bits := o.bits * 64 + (b.toNat - 0x80)
      if o.more = 1 then (none, [.char (Char.ofNat bits)])
      else (some ⟨bits, o.more - 1, 0x80, 0xBF, b :: o.read⟩, [])
    else
      let (s, ps) := start b
      (s, .bad .invalidContinuation o.read.reverse :: ps)

/-- Reads one more byte, the pieces so far being listed the last first. -/
def feed (sofar : State × List Piece) (b : UInt8) : State × List Piece :=
  let (s, ps) := step sofar.1 b
  (s, ps.reverse ++ sofar.2)

/-- The piece that the end of the bytes leaves behind. -/
def close : State → List Piece
  | none => []
  | some o => [.bad .unexpectedEnd o.read.reverse]

/-- A byte string, cut into characters and ill-formed parts. -/
def pieces (bytes : List UInt8) : List Piece :=
  let (s, ps) := bytes.foldl feed (none, [])
  (close s ++ ps).reverse

/-- The character that stands for a piece: its own, or the replacement character. -/
def Piece.shown : Piece → Char
  | .char c => c
  | .bad _ _ => '\uFFFD'

/-- How many bytes a piece takes. -/
def Piece.length : Piece → Nat
  | .char c => c.utf8Size
  | .bad _ bytes => bytes.length

/-- Reads bytes as text, with U+FFFD for each ill-formed part. -/
def lossy (bytes : List UInt8) : String :=
  String.ofList ((pieces bytes).map Piece.shown)

/-- The first ill-formed part of a byte string. -/
structure Error where
  fault : Fault
  position : Nat
  bytes : List UInt8
  deriving Repr, DecidableEq

/-- The characters of the pieces, or the first ill-formed part.  `position` is
where the pieces begin, `sofar` what came before, the last character first. -/
def collect (position : Nat) (sofar : List Char) : List Piece → Except Error (List Char)
  | [] => .ok sofar.reverse
  | .bad fault bytes :: _ => .error ⟨fault, position, bytes⟩
  | .char c :: ps => collect (position + c.utf8Size) (c :: sofar) ps

/-- Reads bytes as text, refusing ill-formed bytes. -/
def strict (bytes : List UInt8) : Except Error String :=
  (collect 0 [] (pieces bytes)).map String.ofList

/-! ### Reading block by block -/

/-- Cuts bytes into blocks of some size, at most `bound` of them. -/
def blocks (size : Nat) : Nat → List UInt8 → List (List UInt8)
  | _, [] => []
  | 0, _ :: _ => []
  | bound + 1, b :: bs => (b :: bs).take size :: blocks size bound ((b :: bs).drop size)

/-- Whether a piece is a character. -/
def Piece.isChar : Piece → Bool
  | .char _ => true
  | .bad _ _ => false

/-- Reads blocks strictly: the characters before the first ill-formed part, and
that part, if there is one.  Bytes that the end of a block breaks off are read
again with the next block. -/
def readBlocks (pending : List UInt8) : List (List UInt8) → List Char × Option Error
  | [] => ([], if pending.isEmpty then none else some ⟨.unexpectedEnd, 0, pending⟩)
  | block :: rest =>
    let ps := pieces (pending ++ block)
    match collect 0 [] ps with
    | .ok cs =>
      let (more, fault) := readBlocks [] rest
      (cs ++ more, fault)
    | .error e =>
      if e.fault = .unexpectedEnd then
        let (more, fault) := readBlocks e.bytes rest
        ((ps.takeWhile Piece.isChar).map Piece.shown ++ more, fault)
      else ([], some e)

/-- Reads bytes strictly in blocks of some size: the text of the blocks before the
first ill-formed part, and that part, if there is one, with its position counted
from the start of its block. -/
def streamed (size : Nat) (bytes : List UInt8) : String × Option Error :=
  let (cs, fault) := readBlocks [] (blocks size (bytes.length + 1) bytes)
  (String.ofList cs, fault)

/-! ### Wording -/

/-- The wording of a fault. -/
def Fault.message : Fault → String
  | .invalidStart => "invalid start byte"
  | .invalidContinuation => "invalid continuation byte"
  | .unexpectedEnd => "unexpected end of data"

/-- A byte as two lower-case hexadecimal digits. -/
def hexByte (b : UInt8) : String :=
  String.ofList [Nat.digitChar (b.toNat / 16), Nat.digitChar (b.toNat % 16)]

/-- One byte is shown, several are only counted. -/
def Error.message (e : Error) : String :=
  let what := match e.bytes with
    | [b] => "byte 0x" ++ hexByte b ++ " in position " ++ toString e.position
    | bs => "bytes in position " ++ toString e.position ++ "-" ++
        toString (e.position + bs.length - 1)
  "'utf-8' codec can't decode " ++ what ++ ": " ++ e.fault.message

end TapLint.Utf8
