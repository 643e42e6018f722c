/-
The scanner under the Ruby reader.

A `Reader` goes through the bytes of a text and either gives a result and moves
on, or fails.  Offsets count bytes, and every byte beyond ASCII counts as a
letter, so identifiers may hold any script.

Comments and heredocs are not part of the construct that they stand in.  The
scanner sets them aside as *extras* where it meets them; heredocs are announced
on one line and their bodies begin on the next, so the scanner also remembers
which ones are still to come.
-/
import TapLint.Ruby.Tree

namespace TapLint.Ruby

/-- A heredoc that has been announced and whose body has not been read. -/
structure Heredoc where
  /-- The line that ends the body. -/
  terminator : String
  /-- Whether blanks may stand in front of that line. -/
  indented : Bool
  /-- Whether the body is taken as it is, without interpolation. -/
  raw : Bool

/-- Something that stands apart from the constructs around it. -/
inductive Extra where
  | comment (start stop : Nat)
  /-- The body of a heredoc, from the end of the line that announces it; its text
  ends where the terminator begins. -/
  | heredocBody (start textStop stop : Nat) (raw : Bool)

/-- How far a reader has come. -/
structure Scan where
  /-- The offset of the next byte. -/
  pos : Nat := 0
  /-- The heredocs announced on this line. -/
  heredocs : List Heredoc := []
  /-- What has been set aside, the last first. -/
  extras : List Extra := []

/-- What a reader goes by. -/
structure Context where
  bytes : ByteArray
  /-- Whether a `do` here belongs to a construct further out. -/
  noDo : Bool := false
  /-- Whether a block in braces that follows an element belongs to a call further out. -/
  noBrace : Bool := false
  /-- Whether a bar here ends a list of parameters. -/
  noBar : Bool := false
  /-- Whether a comma here may go on with an assignment. -/
  listOk : Bool := true

/-- Reads from the bytes of the context, or fails. -/
abbrev Reader := ReaderT Context (StateT Scan Option)

namespace Reader

/-! ### Bytes -/

/-- The character at an offset; bytes beyond ASCII stand for themselves, and NUL
for the end of the text. -/
def charAt (bytes : ByteArray) (i : Nat) : Char :=
  if h : i < bytes.size then Char.ofNat bytes[i].toNat else '\x00'

/-- The offset of the next byte. -/
def here : Reader Nat := return (← get).pos

/-- Moves to an offset. -/
def goTo (pos : Nat) : Reader Unit := modify fun s => { s with pos := pos }

/-- Passes over some bytes. -/
def pass (n : Nat) : Reader Unit := modify fun s => { s with pos := s.pos + n }

/-- The character some places ahead. -/
def peekAt (k : Nat) : Reader Char := return charAt (← read).bytes ((← get).pos + k)

/-- The next character. -/
def peek : Reader Char := peekAt 0

/-- Whether the text is at its end. -/
def atEnd : Reader Bool := return (← read).bytes.size ≤ (← get).pos

/-- Whether the bytes from an offset on begin with some characters. -/
def startsWithAt (bytes : ByteArray) (i : Nat) : List Char → Bool
  | [] => true
  | c :: cs => i < bytes.size && charAt bytes i == c && startsWithAt bytes (i + 1) cs

/-- Whether some characters come next. -/
def looking (s : String) : Reader Bool :=
  return startsWithAt (← read).bytes (← get).pos s.toList

/-- Passes over some characters if they come next. -/
def accept (s : String) : Reader Bool := do
  if ← looking s then
    pass s.length
    return true
  else return false

/-- Passes over some characters that have to come next. -/
def expect (s : String) : Reader Unit := do
  unless ← accept s do failure

/-- Repeats a step until it gives a result.  A step that goes on has to move
forward; a bound on the number of steps follows from the length of the text. -/
def iterate {σ α : Type} (bound : Nat) (step : σ → Reader (σ ⊕ α)) (s : σ) : Reader α :=
  match bound with
  | 0 => failure
  | bound + 1 => do
    match ← step s with
    | .inl s => iterate bound step s
    | .inr a => return a

/-- Repeats a step as often as the text allows. -/
def loop {σ α : Type} (s : σ) (step : σ → Reader (σ ⊕ α)) : Reader α := do
  iterate ((← read).bytes.size + 2) step s

/-- The first offset, from `i` on, whose character fails a test. -/
def scanWhile (bytes : ByteArray) (test : Char → Bool) (i : Nat) : Nat → Nat
  | 0 => i
  | bound + 1 =>
    if i < bytes.size && test (charAt bytes i) then scanWhile bytes test (i + 1) bound else i

/-- Passes over all characters that pass a test. -/
def passWhile (test : Char → Bool) : Reader Unit := do
  let bytes := (← read).bytes
  let pos ← here
  goTo (scanWhile bytes test pos (bytes.size - pos))

/-! ### Names and words -/

/-- Characters that a name may begin with. -/
def isNameStart (c : Char) : Bool := c.isAlpha || c == '_' || 0x80 ≤ c.toNat

/-- Characters that a name may go on with. -/
def isNameChar (c : Char) : Bool := isNameStart c || c.isDigit

/-- The offset after the name at an offset. -/
def nameEnd (bytes : ByteArray) (i : Nat) : Nat :=
  scanWhile bytes isNameChar i (bytes.size - i)

/-- The characters between two offsets, byte by byte. -/
def charsBetween (bytes : ByteArray) (start stop : Nat) : List Char :=
  (List.range' start (stop - start)).map (charAt bytes)

/-- The word that comes next; empty if there is none. -/
def word : Reader String := do
  let bytes := (← read).bytes
  let pos ← here
  if isNameStart (charAt bytes pos) then
    return String.ofList (charsBetween bytes pos (nameEnd bytes pos))
  else return ""

/-- Whether a colon at an offset makes what precedes it a key: it is not doubled. -/
def isKeyColon (bytes : ByteArray) (i : Nat) : Bool :=
  charAt bytes i == ':' && charAt bytes (i + 1) != ':'

/-- Whether a keyword comes next: the whole word, and not as a key. -/
def atKeyword (w : String) : Reader Bool := do
  if (← word) == w then
    let bytes := (← read).bytes
    return !isKeyColon bytes ((← here) + w.length)
  else return false

/-- Passes over a keyword if it comes next. -/
def acceptKeyword (w : String) : Reader Bool := do
  if ← atKeyword w then
    pass w.length
    return true
  else return false

/-- Passes over a keyword that has to come next. -/
def expectKeyword (w : String) : Reader Unit := do
  unless ← acceptKeyword w do failure

/-! ### Blanks, comments and heredocs -/

/-- White space inside a line. -/
def isInlineSpace (c : Char) : Bool :=
  c == ' ' || c == '\t' || c == '\r' || c == '\x0c' || c == '\x0b'

/-- The length of a line break that a backslash cancels, at an offset. -/
def joinedLine (bytes : ByteArray) (i : Nat) : Nat :=
  if charAt bytes i == '\\' then
    if charAt bytes (i + 1) == '\n' then 2
    else if charAt bytes (i + 1) == '\r' && charAt bytes (i + 2) == '\n' then 3 else 0
  else 0

/-- Passes over white space inside a line, which a backslash may prolong. -/
def blanks : Reader Unit :=
  loop () fun _ => do
    passWhile isInlineSpace
    let n := joinedLine (← read).bytes (← here)
    if n = 0 then return .inr () else
      pass n
      return .inl ()

/-- The offset of the end of the line that an offset is in. -/
def lineEnd (bytes : ByteArray) (i : Nat) : Nat :=
  scanWhile bytes (· != '\n') i (bytes.size - i)

/-- Sets a comment aside, up to the end of its line. -/
def comment : Reader Unit := do
  let start ← here
  let stop := lineEnd (← read).bytes start
  modify fun s => { s with pos := stop, extras := .comment start stop :: s.extras }

/-- Whether a word stands at an offset, alone on its line or before a blank. -/
def markerAt (bytes : ByteArray) (i : Nat) (marker : String) : Bool :=
  startsWithAt bytes i marker.toList &&
    (let c := charAt bytes (i + marker.length)
     bytes.size ≤ i + marker.length || c == '\n' || isInlineSpace c)

/-- Sets a block of comment lines aside: all lines down to the closing one. -/
def commentBlock : Reader Unit := do
  let bytes := (← read).bytes
  let start ← here
  let stop ← loop start fun i => do
    let stop := lineEnd bytes i
    if bytes.size ≤ stop then failure
    else if markerAt bytes (stop + 1) "=end" then return .inr (lineEnd bytes (stop + 1))
    else return .inl (stop + 1)
  modify fun s => { s with pos := stop, extras := .comment start stop :: s.extras }

/-- Where the terminator of a heredoc begins, if the line at an offset is it. -/
def terminatorAt (bytes : ByteArray) (h : Heredoc) (i : Nat) : Option Nat :=
  let first :=
    if h.indented then scanWhile bytes (fun c => c == ' ' || c == '\t') i (bytes.size - i) else i
  let stop := first + h.terminator.length
  let isLast := bytes.size ≤ stop || charAt bytes stop == '\n'
    || (charAt bytes stop == '\r' && (charAt bytes (stop + 1) == '\n' || bytes.size ≤ stop + 1))
  if startsWithAt bytes first h.terminator.toList && isLast then some first else none

/-- Sets the body of a heredoc aside.  It begins at the end of a line. -/
def heredocBody (h : Heredoc) : Reader Unit := do
  let bytes := (← read).bytes
  let start ← here
  let textStop ← loop start fun i => do
    let stop := lineEnd bytes i
    if bytes.size ≤ stop then failure
    else match terminatorAt bytes h (stop + 1) with
      | some first => return .inr first
      | none => return .inl (stop + 1)
  let stop := textStop + h.terminator.length
  modify fun s =>
    { s with pos := stop, extras := .heredocBody start textStop stop h.raw :: s.extras }

/-- Reads the end of a line: the bodies of the heredocs announced on it, if there
are any; otherwise the line feed, and the comment block that may follow it. -/
def newline : Reader Unit := do
  match (← get).heredocs with
  | [] =>
    pass 1
    if markerAt (← read).bytes (← here) "=begin" then commentBlock
  | hs =>
    modify fun s => { s with heredocs := [] }
    hs.forM heredocBody

/-- Passes over everything that may stand between two tokens: white space, line
ends and comments. -/
def layout : Reader Unit :=
  loop () fun _ => do
    blanks
    let c ← peek
    if c == '#' then
      comment
      return .inl ()
    else if c == '\n' then
      newline
      return .inl ()
    else return .inr ()

/-! ### Building nodes -/

/-- A named node. -/
def named (type : String) (start stop : Nat) (children : List Tree) : Tree :=
  .node ⟨type, true, false, false, start, stop, none⟩ children

/-- A token. -/
def token (type : String) (start stop : Nat) : Tree :=
  .node ⟨type, false, false, false, start, stop, none⟩ []

/-- A node in the place of a field of its parent. -/
def inField (field : String) (t : Tree) : Tree :=
  .node { t.value with field := some field } t.children

/-- A named node from an offset to where the reader is. -/
def upToHere (type : String) (start : Nat) (children : List Tree) : Reader Tree :=
  return named type start (← here) children

end Reader

end TapLint.Ruby
