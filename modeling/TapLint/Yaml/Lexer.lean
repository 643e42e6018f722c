/-
From text to tokens.

A word is a key if a colon follows it on the same line, which shows only when the
colon is met; the tokens that tell so are then put in before the word.  Outside
flow collections, the column of a key or of an entry tells which block it belongs
to: a deeper one opens a block, and a word further to the left closes all blocks
that are deeper than itself.

* `Token.ofText` — the tokens of a text.
-/
import TapLint.Yaml.Tag

namespace TapLint.Yaml

/-- A word that may turn out to be a key. -/
structure Candidate where
  /-- Where its tokens begin. -/
  place : Nat
  /-- Whether it has to be a key: the first word of a line in a block. -/
  required : Bool
  index : Nat
  line : Nat
  column : Nat

/-- What is known in the middle of a text. -/
structure Lexer where
  cursor : Cursor
  tokens : Array Token := #[]
  /-- The column of the innermost block, and of those around it. -/
  indent : Int := -1
  outer : List Int := []
  /-- How many flow collections are open. -/
  flow : Nat := 0
  /-- Whether a key may begin here. -/
  keyAllowed : Bool := true
  /-- The candidate of each open collection that has one. -/
  candidates : List (Nat × Candidate) := []

namespace Lexer

/-- Adds a token. -/
def push (s : Lexer) (t : Token) : Lexer := { s with tokens := s.tokens.push t }

/-- The character here. -/
def here (s : Lexer) : Option Char := s.cursor.peek 0

/-! ### Blanks -/

/-- Goes past spaces, comments and ends of lines. -/
def skipBlanks (s : Lexer) : Nat → Lexer
  | 0 => s
  | bound + 1 =>
    let c := spaces s.cursor
    let c := if c.peek 0 == some '#' then c.skipWhile fun x => !isBreak x else c
    match c.lineBreak with
    | none => { s with cursor := c }
    | some (_, after) =>
      skipBlanks { s with cursor := after, keyAllowed := s.keyAllowed || s.flow == 0 } bound

/-! ### Keys -/

/-- The longest word that can be a key. -/
def maxKeyLength : Nat := 1024

/-- Gives up the candidates that are on another line or too far back. -/
def dropStale (s : Lexer) : Except Fault Lexer :=
  let isStale (k : Candidate) : Bool :=
    k.line != s.cursor.line || maxKeyLength + k.index < s.cursor.index
  if s.candidates.any fun p => isStale p.2 && p.2.required then .error .malformed
  else .ok { s with candidates := s.candidates.filter fun p => !isStale p.2 }

/-- The candidate of the innermost collection. -/
def candidate? (s : Lexer) : Option Candidate :=
  (s.candidates.find? (·.1 == s.flow)).map (·.2)

/-- Forgets the candidate of the innermost collection. -/
def forget (s : Lexer) : Lexer :=
  { s with candidates := s.candidates.filter (·.1 != s.flow) }

/-- Gives up the candidate of the innermost collection. -/
def dropCandidate (s : Lexer) : Except Fault Lexer :=
  if s.candidate?.any (·.required) then .error .malformed else .ok s.forget

/-- Notes that a key may begin here. -/
def noteCandidate (s : Lexer) : Except Fault Lexer :=
  if s.keyAllowed then do
    let s ← s.dropCandidate
    let k : Candidate :=
      { place := s.tokens.size
        required := s.flow == 0 && s.indent == (s.cursor.column : Int)
        index := s.cursor.index, line := s.cursor.line, column := s.cursor.column }
    pure { s with candidates := (s.flow, k) :: s.candidates }
  else pure s

/-! ### Blocks -/

/-- Closes blocks one by one, as long as they are deeper than a column. -/
def closeBlocks (s : Lexer) (column : Int) : Nat → Lexer
  | 0 => s
  | bound + 1 =>
    if column < s.indent then
      closeBlocks { s.push .blockEnd with indent := s.outer.headD (-1), outer := s.outer.tail }
        column bound
    else s

/-- Closes the blocks that are deeper than a column. -/
def unwind (s : Lexer) (column : Int) : Lexer :=
  if s.flow != 0 then s else s.closeBlocks column (s.outer.length + 1)

/-- Opens a block at a column if it is deeper than the innermost one; the token for
it goes to `place`. -/
def openBlock (s : Lexer) (column place : Nat) (t : Token) : Lexer :=
  if s.indent < column then
    { s with
      indent := column
      outer := s.indent :: s.outer
      tokens := s.tokens.insertIdxIfInBounds place t }
  else s

/-! ### Tokens -/

/-- Adds a token that ends at a place. -/
def emit (s : Lexer) (t : Token) (c : Cursor) : Lexer := { s.push t with cursor := c }

/-- A mark that begins or ends a document, or a directive: all blocks end. -/
def topLevel (s : Lexer) : Except Fault Lexer := do
  let s ← (s.unwind (-1)).dropCandidate
  pure { s with keyAllowed := false }

/-- The start of a flow collection. -/
def openFlow (s : Lexer) (t : Token) : Except Fault Lexer := do
  let s ← s.noteCandidate
  pure { s.emit t s.cursor.next with flow := s.flow + 1, keyAllowed := true }

/-- The end of a flow collection. -/
def closeFlow (s : Lexer) (t : Token) : Except Fault Lexer := do
  let s ← s.dropCandidate
  if s.flow == 0 then pure { s.emit t s.cursor.next with keyAllowed := false }
  else pure { s.emit t s.cursor.next with flow := s.flow - 1, keyAllowed := false }

/-- A comma in a flow collection. -/
def flowEntry (s : Lexer) : Except Fault Lexer := do
  let s ← s.dropCandidate
  pure { s.emit .flowEntry s.cursor.next with keyAllowed := true }

/-- A mark that may open a block here. -/
def blockMark (s : Lexer) (opening : Token) : Except Fault Lexer :=
  if s.flow != 0 then .ok s
  else if !s.keyAllowed then .error .malformed
  else .ok (s.openBlock s.cursor.column s.tokens.size opening)

/-- The dash before an entry. -/
def blockEntry (s : Lexer) : Except Fault Lexer := do
  let s ← s.blockMark .blockSequenceStart
  let s ← s.dropCandidate
  pure { s.emit .blockEntry s.cursor.next with keyAllowed := true }

/-- The question mark before a key. -/
def key (s : Lexer) : Except Fault Lexer := do
  let s ← s.blockMark .blockMappingStart
  let s ← s.dropCandidate
  pure { s.emit .key s.cursor.next with keyAllowed := s.flow == 0 }

/-- The colon before a value. -/
def value (s : Lexer) : Except Fault Lexer :=
  match s.candidate? with
  | some k =>
    let s := s.forget
    let s := { s with tokens := s.tokens.insertIdxIfInBounds k.place .key }
    let s := if s.flow == 0 then s.openBlock k.column k.place .blockMappingStart else s
    .ok { s.emit .value s.cursor.next with keyAllowed := false }
  | none => do
    let s ← s.blockMark .blockMappingStart
    let s ← s.dropCandidate
    pure { s.emit .value s.cursor.next with keyAllowed := s.flow == 0 }

/-- A word: something that may be a key. -/
def word (s : Lexer) (scan : Cursor → Except Fault (Token × Cursor)) : Except Fault Lexer := do
  let s ← s.noteCandidate
  let (t, after) ← scan s.cursor
  pure { s.emit t after with keyAllowed := false }

/-- A plain scalar. -/
def plain (s : Lexer) : Except Fault Lexer := do
  let s ← s.noteCandidate
  let found := plainScalar (s.flow != 0) (s.indent + 1) s.cursor
  pure { s.emit (.scalar true (String.ofList found.text)) found.after with
    keyAllowed := found.broken }

/-- A scalar that is a block of lines. -/
def block (s : Lexer) (folded : Bool) : Except Fault Lexer := do
  let s ← s.dropCandidate
  let (text, after) ← blockScalar folded s.indent s.cursor
  pure { s.emit (.scalar false (String.ofList text)) after with keyAllowed := true }

/-- A scalar between quotes. -/
def quoted (s : Lexer) (double : Bool) : Except Fault Lexer :=
  s.word fun c => do
    let (text, after) ← quotedScalar double c
    pure (.scalar false (String.ofList text), after)

/-- The mark of a document, three characters long. -/
def documentMark (s : Lexer) (t : Token) : Except Fault Lexer := do
  let s ← s.topLevel
  pure (s.emit t (s.cursor.skip 3))

/-- A line with a directive. -/
def directive (s : Lexer) : Except Fault Lexer := do
  let s ← s.topLevel
  let (d, after) ← directiveAt s.cursor
  pure (s.emit (.directive d) after)

/-- Reads the tokens that begin with a character. -/
def dispatch (s : Lexer) (x : Char) : Except Fault Lexer :=
  let c := s.cursor
  let lone : Bool := s.flow != 0 || isGap (c.peek 1)
  if c.column == 0 && x == '%' then s.directive
  else if c.column == 0 && c.isTriple '-' then s.documentMark .documentStart
  else if c.column == 0 && c.isTriple '.' then s.documentMark .documentEnd
  else if x == '[' then s.openFlow .flowSequenceStart
  else if x == '\x7b' then s.openFlow .flowMappingStart
  else if x == ']' then s.closeFlow .flowSequenceEnd
  else if x == '\x7d' then s.closeFlow .flowMappingEnd
  else if x == ',' then s.flowEntry
  else if x == '-' && isGap (c.peek 1) then s.blockEntry
  else if x == '?' && lone then s.key
  else if x == ':' && lone then s.value
  else if x == '*' then s.word fun c => do
    let (name, after) ← nameAt c
    pure (.reference name, after)
  else if x == '&' then s.word fun c => do
    let (name, after) ← nameAt c
    pure (.anchor name, after)
  else if x == '!' then s.word tagAt
  else if x == '|' && s.flow == 0 then s.block false
  else if x == '>' && s.flow == 0 then s.block true
  else if x == '\'' then s.quoted false
  else if x == '"' then s.quoted true
  else if c.startsPlain (s.flow != 0) then s.plain
  else .error .malformed

/-- The end of the text. -/
def finish (s : Lexer) : Except Fault (Array Token) := do
  let s ← (s.unwind (-1)).dropCandidate
  pure s.tokens

/-- Reads all tokens. -/
def run (s : Lexer) : Nat → Except Fault (Array Token)
  | 0 => s.finish
  | bound + 1 => do
    let s := s.skipBlanks (s.cursor.rest.length + 1)
    let s ← s.dropStale
    let s := s.unwind s.cursor.column
    match s.here with
    | none => s.finish
    | some x => run (← s.dispatch x) bound

end Lexer

/-- The tokens of a text.  A text that holds characters which are not allowed has
none. -/
def Token.ofText (text : String) : Except Fault (List Token) :=
  let cs := text.toList
  if cs.all isAllowed then
    let start : Cursor := { rest := cs }
    let start := if cs.head? == some byteOrderMark then start.next else start
    (Lexer.run { cursor := start } (cs.length + 1)).map Array.toList
  else .error .malformed

end TapLint.Yaml
