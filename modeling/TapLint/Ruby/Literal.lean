/-
Ruby literals: strings in all their spellings, symbols, numbers, characters.

Literals with interpolation hold code, so their readers take a reader for code
as an argument; `Goal` lists what may be nested in what.
-/
import TapLint.Ruby.Scan

namespace TapLint.Ruby

/-- The constructs that others are made of. -/
inductive Goal where
  /-- Statements up to one of these words or brackets. -/
  | statements (closers : List String)
  /-- Anything that may stand as a statement of its own. -/
  | expression
  /-- An expression without `and`, `or`, all of whose operators bind at least this
  tightly; `commands` says whether a call may take arguments without brackets. -/
  | operand (level : Nat) (commands : Bool)
  /-- An argument of a call, or a member of an array or a hash. -/
  | argument
  /-- A list of parameters up to a closing bracket or bar. -/
  | parameters (closer : String)
  /-- What a value is matched with. -/
  | pattern
  /-- One of several things that are assigned to. -/
  | target

/-- A reader for every construct. -/
abbrev Grammar := Goal → Reader Tree

namespace Reader

/-- Reads code that stands in brackets, where nothing outside has a say. -/
def inside {α : Type} (r : Reader α) : Reader α :=
  withReader (fun ctx => { bytes := ctx.bytes }) r

/-! ### Delimited text -/

/-- The bracket that closes what a character opens; the character itself if it
is no bracket. -/
def closerOf (c : Char) : Char :=
  if c == '(' then ')'
  else if c == '[' then ']'
  else if c == '\x7b' then '\x7d'
  else if c == '<' then '>'
  else c

/-- How a delimited literal is read. -/
structure Delimiter where
  opener : Char
  closer : Char
  /-- Whether code may be interpolated. -/
  interpolates : Bool

namespace Delimiter

/-- The delimiter that a character opens. -/
def ofChar (c : Char) (interpolates : Bool) : Delimiter := ⟨c, closerOf c, interpolates⟩

/-- Whether the delimiter may be nested in itself. -/
def nests (d : Delimiter) : Bool := d.opener != d.closer

end Delimiter

/-- Whether code is interpolated at an offset. -/
def interpolationAt (bytes : ByteArray) (i : Nat) : Bool :=
  charAt bytes i == '#' && charAt bytes (i + 1) == '\x7b'

/-- Reads interpolated code with its brackets. -/
def interpolation (g : Grammar) : Reader Tree := do
  let start ← here
  pass 2
  let code ← inside (g (.statements ["\x7d"]))
  layout
  expect "\x7d"
  upToHere "interpolation" start code.children

/-- A stretch of plain text, if there is any. -/
def textNode (start stop : Nat) : List Tree :=
  if start < stop then [named "string_content" start stop []] else []

/-- Reads the inside of a literal up to its closer, which is not passed over: the
texts and interpolations, the last first. -/
def content (g : Grammar) (d : Delimiter) : Reader (List Tree) := do
  let start ← here
  loop ((0, start, []) : Nat × Nat × List Tree) fun (depth, start, sofar) => do
    let bytes := (← read).bytes
    let pos ← here
    if ← atEnd then failure
    let c := charAt bytes pos
    if c == '\\' then
      pass 2
      return .inl (depth, start, sofar)
    else if d.interpolates && interpolationAt bytes pos then
      let code ← interpolation g
      return .inl (depth, (← here), code :: textNode start pos ++ sofar)
    else if c == d.closer && depth == 0 then return .inr (textNode start pos ++ sofar)
    else
      pass 1
      let depth :=
        if d.nests && c == d.opener then depth + 1
        else if c == d.closer then depth - 1 else depth
      return .inl (depth, start, sofar)

/-- Reads a literal whose opening token is `opening` bytes long: its node has the
two delimiters as its first and last child. -/
def delimited (g : Grammar) (type : String) (opening : Nat) (d : Delimiter) : Reader Tree := do
  let start ← here
  pass opening
  let first := token "\"" start (start + opening)
  let inner ← content g d
  let stop ← here
  pass 1
  upToHere type start (first :: inner.reverse ++ [token "\"" stop (stop + 1)])

/-! ### Arrays of words -/

/-- Reads the words between two delimiters, each with what it interpolates. -/
def words (g : Grammar) (type wordType : String) (opening : Nat) (d : Delimiter) : Reader Tree := do
  let start ← here
  pass opening
  let inner ← loop ([] : List Tree) fun sofar => do
    passWhile fun c => isInlineSpace c || c == '\n'
    let first ← here
    if ← atEnd then failure
    if (← peek) == d.closer then return .inr sofar
    let parts ← loop ((0, first, []) : Nat × Nat × List Tree) fun (depth, start, parts) => do
      let bytes := (← read).bytes
      let pos ← here
      if ← atEnd then failure
      let c := charAt bytes pos
      if isInlineSpace c || c == '\n' || (c == d.closer && depth == 0) then
        return .inr (textNode start pos ++ parts)
      else if c == '\\' then
        pass 2
        return .inl (depth, start, parts)
      else if d.interpolates && interpolationAt bytes pos then
        let code ← interpolation g
        return .inl (depth, (← here), code :: textNode start pos ++ parts)
      else
        pass 1
        let depth :=
          if d.nests && c == d.opener then depth + 1
          else if c == d.closer then depth - 1 else depth
        return .inl (depth, start, parts)
    let w ← upToHere wordType first parts.reverse
    return .inl (w :: sofar)
  pass 1
  upToHere type start inner.reverse

/-! ### Literals that begin with a percent sign -/

/-- Whether a character may delimit a literal after a percent sign. -/
def isDelimiter (c : Char) : Bool :=
  0x20 < c.toNat && c.toNat < 0x7F && !c.isAlphanum

/-- Whether a literal begins at a percent sign, rather than a division. -/
def percentLiteralAt (bytes : ByteArray) (i : Nat) : Bool :=
  let c := charAt bytes (i + 1)
  if "qQwWiIrsx".toList.contains c then isDelimiter (charAt bytes (i + 2))
  else isDelimiter c && c != '='

/-- Passes over the letters that may follow a regular expression. -/
def flags : Reader Unit := passWhile Char.isAlpha

/-- Reads a literal that begins with a percent sign. -/
def percentLiteral (g : Grammar) : Reader Tree := do
  let c ← peekAt 1
  let open2 ← peekAt 2
  let d := Delimiter.ofChar open2
  if c == 'q' then delimited g "string" 3 (d false)
  else if c == 'Q' then delimited g "string" 3 (d true)
  else if c == 'w' then words g "string_array" "bare_string" 3 (d false)
  else if c == 'W' then words g "string_array" "bare_string" 3 (d true)
  else if c == 'i' then words g "symbol_array" "bare_symbol" 3 (d false)
  else if c == 'I' then words g "symbol_array" "bare_symbol" 3 (d true)
  else if c == 's' then delimited g "delimited_symbol" 3 (d false)
  else if c == 'x' then delimited g "subshell" 3 (d true)
  else if c == 'r' then do
    let t ← delimited g "regex" 3 (d true)
    flags
    upToHere "regex" t.value.start t.children
  else delimited g "string" 2 (Delimiter.ofChar c true)

/-! ### Strings and regular expressions -/

/-- Reads a string between quotes. -/
def quotedString (g : Grammar) : Reader Tree := do
  let c ← peek
  delimited g "string" 1 (Delimiter.ofChar c (c == '"'))

/-- Reads one or several strings side by side. -/
def strings (g : Grammar) : Reader Tree := do
  let first ← quotedString g
  let more ← loop ([] : List Tree) fun sofar => do
    let s ← get
    blanks
    let c ← peek
    if c == '"' || c == '\'' then
      let next ← quotedString g
      return .inl (next :: sofar)
    else
      set s
      return .inr sofar
  if more.isEmpty then return first
  else upToHere "chained_string" first.value.start (first :: more.reverse)

/-- Reads a regular expression between slashes. -/
def regex (g : Grammar) : Reader Tree := do
  let t ← delimited g "regex" 1 (Delimiter.ofChar '/' true)
  flags
  upToHere "regex" t.value.start t.children

/-- Reads a command between backticks. -/
def subshell (g : Grammar) : Reader Tree :=
  delimited g "subshell" 1 (Delimiter.ofChar '`' true)

/-! ### Heredocs -/

/-- The heredoc that is announced at an offset: it, and the length of its
announcement. -/
def heredocAt (bytes : ByteArray) (i : Nat) : Option (Heredoc × Nat) :=
  if startsWithAt bytes i ['<', '<'] then
    let c := charAt bytes (i + 2)
    let indented := c == '~' || c == '-'
    let first := if indented then i + 3 else i + 2
    let q := charAt bytes first
    if q == '"' || q == '\'' || q == '`' then
      let stop := scanWhile bytes (fun c => c != q && c != '\n') (first + 1) (bytes.size - first)
      if charAt bytes stop == q then
        some (⟨String.ofList (charsBetween bytes (first + 1) stop), indented, q == '\''⟩,
          stop + 1 - i)
      else none
    else if isNameStart q then
      let stop := nameEnd bytes first
      some (⟨String.ofList (charsBetween bytes first stop), indented, false⟩, stop - i)
    else none
  else none

/-- Reads the announcement of a heredoc. -/
def heredoc : Reader Tree := do
  let start ← here
  match heredocAt (← read).bytes start with
  | none => failure
  | some (h, length) =>
    modify fun s => { s with pos := s.pos + length, heredocs := s.heredocs ++ [h] }
    upToHere "heredoc_beginning" start []

/-! ### Symbols -/

/-- The operators that may name a method, a longer one before those it begins with. -/
def operatorNames : List String :=
  ["[]=", "[]", "<=>", "===", "==", "=~", "!=", "!~", "**", "<<", ">>", "<=", ">=", "+@", "-@",
    "~@", "!@", "+", "-", "*", "/", "%", "<", ">", "!", "~", "&", "|", "^"]

/-- The operator name that stands at an offset. -/
def operatorNameAt (bytes : ByteArray) (i : Nat) : Option String :=
  operatorNames.find? fun s => startsWithAt bytes i s.toList

/-- The length of the mark (`?` or `!`) that belongs to the name before an offset. -/
def nameMark (bytes : ByteArray) (i : Nat) : Nat :=
  let c := charAt bytes i
  if c == '?' || c == '!' then
    if charAt bytes (i + 1) == '=' then
      let d := charAt bytes (i + 2)
      if d == '=' || d == '~' || d == '>' then 1 else 0
    else 1
  else 0

/-- Whether the equals sign at an offset belongs to the name before it. -/
def setterMark (bytes : ByteArray) (i : Nat) : Bool :=
  charAt bytes i == '=' &&
    (let d := charAt bytes (i + 1)
     d != '=' && d != '~' && d != '>')

/-- The offset after the symbol whose colon is at an offset, if one begins there. -/
def symbolEnd (bytes : ByteArray) (i : Nat) : Option Nat :=
  let c := charAt bytes (i + 1)
  if isNameStart c then
    let stop := nameEnd bytes (i + 1)
    let mark := nameMark bytes stop
    if mark != 0 then some (stop + mark)
    else if setterMark bytes stop then some (stop + 1) else some stop
  else if c == '@' || c == '$' then
    let first := scanWhile bytes (· == '@') (i + 1) 2
    let first := if c == '$' then i + 2 else first
    let stop := nameEnd bytes first
    if first < stop then some stop else if c == '$' then some (first + 1) else none
  else (operatorNameAt bytes (i + 1)).map fun s => i + 1 + s.length

/-- Reads a symbol. -/
def symbol (g : Grammar) : Reader Tree := do
  let start ← here
  let c ← peekAt 1
  if c == '"' || c == '\'' then delimited g "delimited_symbol" 2 (Delimiter.ofChar c (c == '"'))
  else match symbolEnd (← read).bytes start with
    | none => failure
    | some stop =>
      goTo stop
      upToHere "simple_symbol" start []

/-! ### Numbers and characters -/

/-- Digits, and the line that may separate them. -/
def isDigitOrLine (c : Char) : Bool := c.isDigit || c == '_'

/-- Reads a number. -/
def number : Reader Tree := do
  let bytes := (← read).bytes
  let start ← here
  let c ← peekAt 1
  if (← peek) == '0' && "xXbBoOdD".toList.contains c then
    pass 2
    passWhile fun c => c.isAlphanum || c == '_'
    upToHere "integer" start []
  else
    passWhile isDigitOrLine
    let pos ← here
    let fraction := charAt bytes pos == '.' && (charAt bytes (pos + 1)).isDigit
    if fraction then
      pass 1
      passWhile isDigitOrLine
    let pos ← here
    let e := charAt bytes pos
    let signed := charAt bytes (pos + 1) == '-' || charAt bytes (pos + 1) == '+'
    let exponent := (e == 'e' || e == 'E') &&
      (charAt bytes (if signed then pos + 2 else pos + 1)).isDigit
    if exponent then
      pass (if signed then 2 else 1)
      passWhile isDigitOrLine
    let plain ← upToHere (if fraction || exponent then "float" else "integer") start []
    if !isNameChar (charAt bytes ((← here) + 1)) && (← accept "r") then
      upToHere "rational" start [plain]
    else if !isNameChar (charAt bytes ((← here) + 1)) && (← accept "i") then
      upToHere "complex" start [plain]
    else return plain

/-- Whether a character literal begins at an offset, rather than a choice. -/
def characterAt (bytes : ByteArray) (i : Nat) : Bool :=
  charAt bytes i == '?' &&
    (let c := charAt bytes (i + 1)
     c == '\\' || (0x20 < c.toNat && !isNameChar (charAt bytes (i + 2)))
      || 0xC0 ≤ c.toNat)

/-- Whether a character is a digit of base sixteen. -/
def isHexDigit (c : Char) : Bool :=
  c.isDigit || ('a' ≤ c && c ≤ 'f') || ('A' ≤ c && c ≤ 'F')

/-- Reads a character literal; one that is escaped may be given by its number, or
with a control or meta key. -/
def character : Reader Tree := do
  let start ← here
  let c ← peekAt 1
  if c == '\\' then
    pass 3
    let bytes := (← read).bytes
    let pos ← here
    let d := charAt bytes pos
    if d == '\x7b' then
      passWhile (· != '\x7d')
      pass 1
    else if d == '-' then
      pass 2
      let e := charAt bytes (pos + 2)
      if (e == 'C' || e == 'M') && charAt bytes (pos + 3) == '-' then pass 3
    else if ((List.range 4).map fun k => charAt bytes (pos + k)).all isHexDigit then pass 4
  else if 0xC0 ≤ c.toNat then
    pass 2
    passWhile fun c => 0x80 ≤ c.toNat && c.toNat < 0xC0
  else pass 2
  upToHere "character" start []

end Reader

end TapLint.Ruby
