/-
Ruby patterns: what a value is matched with, and what is assigned to.

* `Reader.pattern` — one pattern: a value, an array or a hash of patterns,
  alternatives, or a pattern whose match is given a name;
* `Reader.patternList` — patterns with commas between them, without brackets;
* `Reader.target` — one of several targets of an assignment, which may itself be
  made of targets.
-/
import TapLint.Ruby.Expression

namespace TapLint.Ruby.Reader

/-! ### Matching -/

/-- Whether the pattern after a key is left out: what follows cannot begin one. -/
def atPatternEnd : Reader Bool := do
  let c ← peek
  if c == ',' || c == ')' || c == ']' || c == '\x7d' || c == '\n' || c == ';' || c == '#' then
    return true
  else if ["then", "if", "unless", "and", "or"].contains (← word) then return true
  else atEnd

/-- Reads a pattern after a key. -/
def keyedPattern (g : Grammar) (key : Tree) : Reader Tree := do
  pass 1
  let s ← get
  blanks
  if ← atPatternEnd then
    set s
    upToHere "keyword_pattern" key.value.start [inField "key" key]
  else
    let value ← g .pattern
    upToHere "keyword_pattern" key.value.start [inField "key" key, inField "value" value]

/-- Reads a pattern, or one with a key or a sign, as it may stand among others. -/
def patternItem (g : Grammar) : Reader Tree := do
  let bytes := (← read).bytes
  let start ← here
  if (← peek) == '*' then
    if (← peekAt 1) == '*' then signedParameter "hash_splat_parameter" 2
    else signedParameter "splat_parameter" 1
  else if keyAt bytes start then
    goTo (markedNameEnd bytes start)
    let key ← upToHere "hash_key_symbol" start []
    keyedPattern g key
  else
    let t ← g .pattern
    if t.value.type == "string" && isKeyColon bytes (← here) then keyedPattern g t
    else return t

/-- Reads patterns up to a closing bracket, which is passed over. -/
def patternsUpTo (g : Grammar) (closer : String) : Reader (List Tree) :=
  loop ([] : List Tree) fun sofar => do
    layout
    if ← accept closer then return .inr sofar.reverse
    let t ← patternItem g
    layout
    if ← accept "," then return .inl (t :: sofar)
    expect closer
    return .inr (t :: sofar).reverse

/-- Whether a pattern belongs in a hash. -/
def isKeyed (t : Tree) : Bool :=
  t.value.type == "keyword_pattern" || t.value.type == "hash_splat_parameter"

/-- The type of the node around patterns. -/
def groupType (items : List Tree) : String :=
  if items.any isKeyed then "hash_pattern" else "array_pattern"

/-- Reads a pattern that begins with a constant, which patterns in brackets may
follow. -/
def constantPattern (g : Grammar) : Reader Tree := do
  let t ← constantPath
  let c ← peek
  if c == '(' || c == '[' then
    pass 1
    let items ← patternsUpTo g (if c == '(' then ")" else "]")
    upToHere (groupType items) t.value.start (inField "class" t :: items)
  else return t

/-- Reads what a pattern compares with: a variable or an expression in brackets. -/
def pinned (g : Grammar) : Reader Tree := do
  let start ← here
  pass 1
  let t ← g (.operand 100 false)
  upToHere (if t.value.type == "parenthesized_statements" then "expression_reference_pattern"
    else "variable_reference_pattern") start [t]

/-- Reads a pattern that no operator divides, apart from a range. -/
def simplePattern (g : Grammar) : Reader Tree := do
  let start ← here
  let c ← peek
  if c == '[' then
    pass 1
    let items ← patternsUpTo g "]"
    upToHere "array_pattern" start items
  else if c == '\x7b' then
    pass 1
    let items ← patternsUpTo g "\x7d"
    upToHere "hash_pattern" start items
  else if c == '(' then
    pass 1
    layout
    let t ← g .pattern
    layout
    expect ")"
    upToHere "parenthesized_pattern" start [t]
  else if c == '^' then pinned g
  else if c.isUpper || (c == ':' && (← peekAt 1) == ':') then constantPattern g
  else g (.operand 26 false)

/-- Reads a pattern with the range that it may begin. -/
def rangePattern (g : Grammar) : Reader Tree := do
  let first ← simplePattern g
  let s ← get
  blanks
  if ← accept ".." then
    let _ ← accept "."
    if startsArgument (← read).bytes (← here) then
      let last ← simplePattern g
      upToHere "range" first.value.start [inField "begin" first, inField "end" last]
    else upToHere "range" first.value.start [inField "begin" first]
  else
    set s
    return first

/-- Reads a pattern: alternatives, and the name that the match may be given. -/
def pattern (g : Grammar) : Reader Tree := do
  let first ← withReader (fun ctx => { ctx with noBar := true }) (rangePattern g)
  loop first fun left => do
    let s ← get
    blanks
    if ← accept "|" then
      layout
      let right ← withReader (fun ctx => { ctx with noBar := true }) (rangePattern g)
      return .inl (named "alternative_pattern" left.value.start right.value.stop [left, right])
    else if ← accept "=>" then
      blanks
      let name ← parameterName
      return .inl (named "as_pattern" left.value.start name.value.stop
        [inField "value" left, inField "name" name])
    else
      set s
      return .inr left

/-- Reads patterns with commas between them: one of them as it is, several as an
array or a hash. -/
def patternList (g : Grammar) : Reader Tree := do
  blanks
  let start ← here
  let items ← loop ([] : List Tree) fun sofar => do
    let t ← patternItem g
    let s ← get
    blanks
    if ← accept "," then
      layout
      return .inl (t :: sofar)
    else
      set s
      return .inr (t :: sofar).reverse
  match items with
  | [t] =>
    if isKeyed t || t.value.type == "splat_parameter" then upToHere (groupType items) start items
    else return t
  | _ => upToHere (groupType items) start items

/-! ### Assigning -/

/-- Reads a target after a star; it may be left out. -/
def restTarget (g : Grammar) : Reader Tree := do
  let start ← here
  pass 1
  let c ← peek
  if isNameStart c || c == '@' || c == '$' then
    let t ← g (.operand 100 false)
    upToHere "rest_assignment" start [t]
  else upToHere "rest_assignment" start []

/-- Reads targets with commas between them, the first of which may have been read. -/
def targets (g : Grammar) (first : List Tree) : Reader (List Tree) :=
  loop first.reverse fun sofar => do
    blanks
    if sofar.isEmpty then
      let t ← g .target
      return .inl [t]
    else if ← accept "," then
      blanks
      let c ← peek
      if c == '=' || c == ')' then return .inl sofar
      layout
      let t ← g .target
      return .inl (t :: sofar)
    else return .inr sofar.reverse

/-- Reads one target: something that may be assigned to, targets in brackets, or
a star with what takes the rest. -/
def target (g : Grammar) : Reader Tree := do
  let start ← here
  let c ← peek
  if c == '*' then restTarget g
  else if c == '(' then
    pass 1
    let inner ← targets g []
    blanks
    expect ")"
    upToHere "destructured_left_assignment" start inner
  else
    let t ← g (.operand 100 false)
    if isTarget t then return t else failure

end TapLint.Ruby.Reader
