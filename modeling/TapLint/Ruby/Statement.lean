/-
Ruby statements: definitions, conditions, loops, and everything that an
expression may begin with.

`Reader.step` ties the constructs together: it reads each of them by means of a
grammar for what is nested in it.  `Reader.nameOrCall` says when a word that
stands alone is a call.
-/
import TapLint.Ruby.Pattern

namespace TapLint.Ruby.Reader

/-! ### Runs of statements -/

/-- Whether one of some words or brackets comes next. -/
def atCloser (closers : List String) : Reader Bool :=
  closers.anyM fun w =>
    if w.toList.all isNameChar then atKeyword w else looking w

/-- The first offset, from `i` on, that holds neither white space nor a line end. -/
def afterSpace (bytes : ByteArray) (i : Nat) : Nat :=
  scanWhile bytes (fun c => isInlineSpace c || c == '\n') i (bytes.size - i)

/-- Reads what ends a statement, and says where a body that ends with it ends:
after a semicolon; or at the end of the line, where comments that follow count as
part of the line; or right here, if a closer follows. -/
def terminator (closers : List String) : Reader Nat := do
  let first ← here
  loop first fun stop => do
    blanks
    let bytes := (← read).bytes
    let pos ← here
    let c ← peek
    if c == ';' then
      pass 1
      return .inr (pos + 1)
    else if c == '#' then
      comment
      return .inl (← here)
    else if c == '\n' then
      if !(← get).heredocs.isEmpty then
        newline
        return .inl (← here)
      else if charAt bytes (afterSpace bytes pos) == '#' then
        goTo (afterSpace bytes pos)
        return .inl (← here)
      else return .inr pos
    else if (← atEnd) || (← atCloser closers) then return .inr stop
    else failure

/-- Reads statements up to a closer or the end of the text; neither is passed
over. -/
def statements (closers : List String) (statement : Reader Tree) : Reader Tree := do
  layout
  let start ← here
  let (children, stop) ← loop (([], start) : List Tree × Nat) fun (sofar, stop) => do
    layout
    let pos ← here
    if (← atEnd) || (← atCloser closers) then return .inr (sofar.reverse, stop)
    else if ← accept ";" then
      return .inl (named "empty_statement" pos (pos + 1) [] :: sofar, pos + 1)
    else if closers.isEmpty && markerAt (← read).bytes pos "__END__" then
      return .inr (sofar.reverse, stop)
    else
      let t ← statement
      let stop ← terminator closers
      return .inl (t :: sofar, stop)
  return named "statements" start stop children

/-- Reads statements in brackets. -/
def parenthesized (g : Grammar) : Reader Tree := do
  let start ← here
  pass 1
  let run ← inside (g (.statements [")"]))
  layout
  expect ")"
  upToHere "parenthesized_statements" start run.children

/-! ### Definitions -/

/-- Passes over the end of a line or a semicolon, which has to be there unless a
keyword follows at once. -/
def lineBreak : Reader Unit := do
  blanks
  let c ← peek
  if c == ';' then pass 1
  else if c == '\n' || c == '#' then layout
  else if ← atEnd then failure
  else pure ()

/-- Reads a class, or the singleton class of an object. -/
def classDefinition (g : Grammar) : Reader Tree := do
  let start ← here
  pass 5
  blanks
  if ← accept "<<" then
    blanks
    let value ← g .expression
    lineBreak
    let inner ← bodyStatement g
    layout
    expectKeyword "end"
    upToHere "singleton_class" start (inField "value" value :: inner.toList)
  else
    let name ← constantPath
    blanks
    let pos ← here
    let parent ←
      if (← peek) == '<' then do
        pass 1
        layout
        let t ← g .expression
        pure [inField "superclass" (named "superclass" pos t.value.stop [t])]
      else pure []
    blanks
    let c ← peek
    if !parent.isEmpty && c != ';' && c != '\n' && c != '#' then failure
    lineBreak
    let inner ← bodyStatement g
    layout
    expectKeyword "end"
    upToHere "class" start (inField "name" name :: parent ++ inner.toList)

/-- Reads a module. -/
def moduleDefinition (g : Grammar) : Reader Tree := do
  let start ← here
  pass 6
  blanks
  let name ← constantPath
  lineBreak
  let inner ← bodyStatement g
  layout
  expectKeyword "end"
  upToHere "module" start (inField "name" name :: inner.toList)

/-- Reads the name of a method where it is defined. -/
def definedName : Reader Tree := do
  let bytes := (← read).bytes
  let start ← here
  match methodNameEnd bytes start with
  | none => failure
  | some stop =>
    let setter := isNameStart (charAt bytes start) && setterMark bytes stop
      && (charAt bytes (stop + 1) == '(' || isNameStart (charAt bytes (stop + 1)))
    let stop := if setter then stop + 1 else stop
    goTo stop
    upToHere (if setter then "setter" else nameType bytes start) start []

/-- Reads a method. -/
def methodDefinition (g : Grammar) : Reader Tree := do
  let start ← here
  pass 3
  layout
  let first ← if (← peek) == '(' then parenthesized g else definedName
  let single := (← accept ".") || (← accept "::")
  let names ←
    if single then do
      let name ← definedName
      let object := if (charsBetween (← read).bytes first.value.start first.value.stop)
          == "self".toList then named "self" first.value.start first.value.stop [] else first
      pure [inField "object" object, inField "name" name]
    else pure [inField "name" first]
  let type := if single then "singleton_method" else "method"
  blanks
  let pos ← here
  let ps ←
    if (← peek) == '(' then do
      pass 1
      let ps ← g (.parameters ")")
      let t ← upToHere "method_parameters" pos ps.children
      pure [inField "parameters" t]
    else pure []
  blanks
  let c ← peek
  if c == '=' then
    pass 1
    layout
    let value ← g (.operand 0 true)
    let s ← get
    blanks
    let value ←
      if ← acceptKeyword "rescue" then do
        layout
        let handler ← g (.operand 0 false)
        upToHere "rescue_modifier" value.value.start
          [inField "body" value, inField "handler" handler]
      else do
        set s
        pure value
    upToHere type start (names ++ ps ++ [inField "body" value])
  else
    let ps ←
      if ps.isEmpty && c != ';' && c != '\n' && c != '#' && !(← atKeyword "end") then do
        let t ← openParameters g "method_parameters"
        pure [inField "parameters" t]
      else pure ps
    lineBreak
    let inner ← bodyStatement g
    layout
    expectKeyword "end"
    upToHere type start (names ++ ps ++ inner.toList)

/-! ### Conditions and loops -/

/-- A branch of a condition: where it begins, what it asks, and its statements. -/
structure Branch where
  start : Nat
  condition : Tree
  consequence : Tree

/-- The nested alternatives that branches stand for, the first outermost. -/
def alternatives (otherwise : Option Tree) : List Branch → Option Tree
  | [] => otherwise
  | b :: bs =>
    let rest := alternatives otherwise bs
    let parts := [inField "condition" b.condition, inField "consequence" b.consequence]
    let stop := (rest.map (·.value.stop)).getD b.consequence.value.stop
    some (named "elsif" b.start stop (parts ++ (rest.map (inField "alternative")).toList))

/-- Reads a condition with its branches: `if` or `unless`. -/
def condition (g : Grammar) (type : String) : Reader Tree := do
  let start ← here
  pass type.length
  layout
  let closers := ["elsif", "else", "end"]
  let asked ← inside (g .expression)
  let yes ← inside (clause g closers)
  let branches ← loop ([] : List Branch) fun sofar => do
    layout
    let pos ← here
    if ← acceptKeyword "elsif" then
      layout
      let asked ← inside (g .expression)
      let yes ← inside (clause g closers)
      return .inl (⟨pos, asked, yes⟩ :: sofar)
    else return .inr sofar.reverse
  let pos ← here
  let otherwise ←
    if ← acceptKeyword "else" then do
      let run ← inside (g (.statements ["end"]))
      pure (some (named "else" pos run.value.stop run.children))
    else pure none
  layout
  expectKeyword "end"
  let rest := alternatives otherwise branches
  let first := if yes.children.isEmpty then [] else [inField "consequence" yes]
  upToHere type start
    (inField "condition" asked :: first ++ (rest.map (inField "alternative")).toList)

/-- Reads the statements of a loop, up to its `end`. -/
def loopBody (g : Grammar) : Reader Tree := do
  blanks
  let start ← here
  if ← acceptKeyword "do" then pure () else lineBreak
  let run ← inside (g (.statements ["end"]))
  layout
  expectKeyword "end"
  upToHere "do" start run.children

/-- Reads what a loop asks or goes through, whose `do` belongs to the loop. -/
def loopHead (g : Grammar) : Reader Tree := do
  blanks
  withReader (fun ctx => { ctx with noDo := true, noBar := false, listOk := false }) (g .expression)

/-- Reads a loop: `while` or `until`. -/
def conditionLoop (g : Grammar) (type : String) : Reader Tree := do
  let start ← here
  pass type.length
  let asked ← loopHead g
  let inner ← loopBody g
  upToHere type start [inField "condition" asked, inField "body" inner]

/-- Reads a loop over the members of a collection. -/
def forLoop (g : Grammar) : Reader Tree := do
  let start ← here
  pass 3
  blanks
  let taken ← targets g []
  let pos ← here
  expectKeyword "in"
  let through ← loopHead g
  let value := named "in" pos through.value.stop [through]
  let inner ← loopBody g
  upToHere "for" start
    (taken.map (inField "pattern") ++ [inField "value" value, inField "body" inner])

/-- Reads the values that a choice is compared with. -/
def comparands (g : Grammar) : Reader (List Tree) := do
  blanks
  loop ([] : List Tree) fun sofar => do
    let start ← here
    let t ← if (← peek) == '*' then signed g "splat_argument" 1 else g (.operand 0 false)
    let p ← upToHere "pattern" start [t]
    blanks
    if ← accept "," then
      layout
      return .inl (inField "pattern" p :: sofar)
    else return .inr (inField "pattern" p :: sofar).reverse

/-- Reads a choice between values or patterns. -/
def caseChoice (g : Grammar) : Reader Tree := do
  let start ← here
  pass 4
  blanks
  let c ← peek
  let asked ←
    if c == '\n' || c == ';' || c == '#' then pure []
    else do
      let t ← inside (g .expression)
      pure [inField "value" t]
  let branches ← loop ([] : List Tree) fun sofar => do
    layout
    let pos ← here
    if ← accept ";" then return .inl sofar
    else if ← acceptKeyword "when" then
      let ps ← inside (comparands g)
      let run ← inside (clause g ["when", "else", "end"])
      return .inl (named "when" pos run.value.stop (ps ++ [inField "body" run]) :: sofar)
    else if ← acceptKeyword "in" then
      let p ← inside (patternList g)
      blanks
      let guarded ←
        if (← acceptKeyword "if") || (← acceptKeyword "unless") then do
          blanks
          let t ← inside (g .expression)
          pure [inField "guard" t]
        else pure []
      let run ← inside (clause g ["in", "else", "end"])
      let parts := inField "pattern" p :: guarded ++ [inField "body" run]
      return .inl (named "in_clause" pos run.value.stop parts :: sofar)
    else return .inr sofar.reverse
  let pos ← here
  let otherwise ←
    if ← acceptKeyword "else" then do
      let run ← inside (g (.statements ["end"]))
      pure [named "else" pos run.value.stop run.children]
    else pure []
  layout
  expectKeyword "end"
  upToHere "case" start (asked ++ branches ++ otherwise)

/-- Reads a body that stands by itself. -/
def beginBlock (g : Grammar) : Reader Tree := do
  let start ← here
  pass 5
  blanks
  let _ ← accept ";"
  let (children, _) ← body g
  layout
  expectKeyword "end"
  upToHere "begin" start children

/-- Reads a keyword with the arguments that may follow it. -/
def jump (g : Grammar) (type : String) : Reader Tree := do
  let start ← here
  pass type.length
  let stop ← here
  let c ← peek
  if c == '(' then
    let args ← bracketedArguments g
    upToHere type start [args]
  else
    let s ← get
    blanks
    let pos ← here
    let next ← peek
    let bytes := (← read).bytes
    let follows :=
      if stop < pos then startsArgument bytes pos || next == '\x7b' else adjoins bytes pos
    if follows then
      let args ← openArguments g true
      upToHere type start [args]
    else
      set s
      return named type start stop []

/-! ### What an expression may begin with -/

/-- Reads a word as a leaf of its own type. -/
def leaf (type : String) (length : Nat) : Reader Tree := do
  let start ← here
  pass length
  upToHere type start []

/-- Reads a name.  A name with a mark can only be that of a method, so that it is a
call even if nothing follows it. -/
def nameOrCall : Reader Tree := do
  let bytes := (← read).bytes
  let start ← here
  let stop := markedNameEnd bytes start
  goTo stop
  let name := named (nameType bytes start) start stop []
  if nameEnd bytes start < stop then return named "call" start stop [inField "method" name]
  else return name

/-- Reads an operator that is a word, and what it is applied to: only the brackets,
if such follow it. -/
def wordOperator (g : Grammar) (length : Nat) : Reader Tree := do
  let start ← here
  pass length
  blanks
  let t ← if (← peek) == '(' then parenthesized g else g (.operand 0 true)
  upToHere "unary" start [inField "operand" t]

/-- Reads an expression that begins with a word. -/
def wordExpression (g : Grammar) : Reader Tree := do
  let w ← word
  if !(← atKeyword w) then nameOrCall
  else if w == "defined" && (← peekAt 7) == '?' then wordOperator g 8
  else if nameMark (← read).bytes ((← here) + w.length) != 0 then nameOrCall
  else if w == "if" || w == "unless" then condition g w
  else if w == "while" || w == "until" then conditionLoop g w
  else if w == "for" then forLoop g
  else if w == "case" then caseChoice g
  else if w == "begin" then beginBlock g
  else if w == "def" then methodDefinition g
  else if w == "class" then classDefinition g
  else if w == "module" then moduleDefinition g
  else if w == "return" || w == "break" || w == "next" || w == "yield" then jump g w
  else if w == "redo" || w == "retry" || w == "self" || w == "nil" || w == "true" || w == "false"
    || w == "super" then leaf w w.length
  else if w == "not" then wordOperator g 3
  else nameOrCall

/-- Reads a variable with a sign in front of its name. -/
def signedName (type : String) (length : Nat) : Reader Tree := do
  let bytes := (← read).bytes
  let start ← here
  let first := start + length + (if startsWithAt bytes start ['$', '-'] then 1 else 0)
  let stop := nameEnd bytes first
  goTo (if first < stop then stop else first + 1)
  upToHere type start []

/-- Reads an array or a hash. -/
def collection (g : Grammar) (type closer : String) : Reader Tree := do
  let start ← here
  pass 1
  let items ← arguments g closer
  upToHere type start items

/-- Reads an expression without operators and suffixes. -/
def primary (g : Grammar) : Reader Tree := do
  let bytes := (← read).bytes
  let pos ← here
  let c ← peek
  let d ← peekAt 1
  if isNameStart c then wordExpression g
  else if c.isDigit then number
  else if c == '"' || c == '\'' then strings g
  else if c == ':' then
    if d == ':' then constantPath else symbol g
  else if c == '(' then parenthesized g
  else if c == '[' then collection g "array" "]"
  else if c == '\x7b' then collection g "hash" "\x7d"
  else if c == '`' then subshell g
  else if c == '/' then regex g
  else if c == '%' then if percentLiteralAt bytes pos then percentLiteral g else failure
  else if c == '<' then heredoc
  else if c == '?' then character
  else if c == '@' then
    if d == '@' then signedName "class_variable" 2 else signedName "instance_variable" 1
  else if c == '$' then signedName "global_variable" 1
  else if c == '-' && d == '>' then lambda g
  else if c == '-' && d.isDigit then do
    pass 1
    let t ← number
    upToHere "unary" pos [inField "operand" t]
  else failure

/-- Reads an operand with the signs in front of it, and an assignment to it. -/
def signedOperand (g : Grammar) (level : Nat) (commands : Bool) : Reader Tree := do
  let start ← here
  let c ← peek
  let d ← peekAt 1
  let withSign (length inner : Nat) (commands : Bool) : Reader Tree := do
    pass length
    blanks
    let t ← g (.operand inner commands)
    upToHere "unary" start [inField "operand" t]
  if c == '!' then withSign 1 85 commands
  else if c == '-' && d != '>' && !d.isDigit then withSign 1 75 commands
  else if c == '+' || c == '~' then withSign 1 85 commands
  else if c == '.' && d == '.' then do
    pass (if (← peekAt 2) == '.' then 3 else 2)
    blanks
    let t ← g (.operand 26 false)
    upToHere "range" start [inField "end" t]
  else
    let t ← primary g
    let t ← suffixes g commands t
    if level < 90 then assignment g t else return t

/-- Reads an operand and the operators after it. -/
def operand (g : Grammar) (level : Nat) (commands : Bool) : Reader Tree := do
  let t ← signedOperand g level commands
  climb g level t

/-- Reads an expression without `and` and `or`, with the pattern that it may be
matched with. -/
def matched (g : Grammar) : Reader Tree := do
  let t ← g (.operand 0 true)
  let s ← get
  blanks
  if ← accept "=>" then
    let p ← patternList g
    upToHere "match_pattern" t.value.start [inField "value" t, inField "pattern" p]
  else if ← acceptKeyword "in" then
    let p ← patternList g
    upToHere "test_pattern" t.value.start [inField "value" t, inField "pattern" p]
  else
    set s
    return t

/-- Reads an expression, joined by `and` and `or`. -/
def expression (g : Grammar) : Reader Tree := do
  let first ← matched g
  loop first fun left => do
    let s ← get
    blanks
    if (← acceptKeyword "and") || (← acceptKeyword "or") then
      layout
      let right ← matched g
      return .inl (named "binary" left.value.start right.value.stop
        [inField "left" left, inField "right" right])
    else
      set s
      return .inr left

/-! ### Statements -/

/-- Reads the name of a method where it is given another or taken away. -/
def methodReference (g : Grammar) : Reader Tree := do
  let c ← peek
  if c == ':' then symbol g
  else if c == '$' then signedName "global_variable" 1
  else
    let bytes := (← read).bytes
    let start ← here
    match methodNameEnd bytes start with
    | none => failure
    | some stop =>
      goTo (if isNameStart c && setterMark bytes stop then stop + 1 else stop)
      upToHere (nameType bytes start) start []

/-- Reads an assignment to several targets, the first of which may have been read. -/
def multipleAssignment (g : Grammar) (first : List Tree) : Reader Tree := do
  let pos ← here
  let start := (first.head?.map (·.value.start)).getD pos
  let all ← targets g first
  let stop := (all.getLast?.map (·.value.stop)).getD start
  let left := named "left_assignment_list" start stop all
  match assignmentAt (← read).bytes (← here) with
  | some 1 =>
    pass 1
    layout
    let right ← assigned g
    upToHere "assignment" start [inField "left" left, inField "right" right]
  | _ => failure

/-- Reads an expression, or an assignment to several targets. -/
def expressionStatement (g : Grammar) : Reader Tree := do
  let t ← g .expression
  let s ← get
  blanks
  if isTarget t && (← peek) == ',' then multipleAssignment g [t]
  else
    set s
    return t

/-- Reads an expression that begins with a bracket; it fails before a comma or an
assignment, which the bracket's own contents are the targets of. -/
def bracketedStatement (g : Grammar) : Reader Tree := do
  let t ← expressionStatement g
  let s ← get
  blanks
  if (← peek) == ',' || (assignmentAt (← read).bytes (← here)).isSome then failure
  set s
  return t

/-- Reads a statement without the conditions that may follow it. -/
def plainStatement (g : Grammar) : Reader Tree := do
  let start ← here
  if ← acceptKeyword "alias" then
    blanks
    let new ← methodReference g
    blanks
    let old ← methodReference g
    upToHere "alias" start [inField "name" new, inField "alias" old]
  else if ← acceptKeyword "undef" then
    blanks
    let names ← loop ([] : List Tree) fun sofar => do
      let t ← methodReference g
      let s ← get
      blanks
      if ← accept "," then
        layout
        return .inl (t :: sofar)
      else
        set s
        return .inr (t :: sofar).reverse
    upToHere "undef" start names
  else
    let w ← word
    let bytes := (← read).bytes
    let isHook := (w == "BEGIN" || w == "END") &&
      charAt bytes (scanWhile bytes isInlineSpace (start + w.length) bytes.size) == '\x7b'
    if isHook then
      pass w.length
      blanks
      pass 1
      let run ← inside (g (.statements ["\x7d"]))
      layout
      expect "\x7d"
      upToHere (if w == "BEGIN" then "begin_block" else "end_block") start run.children
    else if (← peek) == '*' then multipleAssignment g []
    else if (← peek) == '(' then bracketedStatement g <|> multipleAssignment g []
    else expressionStatement g

/-- The words that put a condition after a statement. -/
def modifiers : List (String × String × String) := [
  ("if", "if_modifier", "condition"), ("unless", "unless_modifier", "condition"),
  ("while", "while_modifier", "condition"), ("until", "until_modifier", "condition"),
  ("rescue", "rescue_modifier", "handler")]

/-- Reads a statement with the conditions that may follow it. -/
def statement (g : Grammar) : Reader Tree := do
  let first ← plainStatement g
  loop first fun t => do
    let s ← get
    blanks
    let w ← word
    match modifiers.find? (·.1 == w) with
    | some (_, type, field) =>
      expectKeyword w
      layout
      let asked ← g .expression
      return .inl (named type t.value.start asked.value.stop
        [inField "body" t, inField field asked])
    | none =>
      set s
      return .inr t

/-- Reads one construct, given a grammar for what is nested in it. -/
def step (g : Grammar) : Grammar
  | .statements closers => statements closers (statement g)
  | .expression => expression g
  | .operand level commands => operand g level commands
  | .argument => argument g
  | .parameters closer => parameters g closer
  | .pattern => pattern g
  | .target => target g

/-- Reads one construct that is nested at most `depth` levels deep. -/
def nested : Nat → Grammar
  | 0, _ => failure
  | depth + 1, goal => step (nested depth) goal

end TapLint.Ruby.Reader
