/-
Ruby expressions: calls, operators, and what they are applied to.

Every reader takes the `Grammar` of what may be nested in it.  Two questions
that Ruby's syntax leaves to blanks are answered here:

* `startsArgument` — whether what follows a name and a blank is an argument, so
  that the name is a call without brackets (`adjoins` — whether what follows a
  name at once is one);
* `Reader.suffixes` — which of the calls around it a block belongs to: braces to
  the nearest, `do` to the outermost without brackets.
-/
import TapLint.Ruby.Literal

namespace TapLint.Ruby.Reader

/-! ### Words -/

/-- Words that go on with, or end, the construct before them. -/
def continuingWords : List String :=
  ["if", "unless", "while", "until", "rescue", "and", "or", "then", "do", "end", "in", "else",
    "elsif", "when", "ensure"]

/-- The length of the name at an offset, its mark included. -/
def markedNameEnd (bytes : ByteArray) (i : Nat) : Nat :=
  let stop := nameEnd bytes i
  stop + nameMark bytes stop

/-- Whether a key with its colon begins at an offset. -/
def keyAt (bytes : ByteArray) (i : Nat) : Bool :=
  isNameStart (charAt bytes i) && isKeyColon bytes (markedNameEnd bytes i)

/-- Whether an argument begins at an offset that follows a blank. -/
def startsArgument (bytes : ByteArray) (i : Nat) : Bool :=
  let c := charAt bytes i
  let d := charAt bytes (i + 1)
  let spaced := isInlineSpace d || d == '\n' || d == '\x00'
  if isNameStart c then
    keyAt bytes i ||
      !continuingWords.contains (String.ofList (charsBetween bytes i (nameEnd bytes i)))
  else if c.isDigit || c == '"' || c == '\'' || c == '`' || c == '@' || c == '$' || c == '['
    || c == '(' || c == '~' then true
  else if c == ':' then
    if d == ':' then isNameStart (charAt bytes (i + 2))
    else d == '"' || d == '\'' || (symbolEnd bytes i).isSome
  else if c == '-' then d == '>' || (!spaced && d != '=')
  else if c == '*' then
    if d == '*' then let e := charAt bytes (i + 2); !isInlineSpace e && e != '=' && e != '\n'
    else !spaced && d != '='
  else if c == '&' then !spaced && d != '=' && d != '&' && d != '.'
  else if c == '!' then d != '=' && d != '~'
  else if c == '/' then !spaced && d != '='
  else if c == '%' then percentLiteralAt bytes i && !spaced
  else if c == '<' then d == '<' && (heredocAt bytes i).isSome
  else if c == '?' then characterAt bytes i
  else if c == '.' then startsWithAt bytes i ['.', '.', '.', ')']
  else false

/-- Whether an argument begins at an offset that follows a name without a blank. -/
def adjoins (bytes : ByteArray) (i : Nat) : Bool :=
  let c := charAt bytes i
  let d := charAt bytes (i + 1)
  c == '"' || c == '\'' || c == '`' || c == '@' || c == '$' || (c == '-' && d == '>')
    || (c == ':' && d != ':' && startsArgument bytes i)

/-! ### Arguments -/

/-- Reads a value that may be left out after a key, on the same line or below. -/
def keyedValue? (g : Grammar) : Reader (Option Tree) := do
  let s ← get
  layout
  let c ← peek
  let w ← word
  let bytes := (← read).bytes
  if c == ',' || c == ')' || c == ']' || c == '\x7d' || c == '|' || c == ';' || (← atEnd)
    || (continuingWords.contains w && !keyAt bytes (← here) && w != "if" && w != "unless"
        && w != "while" && w != "until") then
    set s
    return none
  else return some (← g (.operand 0 true))

/-- Reads what follows a sign in front of an argument, if anything does. -/
def signed (g : Grammar) (type : String) (length : Nat) : Reader Tree := do
  let start ← here
  pass length
  let c ← peek
  if c == ',' || c == ')' || c == ']' || c == '|' || c == '\n' || (← atEnd) then
    upToHere type start []
  else
    let t ← g (.operand 0 false)
    upToHere type start [t]

/-- Reads the pair that a key begins. -/
def keyPair (g : Grammar) (key : Tree) : Reader Tree := do
  pass 1
  let value ← keyedValue? g
  upToHere "pair" key.value.start (inField "key" key :: (value.map (inField "value")).toList)

/-- Reads an argument of a call, or a member of an array or a hash. -/
def argument (g : Grammar) : Reader Tree := do
  let bytes := (← read).bytes
  let start ← here
  let c ← peek
  if c == '*' then
    if (← peekAt 1) == '*' then signed g "hash_splat_argument" 2
    else signed g "splat_argument" 1
  else if c == '&' then signed g "block_argument" 1
  else if ← looking "...)" then
    pass 3
    upToHere "forward_argument" start []
  else if keyAt bytes start then
    goTo (markedNameEnd bytes start)
    let key ← upToHere "hash_key_symbol" start []
    keyPair g key
  else
    let t ← g (.operand 0 true)
    if t.value.type == "string" && isKeyColon bytes (← here) then keyPair g t
    else
      let s ← get
      blanks
      if ← accept "=>" then
        layout
        let value ← g (.operand 0 true)
        upToHere "pair" start [inField "key" t, inField "value" value]
      else
        set s
        return t

/-- Reads arguments up to a closing bracket, which is passed over. -/
def arguments (g : Grammar) (closer : String) : Reader (List Tree) :=
  withReader (fun ctx => { bytes := ctx.bytes, listOk := false }) <|
    loop ([] : List Tree) fun sofar => do
      layout
      if ← accept closer then return .inr sofar.reverse
      let t ← g .argument
      layout
      if ← accept "," then return .inl (t :: sofar)
      expect closer
      return .inr (t :: sofar).reverse

/-- Reads a list of arguments in brackets. -/
def bracketedArguments (g : Grammar) : Reader Tree := do
  let start ← here
  pass 1
  let args ← arguments g ")"
  upToHere "argument_list" start args

/-- Reads a list of arguments without brackets.  If the blocks after it are not its
own, they belong to the call. -/
def openArguments (g : Grammar) (keepDo : Bool) : Reader Tree := do
  let start ← here
  let outer (ctx : Context) : Context := { ctx with
    noDo := !keepDo || ctx.noDo
    noBrace := !keepDo || ctx.noBrace
    listOk := false }
  let args ← withReader outer <|
    loop ([] : List Tree) fun sofar => do
      let t ← g .argument
      let s ← get
      blanks
      if ← accept "," then
        layout
        return .inl (t :: sofar)
      else
        set s
        return .inr (t :: sofar).reverse
  upToHere "argument_list" start args

/-! ### Parameters -/

/-- Reads the name of a parameter. -/
def parameterName : Reader Tree := do
  let start ← here
  let stop := nameEnd (← read).bytes start
  if start < stop then
    goTo stop
    upToHere "identifier" start []
  else failure

/-- Reads a parameter after a sign; it need not have a name. -/
def signedParameter (type : String) (length : Nat) : Reader Tree := do
  let start ← here
  pass length
  let c ← peek
  if isNameStart c then
    let name ← parameterName
    upToHere type start [inField "name" name]
  else upToHere type start []

/-- Reads one parameter. -/
def parameter (g : Grammar) : Reader Tree := do
  let bytes := (← read).bytes
  let start ← here
  let c ← peek
  if c == '*' then
    if (← peekAt 1) == '*' then signedParameter "hash_splat_parameter" 2
    else signedParameter "splat_parameter" 1
  else if c == '&' then signedParameter "block_parameter" 1
  else if ← accept "..." then upToHere "forward_parameter" start []
  else if ← accept "(" then
    let inner ← g (.parameters ")")
    upToHere "destructured_parameter" start inner.children
  else if keyAt bytes start then
    let name ← parameterName
    pass 1
    let s ← get
    blanks
    let c ← peek
    if c == ',' || c == ')' || c == '|' || c == '\n' || c == ';' || (← atEnd) then
      set s
      upToHere "keyword_parameter" start [inField "name" name]
    else
      let value ← g (.operand 0 false)
      upToHere "keyword_parameter" start [inField "name" name, inField "value" value]
  else
    let name ← parameterName
    let s ← get
    blanks
    if (← peek) == '=' && (← peekAt 1) != '=' then
      pass 1
      layout
      let value ← g (.operand 0 false)
      upToHere "optional_parameter" start [inField "name" name, inField "value" value]
    else
      set s
      return name

/-- Reads parameters up to a closer, which is passed over. -/
def parameters (g : Grammar) (closer : String) : Reader Tree := do
  let start ← here
  let within (ctx : Context) : Context :=
    { ctx with noBar := closer == "|", noDo := true, listOk := false }
  let ps ← withReader within <|
    loop ([] : List Tree) fun sofar => do
      layout
      if ← accept closer then return .inr sofar.reverse
      if ← accept ";" then return .inl sofar
      let p ← parameter g
      layout
      if ← accept "," then return .inl (p :: sofar)
      if (← peek) == ';' then return .inl (p :: sofar)
      expect closer
      return .inr (p :: sofar).reverse
  upToHere "parameters" start ps

/-- Reads parameters that no bracket encloses, up to the end of the line or to a
word or brace that begins a body. -/
def openParameters (g : Grammar) (type : String) : Reader Tree := do
  let start ← here
  let ps ← loop ([] : List Tree) fun sofar => do
    let p ← parameter g
    let s ← get
    blanks
    if ← accept "," then
      layout
      return .inl (p :: sofar)
    else
      set s
      return .inr (p :: sofar).reverse
  upToHere type start ps

/-! ### Bodies and blocks -/

/-- The words that end the statements of a body which may handle exceptions. -/
def bodyClosers : List String := ["rescue", "else", "ensure", "end"]

/-- A node around statements, if there are any. -/
def wrapStatements (type : String) (run : Tree) : Option Tree :=
  match run.children with
  | [] => none
  | c :: cs => some (named type c.value.start run.value.stop (c :: cs))

/-- Reads what a `rescue` clause handles, up to its statements. -/
def handled (g : Grammar) : Reader (List Tree) := do
  blanks
  let start ← here
  let bytes := (← read).bytes
  let exceptions ← loop ([] : List Tree) fun sofar => do
    let c ← peek
    if c == '\n' || c == ';' || c == '#' || (← looking "=>") || (← atKeyword "then")
      || (← atEnd) then
      return .inr sofar.reverse
    let t ← if c == '*' then signed g "splat_argument" 1 else g (.operand 0 false)
    blanks
    if ← accept "," then layout
    return .inl (t :: sofar)
  let last := exceptions.getLast?.map (·.value.stop)
  let list := if exceptions.isEmpty then []
    else [inField "exceptions" (named "exceptions" start (last.getD start) exceptions)]
  blanks
  let mark ← here
  if startsWithAt bytes mark ['=', '>'] then
    pass 2
    blanks
    let v ← g (.operand 100 false)
    let v ← upToHere "exception_variable" mark [v]
    return list ++ [inField "variable" v]
  else return list

/-- Reads the statements of a clause, which a semicolon, a line end or the word
`then` sets off from its head. -/
def clause (g : Grammar) (closers : List String) : Reader Tree := do
  blanks
  let start ← here
  unless ← acceptKeyword "then" do
    let _ ← accept ";"
    layout
    let _ ← acceptKeyword "then"
  let run ← g (.statements closers)
  return named "then" start run.value.stop run.children

/-- Reads the clauses that handle exceptions, after the statements of a body: the
clauses, and where they end. -/
def handlers (g : Grammar) : Reader (List Tree) :=
  loop ([] : List Tree) fun sofar => do
    layout
    let start ← here
    if ← acceptKeyword "rescue" then
      let what ← handled g
      blanks
      let headStop ← here
      let body ← clause g bodyClosers
      let children :=
        what ++ (if body.children.isEmpty then [] else [inField "body" body])
      let stop := if body.children.isEmpty then headStop else body.value.stop
      return .inl (named "rescue" start stop children :: sofar)
    else if ← acceptKeyword "else" then
      blanks
      let _ ← accept ";"
      let run ← g (.statements bodyClosers)
      return .inl (named "else" start run.value.stop run.children :: sofar)
    else if ← acceptKeyword "ensure" then
      let run ← g (.statements bodyClosers)
      return .inl (named "ensure" start run.value.stop run.children :: sofar)
    else return .inr sofar.reverse

/-- Reads the statements of a body with its handlers, up to its `end`. -/
def body (g : Grammar) : Reader (List Tree × Nat) := do
  let run ← inside (g (.statements bodyClosers))
  let more ← inside (handlers g)
  let stop := (more.getLast?.map (·.value.stop)).getD run.value.stop
  return (run.children ++ more, stop)

/-- Reads a body as one node, if it has any statement. -/
def bodyStatement (g : Grammar) : Reader (Option Tree) := do
  let (children, stop) ← body g
  match children with
  | [] => return none
  | c :: cs => return some (inField "body" (named "body_statement" c.value.start stop (c :: cs)))

/-- Reads the parameters of a block, if it has any. -/
def blockParameters (g : Grammar) : Reader (List Tree) := do
  let s ← get
  layout
  let start ← here
  if ← accept "|" then
    let ps ← g (.parameters "|")
    let t ← upToHere "block_parameters" start ps.children
    return [inField "parameters" t]
  else
    set s
    return []

/-- Reads a block in braces. -/
def braceBlock (g : Grammar) : Reader Tree := do
  let start ← here
  pass 1
  let ps ← blockParameters g
  let run ← inside (g (.statements ["\x7d"]))
  layout
  expect "\x7d"
  let inner := (wrapStatements "block_body" run).map (inField "body")
  upToHere "block" start (ps ++ inner.toList)

/-- Reads a block between `do` and `end`. -/
def doBlock (g : Grammar) : Reader Tree := do
  let start ← here
  expectKeyword "do"
  let ps ← blockParameters g
  let inner ← bodyStatement g
  layout
  expectKeyword "end"
  upToHere "do_block" start (ps ++ inner.toList)

/-- Reads a function: an arrow, parameters and a body. -/
def lambda (g : Grammar) : Reader Tree := do
  let start ← here
  pass 2
  blanks
  let c ← peek
  let first ← here
  let ps ←
    if c == '(' then do
      pass 1
      let ps ← g (.parameters ")")
      let t ← upToHere "lambda_parameters" first ps.children
      pure [inField "parameters" t]
    else if isNameStart c && !(← atKeyword "do") || c == '*' || c == '&' then do
      let t ← withReader (fun ctx => { ctx with noDo := true })
        (openParameters g "lambda_parameters")
      pure [inField "parameters" t]
    else pure []
  blanks
  let inner ← if (← peek) == '\x7b' then braceBlock g else doBlock g
  upToHere "lambda" start (ps ++ [inField "body" inner])

/-! ### Calls -/

/-- Reads the path of a constant, as a class is named by. -/
def constantPath : Reader Tree := do
  let bytes := (← read).bytes
  let start ← here
  let first ← do
    if ← accept "::" then
      let pos ← here
      let name := named "constant" pos (nameEnd bytes pos) []
      goTo (nameEnd bytes pos)
      pure (named "scope_resolution" start (nameEnd bytes pos) [inField "name" name])
    else if isNameStart (← peek) then
      goTo (nameEnd bytes start)
      pure (named "constant" start (nameEnd bytes start) [])
    else failure
  loop first fun t => do
    if ← accept "::" then
      let pos ← here
      let stop := nameEnd bytes pos
      if stop ≤ pos then failure
      goTo stop
      return .inl (named "scope_resolution" start stop
        [inField "scope" t, inField "name" (named "constant" pos stop [])])
    else return .inr t

/-- Whether a node has a child in a field. -/
def hasField (t : Tree) (field : String) : Bool :=
  t.children.any fun c => c.value.field == some field

/-- Whether a node is a word that stands for a method if arguments or a block follow. -/
def isName (t : Tree) : Bool :=
  ["identifier", "constant", "super", "self", "instance_variable", "class_variable",
    "global_variable"].contains t.value.type

/-- Whether arguments may follow a node. -/
def takesArguments (t : Tree) : Bool :=
  isName t || (t.value.type == "call" && !hasField t "arguments" && !hasField t "block")

/-- Whether a node is an element, given by its index. -/
def isElement (t : Tree) : Bool := t.value.type == "element_reference"

/-- Whether a block may follow a node. -/
def takesBlock (t : Tree) : Bool :=
  isName t || ((t.value.type == "call" || isElement t) && !hasField t "block")

/-- A call or an element with one more part. -/
def addPart (t : Tree) (field : String) (part : Tree) : Tree :=
  let (type, parts) :=
    if isName t then ("call", [inField "method" t]) else (t.value.type, t.children)
  named type t.value.start part.value.stop (parts ++ [inField field part])

/-- The offset after the name that may follow a dot, with its mark. -/
def methodNameEnd (bytes : ByteArray) (i : Nat) : Option Nat :=
  if isNameStart (charAt bytes i) then some (markedNameEnd bytes i)
  else if charAt bytes i == '`' then some (i + 1)
  else (operatorNameAt bytes i).map fun s => i + s.length

/-- The type of the node of a name. -/
def nameType (bytes : ByteArray) (i : Nat) : String :=
  let c := charAt bytes i
  if c.isUpper then "constant"
  else if isNameStart c then "identifier"
  else "operator"

/-- Reads the method after a dot, whose receiver has been read. -/
def dotted (receiver : Tree) : Reader Tree := do
  let bytes := (← read).bytes
  layout
  let start ← here
  if (← peek) == '(' then
    return named "call" receiver.value.start start [inField "receiver" receiver]
  else match methodNameEnd bytes start with
    | none => failure
    | some stop =>
      goTo stop
      return named "call" receiver.value.start stop
        [inField "receiver" receiver, inField "method" (named (nameType bytes start) start stop [])]

/-- Passes over a dot, which may stand on a later line, and says whether it was
there. -/
def acceptDot : Reader Bool := do
  let s ← get
  layout
  if ← accept "&." then return true
  else if (← peek) == '.' && (← peekAt 1) != '.' then
    pass 1
    return true
  else
    set s
    return false

/-- Reads what follows a double colon: a constant, or a method. -/
def scopedName (receiver : Tree) (commands : Bool) : Reader Tree := do
  let bytes := (← read).bytes
  pass 2
  layout
  let start ← here
  if (← peek) == '(' then
    return named "call" receiver.value.start start [inField "receiver" receiver]
  else match methodNameEnd bytes start with
    | none => failure
    | some stop =>
      let name := named (nameType bytes start) start stop []
      goTo stop
      let next := scanWhile bytes isInlineSpace stop (bytes.size - stop)
      let isCall := !(charAt bytes start).isUpper || nameEnd bytes start < stop
        || charAt bytes stop == '(' || (commands && stop < next && startsArgument bytes next)
      if isCall then
        return named "call" receiver.value.start stop
          [inField "receiver" receiver, inField "method" name]
      else
        return named "scope_resolution" receiver.value.start stop
          [inField "scope" receiver, inField "name" name]

/-- Reads the index of an element. -/
def element (g : Grammar) (object : Tree) : Reader Tree := do
  pass 1
  let args ← arguments g "]"
  upToHere "element_reference" object.value.start (inField "object" object :: args)

/-- Reads everything that is applied to an expression after it: arguments,
blocks, methods, elements. -/
def suffixes (g : Grammar) (commands : Bool) (first : Tree) : Reader Tree :=
  loop first fun t => do
    let bytes := (← read).bytes
    let c ← peek
    if c == '(' && takesArguments t then
      let args ← bracketedArguments g
      return .inl (addPart t "arguments" args)
    else if c == '[' then return .inl (← element g t)
    else if c == ':' && (← peekAt 1) == ':' &&
        (methodNameEnd bytes ((← here) + 2) != none || (← peekAt 2) == '(') then
      return .inl (← scopedName t commands)
    else
      let s ← get
      let stop ← here
      blanks
      let pos ← here
      let follows := if stop < pos then startsArgument bytes pos else adjoins bytes pos
      if commands && takesArguments t && follows then
        let args ← openArguments g false
        return .inl (addPart t "arguments" args)
      else if takesBlock t && !(isElement t && (← read).noBrace) && (← peek) == '\x7b' then
        let b ← braceBlock g
        return .inl (addPart t "block" b)
      else if takesBlock t && !(← read).noDo && (← atKeyword "do") then
        let b ← doBlock g
        return .inl (addPart t "block" b)
      else
        set s
        if ← acceptDot then return .inl (← dotted t)
        else
          set s
          return .inr t

/-! ### Operators -/

/-- How tightly an operator binds, and whether it groups to the right. -/
structure Operator where
  text : String
  level : Nat
  rightToLeft : Bool := false

/-- The binary operators, a longer one before those it begins with. -/
def operators : List Operator := [
  ⟨"**", 80, true⟩, ⟨"<=>", 40, false⟩, ⟨"===", 40, false⟩, ⟨"...", 25, false⟩,
  ⟨"==", 40, false⟩, ⟨"!=", 40, false⟩, ⟨"=~", 40, false⟩, ⟨"!~", 40, false⟩,
  ⟨"&&", 35, false⟩, ⟨"||", 30, false⟩, ⟨"..", 25, false⟩, ⟨"<<", 60, false⟩, ⟨">>", 60, false⟩,
  ⟨"<=", 45, false⟩, ⟨">=", 45, false⟩, ⟨"*", 70, false⟩, ⟨"/", 70, false⟩, ⟨"%", 70, false⟩,
  ⟨"+", 65, false⟩, ⟨"-", 65, false⟩, ⟨"&", 55, false⟩, ⟨"|", 50, false⟩, ⟨"^", 50, false⟩,
  ⟨"<", 45, false⟩, ⟨">", 45, false⟩]

/-- The operators that may stand in front of an equals sign. -/
def assigning : List String :=
  ["**", "&&", "||", "<<", ">>", "*", "/", "%", "+", "-", "&", "|", "^"]

/-- The assignment that stands at an offset, as its length. -/
def assignmentAt (bytes : ByteArray) (i : Nat) : Option Nat :=
  if charAt bytes i == '=' then
    let d := charAt bytes (i + 1)
    if d != '=' && d != '~' && d != '>' then some 1 else none
  else
    (assigning.find? fun s => startsWithAt bytes i (s.toList ++ ['='])).map fun s => s.length + 1

/-- The binary operator that stands at an offset. -/
def operatorAt (bytes : ByteArray) (noBar : Bool) (i : Nat) : Option Operator :=
  if (assignmentAt bytes i).isSome || startsWithAt bytes i ['&', '.'] then none
  else match operators.find? fun o => startsWithAt bytes i o.text.toList with
    | some o => if noBar && o.text == "|" then none else some o
    | none => none

/-- Whether a node may be assigned to: a variable, an element, or a method of a
receiver, without arguments. -/
def isTarget (t : Tree) : Bool :=
  if t.value.type == "call" then hasField t "receiver" && takesArguments t
  else ["identifier", "constant", "instance_variable", "class_variable", "global_variable",
    "element_reference", "scope_resolution"].contains t.value.type

/-- Reads the values on the right of an assignment. -/
def assigned (g : Grammar) : Reader Tree := do
  let start ← here
  let listOk := (← read).listOk
  let one : Reader Tree := do
    if (← peek) == '*' then signed g "splat_argument" 1 else g (.operand 0 true)
  let first ← one
  if !listOk then return first
  let more ← loop ([] : List Tree) fun sofar => do
    let s ← get
    blanks
    if ← accept "," then
      layout
      let t ← one
      return .inl (t :: sofar)
    else
      set s
      return .inr sofar.reverse
  if more.isEmpty then return first
  else upToHere "right_assignment_list" start (first :: more)

/-- Reads an assignment to a target, if one follows. -/
def assignment (g : Grammar) (target : Tree) : Reader Tree := do
  let s ← get
  blanks
  match assignmentAt (← read).bytes (← here) with
  | some n =>
    if isTarget target then
      pass n
      layout
      let value ← assigned g
      upToHere (if n = 1 then "assignment" else "operator_assignment") target.value.start
        [inField "left" target, inField "right" value]
    else
      set s
      return target
  | none =>
    set s
    return target

/-- Whether an operand may begin at an offset. -/
def startsOperand (bytes : ByteArray) (i : Nat) : Bool :=
  let c := charAt bytes i
  startsArgument bytes i && c != '*' && c != '&' || c == '\x7b'

/-- Reads the operators that follow an operand and bind at least as tightly as
`level`, with what they are applied to. -/
def climb (g : Grammar) (level : Nat) (first : Tree) : Reader Tree :=
  loop first fun left => do
    let ctx ← read
    let s ← get
    blanks
    let pos ← here
    match operatorAt ctx.bytes ctx.noBar pos with
    | some o =>
      if o.level < level then
        set s
        return .inr left
      else
        pass o.text.length
        if o.level = 25 then
          let t ← get
          blanks
          if startsOperand ctx.bytes (← here) then
            let right ← g (.operand 26 false)
            return .inl (named "range" left.value.start right.value.stop
              [inField "begin" left, inField "end" right])
          else
            set t
            let stop := pos + o.text.length
            return .inl (named "range" left.value.start stop [inField "begin" left])
        else
          layout
          let right ← g (.operand (if o.rightToLeft then o.level else o.level + 1) false)
          return .inl (named "binary" left.value.start right.value.stop
            [inField "left" left, inField "right" right])
    | none =>
      if charAt ctx.bytes pos == '?' && level ≤ 20 then
        pass 1
        layout
        let yes ← g (.operand 15 false)
        layout
        expect ":"
        layout
        let no ← g (.operand 15 false)
        return .inl (named "conditional" left.value.start no.value.stop
          [inField "condition" left, inField "consequence" yes, inField "alternative" no])
      else
        set s
        return .inr left

end TapLint.Ruby.Reader
