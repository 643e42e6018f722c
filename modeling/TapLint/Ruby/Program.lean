/-
Whole Ruby files.

`Tree.ofText` gives the concrete tree of any text.  What the scanner set aside
is put back at the end: a comment or the body of a heredoc belongs to the
innermost construct around it.  A text that is not well formed becomes a tree
with an error.
-/
import TapLint.Ruby.Statement

namespace TapLint.Ruby

/-! ### What was set aside -/

/-- Whether a tree covers the whole stretch of another. -/
def Tree.covers (t e : Tree) : Bool :=
  t.value.start ≤ e.value.start && e.value.stop ≤ t.value.stop

mutual

/-- Puts a tree into the innermost node that covers it, in source order. -/
def Tree.place (e : Tree) : Tree → Tree
  | .node l cs => .node l (Tree.placeAmong e cs)

/-- Puts a tree into one of several neighbours, or among them. -/
def Tree.placeAmong (e : Tree) : List Tree → List Tree
  | [] => [e]
  | c :: cs =>
    if Tree.covers c e then Tree.place e c :: cs
    else if e.value.start < c.value.start then e :: c :: cs
    else c :: Tree.placeAmong e cs

end

namespace Reader

/-- Reads the text of a heredoc up to an offset: its texts and interpolations. -/
def heredocText (g : Grammar) (stop : Nat) : Reader (List Tree) := do
  let start ← here
  loop ((start, []) : Nat × List Tree) fun (start, sofar) => do
    let bytes := (← read).bytes
    let pos ← here
    if stop ≤ pos then return .inr (textNode start stop ++ sofar).reverse
    else if charAt bytes pos == '\\' then
      pass 2
      return .inl (start, sofar)
    else if interpolationAt bytes pos then
      let code ← interpolation g
      return .inl ((← here), code :: textNode start pos ++ sofar)
    else
      pass 1
      return .inl (start, sofar)

/-- The node of what was set aside, and what its own code set aside in turn. -/
def extraNode (g : Grammar) (ctx : Context) : Extra → Option (Tree × List Extra)
  | .comment start stop => some (named Tree.commentType start stop [], [])
  | .heredocBody start textStop stop raw =>
    let last := named "heredoc_end" textStop stop []
    if raw then
      some (named "heredoc_body" start stop (textNode start textStop ++ [last]), [])
    else
      match ((heredocText g textStop).run ctx).run { pos := start } with
      | some (parts, s) => some (named "heredoc_body" start stop (parts ++ [last]), s.extras)
      | none => none

/-- The nodes of everything that was set aside; `bound` limits how many there may
be. -/
def extraNodes (g : Grammar) (ctx : Context) (sofar : List Tree) :
    Nat → List Extra → Option (List Tree)
  | _, [] => some sofar
  | 0, _ :: _ => none
  | bound + 1, e :: es =>
    match extraNode g ctx e with
    | some (t, more) => extraNodes g ctx (t :: sofar) bound (more ++ es)
    | none => none

/-- Reads a whole file: its statements, and what follows the mark that ends it. -/
def program (g : Grammar) : Reader Tree := do
  let bytes := (← read).bytes
  let start ← here
  if markerAt bytes start "=begin" then commentBlock
  let run ← g (.statements [])
  layout
  let pos ← here
  let size := bytes.size
  if ← atEnd then return named "program" start size run.children
  else if markerAt bytes pos "__END__" then
    return named "program" start size (run.children ++ [named "uninterpreted" (pos + 7) size []])
  else failure

end Reader

/-- The bytes that may open a text without being part of it. -/
def byteOrderMark : List UInt8 := [0xEF, 0xBB, 0xBF]

/-- The concrete tree of some bytes, if they are well formed. -/
def Tree.ofBytes? (bytes : ByteArray) : Option Tree :=
  let first := if (bytes.extract 0 3).toList == byteOrderMark then 3 else 0
  let ctx : Context := { bytes := bytes }
  let g := Reader.nested (8 * bytes.size + 64)
  match ((Reader.program g).run ctx).run { pos := Reader.afterSpace bytes first } with
  | none => none
  | some (t, s) =>
    match Reader.extraNodes g ctx [] (bytes.size + 1) s.extras with
    | none => none
    | some extras => some (extras.foldl (fun t e => Tree.place e t) t)

/-- The concrete tree of a text. -/
def Tree.ofText (text : String) : Tree :=
  let bytes := text.toUTF8
  match Tree.ofBytes? bytes with
  | some t => t
  | none => Reader.named "program" 0 bytes.size [Reader.named Tree.errorType 0 bytes.size []]

end TapLint.Ruby
