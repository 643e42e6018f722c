/-
Formulae.

A formula file defines a class that inherits from a formula base class; the
statements of that class are what is audited.  Other Ruby files are read all the
same and have nothing to audit.

* `Formula.declaration?` — the class that defines the formula;
* `Formula.ofSource` — a formula from the text of a file;
* `Formula.ofFile` — a formula from a file.
-/
import TapLint.Formula.ClassName
import TapLint.Log
import TapLint.Syntax.Nesting
import TapLint.Syntax.Search

namespace TapLint

/-- One Ruby file, seen as the definition of a formula. -/
structure Formula where
  name : String
  /-- The statements of the formula's class, if it has any. -/
  body : Option Node
  /-- The class that defines the formula. -/
  declaration : Option Node := none
  path : Option String := none
  /-- The whole file. -/
  root : Option Node := none

namespace Formula

/-- The classes that a formula inherits from. -/
def baseClasses : List String := ["Formula", "AmazonWebServicesFormula"]

/-- The name of a formula that has neither a file nor a class. -/
def unknownName : String := "<unknown>"

/-- A text without the double colon that it may begin with. -/
def dropScope (s : String) : String :=
  match s.toList with
  | ':' :: ':' :: cs => String.ofList cs
  | _ => s

/-- Whether a node is a class that inherits from a formula base class. -/
def isDeclaration (n : Node) : Bool :=
  n.kind == .classDecl && n.superclass.any fun (s : Node) => baseClasses.contains (dropScope s.text)

/-- The first class that inherits from a formula base class. -/
def declaration? (root : Option Node) : Option Node :=
  (Node.walk? root).find? isDeclaration

/-- Whether a file defines a formula at all. -/
def isFormula (f : Formula) : Bool := f.declaration.isSome

/-- The name of a formula that is given none: the stem of its file, or else what
its class is called. -/
def defaultName (path : Option String) (declaration : Option Node) : String :=
  match path with
  | some p => (Path.ofString p).stem
  | none =>
    match declaration.bind Node.name with
    | some name => if name.isEmpty then unknownName else nameOfClass name
    | none => unknownName

/-- The formula that a syntax tree defines. -/
def ofRoot (root : Node) (path name : Option String) : Logged Formula := do
  let declaration := declaration? (some root)
  if declaration.isNone then Logged.report (.noFormulaClass path)
  pure
    { name := name.getD (defaultName path declaration)
      body := declaration.bind Node.body
      declaration := declaration
      path := path
      root := some root }

/-- Reads a formula from a text. -/
def ofSource (reader : TreeReader) (text : String) (path name : Option String) :
    Logged (Except SyntaxError Formula) :=
  match Node.parse reader path text with
  | .error e => pure (.error e)
  | .ok root => .ok <$> ofRoot root path name

/-- Why a formula file gives no formula. -/
inductive LoadError where
  | unreadable (why : ReadError)
  | malformed (why : SyntaxError)
  deriving Repr, DecidableEq

namespace LoadError

/-- The wording of a load error. -/
def message : LoadError → String
  | unreadable why => why.message
  | malformed why => why.message

end LoadError

/-- The text of a formula file of at most `limit` times 1024 bytes. -/
def readText (files : Files) (limit : Int) (path : Path) : Except ReadError String :=
  match files.bytes? path with
  | none => .error (.missing path.shown)
  | some bytes =>
    if limit * 1024 < bytes.length then .error (.tooLarge bytes.length path.shown)
    else match Text.ofFileBytes bytes with
      | .error why => .error (.undecodable path.shown why)
      | .ok text => .ok text

/-- How many calls are nested in the conversion of what a file holds.  Nothing is
converted of a file that cannot be read or is not well-formed. -/
def callDepth (reader : TreeReader) (files : Files) (limit : Int) (path : Path) : Nat :=
  match readText files limit path with
  | .error _ => 0
  | .ok text =>
    let tree := reader text
    if tree.hasError then 0 else Node.callDepth tree

/-- Reads a formula from a file.  The formula is called like the file. -/
def ofFile (reader : TreeReader) (files : Files) (limit : Int) (path : Path) :
    Logged (Except LoadError Formula) :=
  match readText files limit path with
  | .error why => pure (.error (.unreadable why))
  | .ok text => do
    match ← ofSource reader text (some path.shown) (some path.stem) with
    | .error why => pure (.error (.malformed why))
    | .ok formula => pure (.ok formula)

end Formula

end TapLint
