/-
YAML documents as trees.

A node is a scalar, a sequence or a mapping, with a tag that tells what it means.
A reference stands for the node that its anchor was set on; inside that very node
it stands for an empty collection of the same kind.

* `Node.ofTokens` — the one document of a text, unless the text is empty.
-/
import TapLint.Yaml.Plain
import TapLint.Yaml.Token

namespace TapLint.Yaml

/-- A node of a document. -/
inductive Node where
  | scalar (tag : String) (text : String)
  | sequence (tag : String) (items : List Node)
  | mapping (tag : String) (pairs : List (Node × Node))
  deriving Inhabited

namespace Node

/-- The tag of a node. -/
def tag : Node → String
  | scalar t _ => t
  | sequence t _ => t
  | mapping t _ => t

/-- The scalar that stands where nothing is written. -/
def empty : Node := scalar Tag.null ""

end Node

/-- What is known while a document is read. -/
structure Reader where
  tokens : List Token
  anchors : List (String × Node) := []
  /-- What the handles of tags stand for. -/
  handles : List (String × String) := []

/-- Reads a part of a document. -/
abbrev Reading := StateT Reader (Except Fault)

namespace Reading

/-- The next token. -/
def peek : Reading (Option Token) := do
  pure (← get).tokens.head?

/-- Goes past a token. -/
def advance : Reading Unit := modify fun s => { s with tokens := s.tokens.tail }

/-- Whether the next token is a given one. -/
def sees (t : Token) : Reading Bool := do
  pure ((← peek) == some t)

/-- Whether the next token is one of some. -/
def seesAny (ts : List Token) : Reading Bool := do
  pure ((← peek).any ts.contains)

/-- Gives up. -/
def fail {α : Type} : Reading α := throw .malformed

/-- Goes past a token that has to be there. -/
def expect (t : Token) : Reading Unit := do
  if ← sees t then advance else fail

/-- The full tag that a handle and a suffix stand for. -/
def fullTag (handle : Option String) (suffix : String) : Reading String :=
  match handle with
  | none => pure suffix
  | some h => do
    match (← get).handles.find? (·.1 == h) with
    | some (_, stem) => pure (stem ++ suffix)
    | none => fail

/-- The anchor of a node. -/
def anchor? : Reading (Option String) := do
  match ← peek with
  | some (.anchor name) =>
    advance
    pure (some name)
  | _ => pure none

/-- The tag of a node. -/
def tag? : Reading (Option String) := do
  match ← peek with
  | some (.tag handle suffix) =>
    advance
    some <$> fullTag handle suffix
  | _ => pure none

/-- The anchor and the tag of a node, in either order. -/
def properties : Reading (Option String × Option String) := do
  match ← anchor? with
  | some name => pure (some name, ← tag?)
  | none =>
    let tag ← tag?
    if tag.isSome then pure (← anchor?, tag) else pure (none, none)

/-- Sets an anchor on a node; an anchor can be set only once. -/
def setAnchor (name : Option String) (n : Node) : Reading Unit := do
  match name with
  | none => pure ()
  | some a =>
    if (← get).anchors.any (·.1 == a) then fail
    else modify fun s => { s with anchors := (a, n) :: s.anchors }

/-- Sets the anchor of a node that is complete now. -/
def resetAnchor (name : Option String) (n : Node) : Reading Unit :=
  match name with
  | none => pure ()
  | some a => modify fun s =>
    { s with anchors := s.anchors.map fun p => if p.1 == a then (a, n) else p }

/-- The tag of a collection: the default one unless another is written. -/
def collectionTag (default : String) : Option String → String
  | none => default
  | some t => if t == "!" then default else t

/-- A scalar with the tag that is written or implied. -/
def scalarOf (tag : Option String) (plain : Bool) (text : String) : Node :=
  match tag with
  | none => .scalar (if plain then Tag.ofPlain text else Tag.string) text
  | some t => .scalar (if t == "!" then Tag.ofPlain text else t) text

/-- Which nodes may stand at a place. -/
inductive Place where
  /-- In a flow collection. -/
  | flow
  /-- In a block. -/
  | block
  /-- In a block, where the dashes of a sequence need no indentation of their own. -/
  | blockLoose
  deriving DecidableEq

mutual

/-- A node. -/
def node (place : Place) : Nat → Reading Node
  | 0 => fail
  | bound + 1 => do
    match ← peek with
    | some (.reference name) =>
      advance
      match (← get).anchors.find? (·.1 == name) with
      | some (_, n) => pure n
      | none => fail
    | _ =>
      let (anchor, tag) ← properties
      let sequence (items : Reading (List Node)) : Reading Node := do
        let t := collectionTag Tag.sequence tag
        setAnchor anchor (.sequence t [])
        let n := Node.sequence t (← items)
        resetAnchor anchor n
        pure n
      let mapping (pairs : Reading (List (Node × Node))) : Reading Node := do
        let t := collectionTag Tag.mapping tag
        setAnchor anchor (.mapping t [])
        let n := Node.mapping t (← pairs)
        resetAnchor anchor n
        pure n
      match ← peek, place with
      | some (.scalar plain text), _ =>
        advance
        let n := scalarOf tag plain text
        setAnchor anchor n
        pure n
      | some .flowSequenceStart, _ =>
        advance
        sequence (flowItems true bound)
      | some .flowMappingStart, _ =>
        advance
        mapping (flowPairs true bound)
      | some .blockSequenceStart, .block | some .blockSequenceStart, .blockLoose =>
        advance
        sequence (blockItems bound)
      | some .blockMappingStart, .block | some .blockMappingStart, .blockLoose =>
        advance
        mapping (blockPairs bound)
      | some .blockEntry, .blockLoose => sequence (looseItems bound)
      | _, _ =>
        if anchor.isSome || tag.isSome then
          let n := scalarOf tag true ""
          setAnchor anchor n
          pure n
        else fail

/-- A node, or nothing before one of some tokens. -/
def nodeBefore (place : Place) (ends : List Token) : Nat → Reading Node
  | 0 => fail
  | bound + 1 => do
    if ← seesAny ends then pure .empty else node place bound

/-- The entries of a block sequence. -/
def blockItems : Nat → Reading (List Node)
  | 0 => fail
  | bound + 1 => do
    if ← sees .blockEntry then
      advance
      let n ← nodeBefore .block [.blockEntry, .blockEnd] bound
      let rest ← blockItems bound
      pure (n :: rest)
    else
      expect .blockEnd
      pure []

/-- The entries of a sequence without indentation of its own. -/
def looseItems : Nat → Reading (List Node)
  | 0 => fail
  | bound + 1 => do
    if ← sees .blockEntry then
      advance
      let n ← nodeBefore .block [.blockEntry, .key, .value, .blockEnd] bound
      let rest ← looseItems bound
      pure (n :: rest)
    else pure []

/-- The value of a pair, which may be left out. -/
def pairValue (place : Place) (ends : List Token) : Nat → Reading Node
  | 0 => fail
  | bound + 1 => do
    if ← sees .value then
      advance
      nodeBefore place ends bound
    else pure .empty

/-- The pairs of a block mapping. -/
def blockPairs : Nat → Reading (List (Node × Node))
  | 0 => fail
  | bound + 1 => do
    if ← sees .key then
      advance
      let k ← nodeBefore .blockLoose [.key, .value, .blockEnd] bound
      let v ← pairValue .blockLoose [.key, .value, .blockEnd] bound
      let rest ← blockPairs bound
      pure ((k, v) :: rest)
    else
      expect .blockEnd
      pure []

/-- The entries of a flow sequence.  A pair among them is a mapping of its own. -/
def flowItems (first : Bool) : Nat → Reading (List Node)
  | 0 => fail
  | bound + 1 => do
    if ← sees .flowSequenceEnd then
      advance
      pure []
    else
      unless first do expect .flowEntry
      if ← sees .key then
        advance
        let k ← nodeBefore .flow [.value, .flowEntry, .flowSequenceEnd] bound
        let v ← pairValue .flow [.flowEntry, .flowSequenceEnd] bound
        let rest ← flowItems false bound
        pure (.mapping Tag.mapping [(k, v)] :: rest)
      else if ← sees .flowSequenceEnd then
        advance
        pure []
      else
        let n ← node .flow bound
        let rest ← flowItems false bound
        pure (n :: rest)

/-- The pairs of a flow mapping.  A key without a mark has no value. -/
def flowPairs (first : Bool) : Nat → Reading (List (Node × Node))
  | 0 => fail
  | bound + 1 => do
    if ← sees .flowMappingEnd then
      advance
      pure []
    else
      unless first do expect .flowEntry
      if ← sees .key then
        advance
        let k ← nodeBefore .flow [.value, .flowEntry, .flowMappingEnd] bound
        let v ← pairValue .flow [.flowEntry, .flowMappingEnd] bound
        let rest ← flowPairs false bound
        pure ((k, v) :: rest)
      else if ← sees .flowMappingEnd then
        advance
        pure []
      else
        let k ← node .flow bound
        let rest ← flowPairs false bound
        pure ((k, .empty) :: rest)

end

/-! ### Documents -/

/-- The handles that need not be declared. -/
def defaultHandles : List (String × String) := [("!", "!"), ("!!", Tag.stem)]

/-- Reads the directives before a document; only one may state a version, and no
handle may be declared twice. -/
def directives (versioned : Bool) : Nat → Reading Unit
  | 0 => fail
  | bound + 1 => do
    match ← peek with
    | some (.directive d) =>
      advance
      match d with
      | .version major =>
        if versioned || major != 1 then fail
        directives true bound
      | .tag handle stem =>
        if (← get).handles.any (·.1 == handle) then fail
        modify fun s => { s with handles := s.handles ++ [(handle, stem)] }
        directives versioned bound
      | .other => directives versioned bound
    | _ => modify fun s => { s with handles := s.handles ++ defaultHandles }

/-- Goes past marks that end a document. -/
def documentEnds : Nat → Reading Unit
  | 0 => pure ()
  | bound + 1 => do
    if ← sees .documentEnd then
      advance
      documentEnds bound

/-- What a document holds after its mark. -/
def content (bound : Nat) : Reading Node := do
  match ← peek with
  | none | some (.directive _) | some .documentStart | some .documentEnd => pure .empty
  | _ => node .block bound

/-- The only document, if there is one. -/
def document (bound : Nat) : Reading (Option Node) := do
  match ← peek with
  | none => pure none
  | some t =>
    let explicit := match t with
      | .directive _ | .documentStart => true
      | _ => false
    let n ←
      if explicit then do
        directives false bound
        expect .documentStart
        content bound
      else do
        modify fun s => { s with handles := defaultHandles }
        node .block bound
    documentEnds bound
    if (← peek).isSome then fail
    pure (some n)

end Reading

/-- The one document of a text, or nothing if the text is empty. -/
def Node.ofTokens (tokens : List Token) : Except Fault (Option Node) :=
  (Reading.document (4 * tokens.length + 8)).run' { tokens }

end TapLint.Yaml
