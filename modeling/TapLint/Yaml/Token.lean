/-
The tokens of YAML 1.1.

A token is a bracket, a mark or a scalar.  The indentation of a block shows as a
token where the block starts and another where it ends, so that all that follows
can do without columns.  The end of the text is the end of the list of tokens.
-/

namespace TapLint.Yaml

/-- Why a text cannot be read. -/
inductive Fault where
  /-- The text is not YAML, has no meaning, or has more than one document. -/
  | malformed
  /-- An escape for a character that does not exist. -/
  | characterCode
  deriving Repr, DecidableEq, Inhabited

/-- A line that begins with a percent sign. -/
inductive Directive where
  | version (major : Nat)
  | tag (handle stem : String)
  | other
  deriving Repr, DecidableEq

/-- A token. -/
inductive Token where
  | directive (d : Directive)
  | documentStart
  | documentEnd
  | blockSequenceStart
  | blockMappingStart
  | blockEnd
  | flowSequenceStart
  | flowSequenceEnd
  | flowMappingStart
  | flowMappingEnd
  | blockEntry
  | flowEntry
  | key
  | value
  | reference (name : String)
  | anchor (name : String)
  /-- A tag, with the handle that it begins with, if it is not written in full. -/
  | tag (handle : Option String) (suffix : String)
  | scalar (plain : Bool) (text : String)
  deriving Repr, DecidableEq

end TapLint.Yaml
