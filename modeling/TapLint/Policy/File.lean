/-
Policies in files.

A policy file holds YAML.  It only needs to say what differs from the built-in
policy: it is laid over it.  A file that gives itself no name is called like the
file.

* `Policy.ofText` — the policy that a text describes;
* `Policy.ofFile` — the policy in a file.
-/
import TapLint.Files.Text
import TapLint.Host
import TapLint.Policy.OfValue
import TapLint.Yaml.Reader

namespace TapLint

/-- Why a file gives no policy. -/
inductive PolicyFileError where
  | missing (path : String)
  /-- The host does not let the file be looked at. -/
  | refused (why : String)
  | directory (path : String)
  | undecodable (why : Utf8.Error)
  /-- The file does not hold YAML. -/
  | malformed (path complaint : String)
  /-- A scalar in the file does not exist as a value. -/
  | unreadable (why : ScalarError)
  /-- The file holds something else than a map. -/
  | notMap (path : String)
  /-- The map describes no policy. -/
  | invalid (why : PolicyError)
  deriving Repr, DecidableEq

namespace PolicyFileError

/-- The wording of an error. -/
def message : PolicyFileError → String
  | missing path => "Policy file not found: " ++ path
  | refused why => why
  | directory path => "[Errno 21] Is a directory: " ++ Text.quoted path
  | undecodable why => why.message
  | malformed path complaint => "Invalid YAML in policy file " ++ path ++ ": " ++ complaint
  | unreadable why => why.message
  | notMap path => "Policy file " ++ path ++ " must contain a mapping"
  | invalid why => why.message

end PolicyFileError

namespace Policy

/-- The fields of a policy file laid over those of the built-in policy. -/
def fieldsOver (path : Path) (fields : List (Scalar × Value)) : List (Scalar × Value) :=
  let name := (Value.lookup (.string "policy_name") fields).getD (.string path.stem)
  Value.put (.string "policy_name") name (Value.mergeFields defaults fields)

/-- The policy that a value from a file describes.  Nothing, or anything else that
counts as false, is an empty map. -/
def ofFileValue (levels : Nat) (path : Path) (v : Value) :
    Logged (Except PolicyFileError Policy) :=
  match v.orEmpty with
  | .map fields => do
    let merged := fieldsOver path fields
    match ((Value.lookup (.string "policy_name") merged).getD .null).shown levels with
    | .ok name => Logged.report (.policyLoaded name path.shown)
    | .error _ => pure ()
    pure ((ofFields levels merged).mapError .invalid)
  | _ => pure (.error (.notMap path.shown))

/-- The policy that the text of a file describes. -/
def ofText (yaml : YamlReader) (levels : Nat) (path : Path) (text : String) :
    Logged (Except PolicyFileError Policy) :=
  match yaml text with
  | .error (.malformed complaint) => pure (.error (.malformed path.shown complaint))
  | .error (.unreadable why) => pure (.error (.unreadable why))
  | .ok v => ofFileValue levels path v

/-- The policy in a file. -/
def ofFile (yaml : YamlReader) (host : Host) (files : Files) (path : Path) :
    Logged (Except PolicyFileError Policy) :=
  match host.refusal? path with
  | some why => pure (.error (.refused why))
  | none =>
    match files.entry? path with
    | none => pure (.error (.missing path.shown))
    | some (.directory _) => pure (.error (.directory path.shown))
    | some (.file bytes) =>
      match Text.streamed bytes with
      | (_, some why) => pure (.error (.undecodable why))
      | (text, none) => ofText yaml host.levels path text

end Policy

end TapLint
