/-
Policies as values.

A policy is written as a map with the name of the policy and a map of cops, each
with a map of settings.  What is left out, or counts as false, has its default.

* `Policy.ofFields` — the policy that a map describes, where values are turned into
  text as deep as the host allows;
* `Policy.defaults` — the built-in policy as a map;
* `Policy.builtIn` — the built-in policy.
-/
import TapLint.Data.Value
import TapLint.Policy.Basic
import TapLint.Text.Case

namespace TapLint

/-- Why a map describes no policy. -/
inductive PolicyError where
  | unknownCop (name : String)
  | invalidSeverity (value cop : String)
  /-- The cops are not a map but a value of some other type. -/
  | copsNotMap (type : String)
  /-- The settings of a cop are not a map but a value of some other type. -/
  | settingsNotMap (type : String)
  /-- The name of the policy, a key or a severity cannot be turned into text. -/
  | unshowable (why : ShowError)
  deriving Repr, DecidableEq

namespace PolicyError

/-- The wording of an error. -/
def message : PolicyError → String
  | unknownCop name => "Unknown cop in policy: " ++ name
  | invalidSeverity value cop => "Invalid severity " ++ Text.quoted value ++ " for " ++ cop
  | copsNotMap type => "'" ++ type ++ "' object has no attribute 'items'"
  | settingsNotMap type => "'" ++ type ++ "' object has no attribute 'get'"
  | unshowable why => why.message

end PolicyError

namespace Policy

/-- A value as text, or the text that stands in for it if there is none. -/
def shownOr (default : String) (levels : Nat) (v : Option Value) : Except PolicyError String :=
  match v with
  | none => .ok default
  | some v => (v.shown levels).mapError .unshowable

/-- The setting of a cop that some fields describe. -/
def settingOf (levels : Nat) (cop : String) (fields : List (Scalar × Value)) :
    Except PolicyError Setting := do
  let given ← shownOr Severity.convention.name levels (Value.lookup (.string "severity") fields)
  let severity := Text.toLower given
  match Severity.ofName? severity with
  | none => .error (.invalidSeverity severity cop)
  | some s =>
    .ok { enabled := ((Value.lookup (.string "enabled") fields).map Value.isTruthy).getD true
          severity := s }

/-- The cop that a key of the map of cops names, and its setting. -/
def entryOf (levels : Nat) (key : Scalar) (v : Value) : Except PolicyError (String × Setting) :=
  match key with
  | .string cop =>
    if Rule.isKnown cop then
      match v.orEmpty with
      | .map fields => (settingOf levels cop fields).map (cop, ·)
      | other => .error (.settingsNotMap other.typeName)
    else .error (.unknownCop cop)
  | other =>
    match other.shown with
    | .ok name => .error (.unknownCop name)
    | .error why => .error (.unshowable why)

/-- The policy that the fields of a map describe. -/
def ofFields (levels : Nat) (fields : List (Scalar × Value)) : Except PolicyError Policy :=
  match ((Value.lookup (.string "cops") fields).getD .null).orEmpty with
  | .map cops => do
    let settings ← cops.mapM fun c => entryOf levels c.1 c.2
    let name ← shownOr "default" levels (Value.lookup (.string "policy_name") fields)
    pure { name, settings }
  | other => .error (.copsNotMap other.typeName)

/-- The settings of a cop in the built-in policy. -/
def defaultSettings : Value :=
  .map [(.string "enabled", .scalar (.bool true)), (.string "severity", .string "convention")]

/-- The built-in policy as a map. -/
def defaults : List (Scalar × Value) :=
  [(.string "policy_name", .string "default"),
    (.string "cops", .map [(.string "FormulaAudit/ProvidedByMacos", defaultSettings),
      (.string "FormulaAudit/UsesFromMacos", defaultSettings)])]

/-- The built-in policy: every cop is enabled, for offenses against a convention. -/
def builtIn : Policy :=
  { name := "default"
    settings := [("FormulaAudit/ProvidedByMacos", {}), ("FormulaAudit/UsesFromMacos", {})] }

end Policy

end TapLint
