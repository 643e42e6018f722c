/-
Policies: which cops are asked, and how serious their offenses are.

* `Policy.isEnabled`, `Policy.severityFor` — what a policy says of a cop;
* `Policy.select` — the cops that are to be asked.
-/
import TapLint.Cop.Catalogue

namespace TapLint

/-- What a policy says of one cop. -/
structure Setting where
  enabled : Bool := true
  severity : Severity := .convention
  deriving Repr, DecidableEq

/-- A policy.  A cop that is not mentioned has the default setting. -/
structure Policy where
  name : String := "default"
  settings : List (String × Setting) := []
  deriving Repr, DecidableEq

/-- Names that no cop has. -/
structure UnknownCops where
  names : List String
  deriving Repr, DecidableEq

/-- The wording of a complaint about unknown cops. -/
def UnknownCops.message (e : UnknownCops) : String :=
  "Unknown cop(s): " ++ String.intercalate ", " e.names

namespace Policy

/-- What a policy says of a cop. -/
def setting (p : Policy) (cop : String) : Setting :=
  ((p.settings.find? (·.1 == cop)).map (·.2)).getD {}

/-- Whether a policy enables a cop. -/
def isEnabled (p : Policy) (cop : String) : Bool := (p.setting cop).enabled

/-- The severity of the offenses that a cop reports. -/
def severityFor (p : Policy) (cop : String) : Severity := (p.setting cop).severity

/-- A rule as a cop under a policy. -/
def cop (p : Policy) (rule : Rule) : Cop := { rule, severity := p.severityFor rule.name }

/-- The qualified names among some that no rule has, sorted and without
repetition. -/
def unknown (names : List String) : List String :=
  (((names.map Rule.qualify).filter (!Rule.isKnown ·)).mergeSort (· ≤ ·)).eraseDups

/-- The rules that a policy enables; the others are reported. -/
def enabledRules (p : Policy) : List Rule → Logged (List Rule)
  | [] => pure []
  | rule :: rules => do
    if p.isEnabled rule.name then
      let rest ← p.enabledRules rules
      pure (rule :: rest)
    else
      Logged.report (.copDisabled rule.name p.name)
      p.enabledRules rules

/-- The cops to be asked: those with the given names, whether or not they are
enabled, or all that are enabled.  They come in the order of the catalogue. -/
def select (p : Policy) : Option (List String) → Logged (Except UnknownCops (List Cop))
  | none => do
    let rules ← p.enabledRules Rule.all
    pure (.ok (rules.map p.cop))
  | some names =>
    let chosen := names.map Rule.qualify
    match unknown names with
    | [] => pure (.ok ((Rule.all.filter fun rule => chosen.contains rule.name).map p.cop))
    | strangers => pure (.error ⟨strangers⟩)

end Policy

end TapLint
