/-
What a run has to say about its own course.

Every operation that reports on its progress gives, beside its result, the
events that it met, in order.  An event has a level, the name of the component
that met it, and a message; how much of it is shown is for the caller to say.
-/
import TapLint.Files.Text
import TapLint.Formula.Argument
import TapLint.Syntax.Parse

namespace TapLint

/-- The levels of events, in increasing order of importance. -/
inductive Level where
  | debug
  | info
  | warning
  | error
  deriving Repr, DecidableEq

namespace Level

/-- The name of a level. -/
def name : Level → String
  | debug => "DEBUG"
  | info => "INFO"
  | warning => "WARNING"
  | error => "ERROR"

/-- The number that stands for a level where a threshold is compared. -/
def number : Level → Nat
  | debug => 10
  | info => 20
  | warning => 30
  | error => 40

end Level

/-- Something worth reporting. -/
inductive Event where
  /-- A `depends_on` whose argument names no dependency. -/
  | dependencyIgnored (location : Location) (why : ShapeError)
  /-- A `uses_from_macos` whose argument names no dependency. -/
  | callSkipped (location : Location) (why : ShapeError)
  /-- A source without a formula class. -/
  | noFormulaClass (path : Option String)
  /-- A file without a formula class, about to be audited. -/
  | nothingToAudit (path : String)
  /-- A file that has been audited, with the number of offenses. -/
  | audited (path : String) (count : Nat)
  /-- A file that is not well-formed Ruby. -/
  | parseFailed (path : String) (why : SyntaxError)
  /-- A file that could not be read. -/
  | loadFailed (path : String) (why : ReadError)
  /-- A cop that the policy turns off. -/
  | copDisabled (cop policy : String)
  /-- A policy that has been read from a file. -/
  | policyLoaded (policy path : String)
  /-- The policy that a command is going to use. -/
  | policyChosen (policy : String)
  /-- An environment variable that should hold an integer and does not. -/
  | notAnInteger (variableName value : String)
  deriving Repr, DecidableEq

namespace Event

/-- How important an event is. -/
def level : Event → Level
  | dependencyIgnored .. | callSkipped .. | noFormulaClass .. | nothingToAudit ..
  | copDisabled .. | policyLoaded .. => .debug
  | audited .. | policyChosen .. => .info
  | loadFailed .. | notAnInteger .. => .warning
  | parseFailed .. => .error

/-- The component that met an event. -/
def component : Event → String
  | dependencyIgnored .. => "formula_cops.core.dependencies"
  | callSkipped .. => "formula_cops.cops.uses_from_macos"
  | noFormulaClass .. => "formula_cops.core.loader"
  | nothingToAudit .. | audited .. | parseFailed .. | loadFailed .. => "formula_cops.core.auditor"
  | copDisabled .. => "formula_cops.core.cop_factory"
  | policyLoaded .. => "formula_cops.core.audit_policy"
  | policyChosen .. => "formula_cops.cli"
  | notAnInteger .. => "formula_cops.config.config"

/-- The wording of an event. -/
def message : Event → String
  | dependencyIgnored l why => "Ignoring depends_on at " ++ l.shown ++ ": " ++ why.message
  | callSkipped l why => "Skipping uses_from_macos at " ++ l.shown ++ ": " ++ why.message
  | noFormulaClass path => "No formula class found in " ++ Location.sourceName path
  | nothingToAudit path => path ++ " does not define a formula class; nothing to audit"
  | audited path count => "Audited " ++ path ++ ": " ++ toString count ++ " diagnostic(s)"
  | parseFailed path why => "Failed to parse " ++ path ++ ": " ++ why.message
  | loadFailed path why => "Failed to load " ++ path ++ ": " ++ why.message
  | copDisabled cop policy => "Cop " ++ cop ++ " disabled by policy " ++ policy
  | policyLoaded policy path => "Loaded audit policy " ++ policy ++ " from " ++ path
  | policyChosen policy => "Using audit policy " ++ policy
  | notAnInteger name value =>
    "Ignoring " ++ name ++ "=" ++ Text.quoted value ++ ": not an integer"

/-- An event as a line of a log. -/
def line (e : Event) : String :=
  e.level.name ++ " " ++ e.component ++ ": " ++ e.message

end Event

/-- A result together with the events on the way to it. -/
structure Logged (α : Type) where
  value : α
  events : List Event := []

namespace Logged

/-- One event and nothing else. -/
def report (e : Event) : Logged Unit := ⟨(), [e]⟩

instance : Monad Logged where
  pure a := ⟨a, []⟩
  bind x f :=
    let y := f x.value
    ⟨y.value, x.events ++ y.events⟩

@[simp] theorem value_pure {α : Type} (a : α) : (pure a : Logged α).value = a := rfl

@[simp] theorem value_bind {α β : Type} (x : Logged α) (f : α → Logged β) :
    (x >>= f).value = (f x.value).value := rfl

@[simp] theorem value_map {α β : Type} (f : α → β) (x : Logged α) :
    (f <$> x).value = f x.value := rfl

/-- Does the same for every member of a list, in order. -/
def forEach {α β : Type} (f : α → Logged β) : List α → Logged (List β)
  | [] => pure []
  | a :: as => do
    let b ← f a
    let bs ← forEach f as
    pure (b :: bs)

@[simp] theorem value_forEach {α β : Type} (f : α → Logged β) (as : List α) :
    (forEach f as).value = as.map fun a => (f a).value := by
  induction as with
  | nil => rfl
  | cons a as ih => simp [forEach, ih]

end Logged

end TapLint
