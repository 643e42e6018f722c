/-
How serious an offense is.
-/

namespace TapLint

/-- The severities, in increasing order of importance. -/
inductive Severity where
  | info
  | refactor
  | convention
  | warning
  | error
  | fatal
  deriving Repr, DecidableEq, Inhabited

namespace Severity

/-- The severities in order. -/
def all : List Severity := [info, refactor, convention, warning, error, fatal]

/-- The name of a severity. -/
def name : Severity → String
  | info => "info"
  | refactor => "refactor"
  | convention => "convention"
  | warning => "warning"
  | error => "error"
  | fatal => "fatal"

/-- The severity with a name. -/
def ofName? (s : String) : Option Severity :=
  all.find? (·.name == s)

/-- The letter that stands for a severity in a summary. -/
def code : Severity → String
  | info => "I"
  | refactor => "R"
  | convention => "C"
  | warning => "W"
  | error => "E"
  | fatal => "F"

/-- The place of a severity in the order. -/
def rank : Severity → Nat
  | info => 0
  | refactor => 1
  | convention => 2
  | warning => 3
  | error => 4
  | fatal => 5

/-- The more serious of two severities. -/
def max (a b : Severity) : Severity := if a.rank < b.rank then b else a

/-- The most serious of some severities. -/
def maximum? : List Severity → Option Severity
  | [] => none
  | s :: ss => some (ss.foldl max s)

end Severity

end TapLint
