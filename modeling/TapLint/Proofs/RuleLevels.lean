/-
The levels in a log.

A log gives a level to each result and to each rule, and that of a rule is taken from the first
offense against it in the whole report.  The offenses of one cop all have the severity that the
policy has for it, in whatever file they are, so it does not matter which one comes first:

* `Report.IsUniform` — the name of its cop says how severe a diagnostic is;
* `isUniform_of_auditPaths` — so it is in every report of a policy's cops;
* `Report.ruleLevels?`, `Report.resultLevels?` — the levels that are read from a log.

The main statement is `levels_agree`.
-/
import Mathlib.Data.List.Basic
import TapLint.Proofs.Entries
import TapLint.Proofs.Formats
import TapLint.Proofs.Selection
import TapLint.Ruby.Program

namespace TapLint

/-! ### Severities in a report -/

theorem Cop.severity_of_mem_evaluate {c : Cop} {f : Formula} {d : Diagnostic}
    (h : d ∈ (c.evaluate f).value) : d.severity = c.severity := by
  obtain ⟨body, offense, -, -, rfl⟩ := exists_offense_of_mem_evaluate h
  rfl

namespace Report

/-- The severity of every diagnostic is the one that its cop has. -/
def IsUniform (severity : String → Severity) (report : Report) : Prop :=
  ∀ d ∈ report.diagnostics, d.severity = severity d.copName

end Report

/-- Cops of one severity for each name make a uniform report, whatever the files hold. -/
theorem Auditor.isUniform_of_auditPaths {a : Auditor} {severity : String → Severity}
    (hcops : ∀ c ∈ a.cops, c.severity = severity c.name) {files : Files} {recursive : Bool}
    {paths : List String} {report : Report}
    (h : (a.auditPaths files recursive paths).value = .ok report) : report.IsUniform severity := by
  obtain ⟨found, -, rfl⟩ := a.value_auditPaths_eq_ok_iff.mp h
  intro d hd
  obtain ⟨path, -, f, -, c, hc, hmem⟩ := a.mem_diagnostics_iff.mp hd
  rw [Cop.severity_of_mem_evaluate hmem, Cop.copName_of_mem_evaluate hmem]
  exact hcops c hc

/-! ### Levels in a log -/

namespace Sarif

/-- The offenses that a scan picks are among those that it goes through. -/
theorem newcomers_sublist (met : List String) (ds : List Diagnostic) :
    (newcomers met ds).Sublist ds := by
  induction ds generalizing met with
  | nil => exact .slnil
  | cons d ds ih =>
    rw [newcomers]
    split
    · exact (ih met).cons d
    · exact (ih (d.copName :: met)).cons_cons d

/-- The name of a rule, with its level. -/
def ruleLevel? (rule : Json) : Option (String × String) := do
  pure (← (← rule.at? ["id"]).text?, ← (← rule.at? ["defaultConfiguration", "level"]).text?)

/-- The name of the rule that a result is against, with the level of the result. -/
def resultLevel? (result : Json) : Option (String × String) := do
  pure (← (← result.at? ["ruleId"]).text?, ← (← result.at? ["level"]).text?)

theorem ruleLevel?_rule (d : Diagnostic) : ruleLevel? (rule d) = some (d.copName, level d.severity) :=
  rfl

theorem resultLevel?_result (d : Diagnostic) :
    resultLevel? (result d) = some (d.copName, level d.severity) :=
  rfl

end Sarif

namespace Report

/-- The rules that a log has, with their levels. -/
def ruleLevels? (log : Json) : Option (List (String × String)) := do
  let run ← (← log.at? ["runs"]).only?
  (← run.at? ["tool", "driver", "rules"]).readAll? Sarif.ruleLevel?

/-- The rules that the results of a log are against, with the levels of the results. -/
def resultLevels? (log : Json) : Option (List (String × String)) := do
  let run ← (← log.at? ["runs"]).only?
  (← run.at? ["results"]).readAll? Sarif.resultLevel?

variable {report : Report} {severity : String → Severity}

theorem IsUniform.resultLevels?_toSarif (h : report.IsUniform severity) (tool : Sarif.Tool) :
    resultLevels? (report.toSarif tool) =
      some ((report.diagnostics.map (·.copName)).map fun id => (id, Sarif.level (severity id))) := by
  have hread : resultLevels? (report.toSarif tool) =
      some (report.diagnostics.map fun d => (d.copName, Sarif.level d.severity)) :=
    Json.readAll?_map Sarif.resultLevel?_result report.diagnostics
  rw [hread, List.map_map]
  refine congrArg some (List.map_congr_left fun d hd => ?_)
  rw [h d hd]
  rfl

theorem IsUniform.ruleLevels?_toSarif (h : report.IsUniform severity) (tool : Sarif.Tool) :
    ruleLevels? (report.toSarif tool) =
      some ((report.diagnostics.map (·.copName)).eraseDups.map fun id =>
        (id, Sarif.level (severity id))) := by
  have hread : ruleLevels? (report.toSarif tool) =
      some ((Sarif.representatives report.diagnostics).map fun d =>
        (d.copName, Sarif.level d.severity)) :=
    Json.readAll?_map Sarif.ruleLevel?_rule (Sarif.representatives report.diagnostics)
  rw [hread, ← Sarif.map_copName_representatives, List.map_map]
  refine congrArg some (List.map_congr_left fun d hd => ?_)
  -- the offense that stands for a rule is one of the report, so its cop says its severity, too
  rw [h d ((Sarif.newcomers_sublist [] report.diagnostics).subset hd)]
  rfl

end Report

/-- **Results and rules have the same levels.**  In the log of a report that a policy's cops made,
whichever of them were asked for and whatever the files hold, no two rules have one name, and every
result has the level of the rule that it is against.  This is the level of the severity that the
policy has for the cop. -/
theorem levels_agree {p : Policy} {only : Option (List String)} {a : Auditor}
    (hcops : (p.select only).value = .ok a.cops) {files : Files} {recursive : Bool}
    {paths : List String} {report : Report}
    (h : (a.auditPaths files recursive paths).value = .ok report) (tool : Sarif.Tool) :
    ∃ rules results, Report.ruleLevels? (report.toSarif tool) = some rules ∧
      Report.resultLevels? (report.toSarif tool) = some results ∧
      results.length = report.diagnostics.length ∧ (rules.map Prod.fst).Nodup ∧
      ∀ result ∈ results, rules.lookup result.1 = some result.2 ∧
        result.2 = Sarif.level (p.severityFor result.1) := by
  have huniform : report.IsUniform p.severityFor :=
    Auditor.isUniform_of_auditPaths (fun _ => Policy.severity_of_select hcops) h
  refine ⟨_, _, huniform.ruleLevels?_toSarif tool, huniform.resultLevels?_toSarif tool, ?_, ?_, ?_⟩
  · rw [List.length_map, List.length_map]
  · rw [List.map_map]
    exact (List.map_id _).symm ▸ Tally.nodup_eraseDups _
  · intro result hresult
    obtain ⟨id, hid, rfl⟩ := List.mem_map.mp hresult
    exact ⟨List.lookup_graph _ (List.mem_eraseDups.mpr hid), rfl⟩

/-! ### A log of three files -/

/-- Three files with an offense each, of which the last is against the same rule as the first. -/
def offendingFiles : Files :=
  let uses := "class A < Formula\n  uses_from_macos \"q\"\nend\n"
  let provided := "class B < Formula\n  keg_only :provided_by_macos\nend\n"
  { root := .directory [("a.rb", .file (Utf8.bytes uses)), ("b.rb", .file (Utf8.bytes provided)),
      ("c.rb", .file (Utf8.bytes uses))]
    here := [] }

/-- A policy that disables one cop and takes the other for serious. -/
def severePolicy : Policy :=
  { settings := [("FormulaAudit/ProvidedByMacos", { enabled := false }),
      ("FormulaAudit/UsesFromMacos", { severity := .error })] }

/-- An auditor with both cops of that policy. -/
def severeAuditor : Auditor :=
  { reader := Ruby.Tree.ofText, cops := Rule.all.map severePolicy.cop, now := default }

/-- The report on the three files. -/
def offendingReport : Report :=
  severeAuditor.collect
    ([⟨0, ["a.rb"]⟩, ⟨0, ["b.rb"]⟩, ⟨0, ["c.rb"]⟩].map (severeAuditor.outcome offendingFiles))

theorem levels_agree_offendingFiles :
    (severeAuditor.auditPaths offendingFiles false ["a.rb", "b.rb", "c.rb"]).value =
        .ok offendingReport ∧
      ∃ rules, Report.ruleLevels? (offendingReport.toSarif {}) = some rules ∧
        Report.resultLevels? (offendingReport.toSarif {}) =
          some [("FormulaAudit/UsesFromMacos", "error"), ("FormulaAudit/ProvidedByMacos", "note"),
            ("FormulaAudit/UsesFromMacos", "error")] ∧
        rules.lookup "FormulaAudit/UsesFromMacos" = some "error" ∧
        rules.lookup "FormulaAudit/ProvidedByMacos" = some "note" := by
  have hcops : (severePolicy.select (some ["UsesFromMacos", "ProvidedByMacos"])).value =
      .ok severeAuditor.cops :=
    severePolicy.select_eq_ok_iff.mpr ⟨by decide +kernel, rfl⟩
  have hreport : (severeAuditor.auditPaths offendingFiles false ["a.rb", "b.rb", "c.rb"]).value =
      .ok offendingReport := Auditor.value_auditPaths_of_discover severeAuditor rfl
  have hlevels : Report.resultLevels? (offendingReport.toSarif {}) =
      some [("FormulaAudit/UsesFromMacos", "error"), ("FormulaAudit/ProvidedByMacos", "note"),
        ("FormulaAudit/UsesFromMacos", "error")] := by
    decide +kernel
  obtain ⟨rules, results, hrules, hresults, -, -, hlookup⟩ := levels_agree hcops hreport {}
  obtain rfl := Option.some.inj (hlevels.symm.trans hresults)
  exact ⟨hreport, rules, hrules, hlevels, (hlookup _ List.mem_cons_self).1,
    (hlookup _ (List.mem_cons_of_mem _ List.mem_cons_self)).1⟩

end TapLint
