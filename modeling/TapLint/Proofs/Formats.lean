/-
The formats tell of the same offenses.

A report is printed in three ways, each of which goes through the results for itself.  What is
told of an offense is read back from all of them:

* `Mark` — what is told of an offense; `Mark.ofJson?` and `Mark.ofSarif?` read it from the values
  of two formats, and `Mark.summaryLine` is what the third one prints of it;
* `map_copName_representatives` — the scan for rules finds each cop once, in the order in which
  the tally lists them.

The main statement is `formats_agree`.
-/
import TapLint.Proofs.Tallies
import TapLint.Report.Sarif
import TapLint.Report.Summary

namespace TapLint

namespace Json

/-! ### Reading values -/

/-- A text. -/
def text? : Json → Option String
  | .string s => some s
  | _ => none

/-- A text, or nothing where there may be none. -/
def nullable? : Json → Option (Option String)
  | .null => some none
  | .string s => some (some s)
  | _ => none

/-- A natural number. -/
def natural? : Json → Option Nat
  | .int (.ofNat n) => some n
  | _ => none

/-- The only item of an array. -/
def only? : Json → Option Json
  | .array [v] => some v
  | _ => none

/-- The keys of an object. -/
def keys? : Json → Option (List String)
  | .object fields => some (fields.map Prod.fst)
  | _ => none

/-- What is read from the items of an array, if it can be read from all of them. -/
def readAll? {α : Type} (read : Json → Option α) : Json → Option (List α)
  | .array items => items.mapM read
  | _ => none

theorem nullable?_ofString? (s : Option String) : (ofString? s).nullable? = some s := by
  cases s <;> rfl

/-- An array is read like its items. -/
theorem readAll?_map {α β : Type} {read : Json → Option α} {write : β → Json} {f : β → α}
    (h : ∀ x, read (write x) = some (f x)) (xs : List β) :
    readAll? read (.array (xs.map write)) = some (xs.map f) := by
  have hread : read ∘ write = fun x => pure (f x) := funext h
  rw [readAll?, List.mapM_map, hread, List.mapM_pure]
  rfl

end Json

theorem Severity.ofName?_name (s : Severity) : ofName? s.name = some s := by
  cases s <;> rfl

/-! ### What is told of an offense -/

/-- What every format tells of an offense. -/
structure Mark where
  cop : String
  message : String
  severity : Severity
  formula : Option String
  path : Option String
  line : Nat
  column : Nat

/-- What is to be told of a diagnostic. -/
def Diagnostic.mark (d : Diagnostic) : Mark :=
  { cop := d.copName
    message := d.message
    severity := d.severity
    formula := d.formulaName
    path := d.location.path
    line := d.location.line
    column := d.location.column }

namespace Mark

/-- The path, or what is put for one that is missing or empty. -/
def pathOr (m : Mark) (fallback : String) : String :=
  match m.path with
  | none => fallback
  | some p => if p.isEmpty then fallback else p

/-- The line that a summary has for an offense. -/
def summaryLine (m : Mark) : String :=
  m.pathOr "<source>" ++ ":" ++ toString m.line ++ ":" ++ toString m.column ++ ": " ++
    m.severity.code ++ ": " ++ m.cop ++ ": " ++ m.message

/-- With the file that its formula is expected in for a path, if there is no other. -/
def located (m : Mark) : Mark :=
  { m with path := some (m.pathOr (Sarif.expectedFile m.formula)) }

/-- Reads what a JSON report tells of an offense. -/
def ofJson? (v : Json) : Option Mark := do
  let location ← v.at? ["location"]
  pure
    { cop := ← (← v.at? ["cop_name"]).text?
      message := ← (← v.at? ["message"]).text?
      severity := ← Severity.ofName? (← (← v.at? ["severity"]).text?)
      formula := ← (← v.at? ["formula_name"]).nullable?
      path := ← (← location.at? ["path"]).nullable?
      line := ← (← location.at? ["line"]).natural?
      column := ← (← location.at? ["column"]).natural? }

/-- Reads what a SARIF log tells of an offense. -/
def ofSarif? (v : Json) : Option Mark := do
  let location ← (← v.at? ["locations"]).only?
  let place ← location.at? ["physicalLocation"]
  pure
    { cop := ← (← v.at? ["ruleId"]).text?
      message := ← (← v.at? ["message", "text"]).text?
      severity := ← Severity.ofName? (← (← v.at? ["properties", "severity"]).text?)
      formula := ← (← v.at? ["properties", "formula"]).nullable?
      path := some (← (← place.at? ["artifactLocation", "uri"]).text?)
      line := ← (← place.at? ["region", "startLine"]).natural?
      column := ← (← place.at? ["region", "startColumn"]).natural? }

variable (d : Diagnostic)

theorem ofJson?_toJson : ofJson? d.toJson = some d.mark := by
  show (do
    let severity ← Severity.ofName? d.severity.name
    let formula ← (Json.ofString? d.formulaName).nullable?
    let path ← (Json.ofString? d.location.path).nullable?
    pure { d.mark with severity, formula, path }) = some d.mark
  rw [Severity.ofName?_name, Json.nullable?_ofString?, Json.nullable?_ofString?]
  rfl

theorem uri_eq : Sarif.uri d = d.mark.pathOr (Sarif.expectedFile d.formulaName) := by
  rw [Sarif.uri, pathOr]
  cases hpath : d.location.path <;> simp [Diagnostic.path, Diagnostic.mark, hpath]

theorem ofSarif?_result : ofSarif? (Sarif.result d) = some d.mark.located := by
  show (do
    let severity ← Severity.ofName? d.severity.name
    let formula ← (Json.ofString? d.formulaName).nullable?
    pure { d.mark with severity, formula, path := some (Sarif.uri d) }) = some d.mark.located
  rw [Severity.ofName?_name, Json.nullable?_ofString?, uri_eq]
  rfl

theorem offenseLine_eq : Report.offenseLine d = d.mark.summaryLine := rfl

end Mark

/-! ### The rules of a log -/

namespace Sarif

/-- The scan finds the cops that were not met before, each once. -/
theorem map_copName_newcomers (met : List String) (ds : List Diagnostic) :
    (newcomers met ds).map (·.copName) = ((ds.map (·.copName)).filter (· ∉ met)).eraseDups := by
  induction ds generalizing met with
  | nil => rfl
  | cons d ds ih =>
    rw [newcomers, List.map_cons]
    by_cases hmet : d.copName ∈ met
    · rw [if_pos hmet, ih, List.filter_cons_of_neg (by simpa using hmet)]
    · -- a cop that is met here is left out of the rest as well
      have hmore : ((ds.map (·.copName)).filter (· ∉ met)).filter (fun n => !n == d.copName) =
          (ds.map (·.copName)).filter (· ∉ d.copName :: met) := by
        rw [List.filter_filter]
        exact List.filter_congr fun n _ => by simp [beq_eq_decide]
      rw [if_neg hmet, List.map_cons, ih, List.filter_cons_of_pos (by simpa using hmet),
        List.eraseDups_cons, hmore]

/-- The scan for rules finds each cop once, in the order in which they come up. -/
theorem map_copName_representatives (ds : List Diagnostic) :
    (representatives ds).map (·.copName) = (ds.map (·.copName)).eraseDups := by
  have hall : (ds.map (·.copName)).filter (· ∉ []) = ds.map (·.copName) :=
    List.filter_eq_self.mpr fun n _ => by simp
  rw [representatives, map_copName_newcomers, hall]

end Sarif

/-! ### The formats of a report -/

namespace Report

/-- What a report as JSON tells of the offenses, one result after the other. -/
def marksOfJson? (v : Json) : Option (List Mark) := do
  let results ← v.at? ["results"]
  let marks ← results.readAll? fun r => (r.at? ["diagnostics"]).bind (Json.readAll? Mark.ofJson?)
  pure marks.flatten

/-- What a log tells of the offenses. -/
def marksOfSarif? (log : Json) : Option (List Mark) := do
  let run ← (← log.at? ["runs"]).only?
  (← run.at? ["results"]).readAll? Mark.ofSarif?

/-- The names of the rules that a log has. -/
def ruleIds? (log : Json) : Option (List String) := do
  let run ← (← log.at? ["runs"]).only?
  (← run.at? ["tool", "driver", "rules"]).readAll? fun rule => (rule.at? ["id"]).bind Json.text?

variable (report : Report)

theorem marksOfJson?_toJson :
    marksOfJson? report.toJson = some (report.diagnostics.map Diagnostic.mark) := by
  have hresult : ∀ r : AuditResult, (r.toJson.at? ["diagnostics"]).bind
      (Json.readAll? Mark.ofJson?) = some (r.diagnostics.map Diagnostic.mark) := fun r =>
    Json.readAll?_map Mark.ofJson?_toJson r.diagnostics
  show ((Json.array (report.results.map AuditResult.toJson)).readAll? _).bind _ = _
  rw [Json.readAll?_map hresult, diagnostics, List.map_flatMap]
  rfl

theorem marksOfSarif?_toSarif (tool : Sarif.Tool) : marksOfSarif? (report.toSarif tool) =
    some (report.diagnostics.map fun d => d.mark.located) :=
  Json.readAll?_map Mark.ofSarif?_result report.diagnostics

theorem ruleIds?_toSarif (tool : Sarif.Tool) : ruleIds? (report.toSarif tool) =
    some (report.diagnostics.map (·.copName)).eraseDups := by
  have hid : ∀ d, ((Sarif.rule d).at? ["id"]).bind Json.text? = some d.copName := fun _ => rfl
  rw [← Sarif.map_copName_representatives]
  exact Json.readAll?_map hid (Sarif.representatives report.diagnostics)

/-- The lines of a summary, if the tally has the numbers of the results. -/
theorem summaryLines_eq (hfiles : report.tally.files = report.results.length)
    (hoffenses : report.tally.offenses = report.diagnostics.length) :
    let marks := report.diagnostics.map Diagnostic.mark
    report.summaryLines =
      marks.map Mark.summaryLine ++ report.errors.map errorLine ++
        (if marks = [] ∧ report.errors = [] then [] else [""]) ++
        [toString report.results.length ++ " file" ++ plural report.results.length ++
          " inspected, " ++ (if marks.length = 0 then "no" else toString marks.length) ++
          " offense" ++ plural marks.length ++ " detected"] ++
        (if report.errors = [] then [] else [errorsLine report.errors.length]) := by
  intro marks
  have hlines : report.diagnostics.map offenseLine = marks.map Mark.summaryLine := by
    rw [List.map_map]
    exact List.map_congr_left fun d _ => Mark.offenseLine_eq d
  have hlength : marks.length = report.diagnostics.length := List.length_map _
  rw [summaryLines, totalsLine, hfiles, hoffenses, hlines, hlength]
  simp only [List.isEmpty_iff, List.append_eq_nil_iff, List.map_eq_nil_iff]

end Report

namespace Auditor

/-- **The formats tell of the same offenses.**  From any report that results and errors were added
to, one list of marks is read: it is what the JSON value tells of the offenses, and what the SARIF
log tells of them, with a file for every path, and the lines that the summary begins with are
those of its marks.  Its length is the number of offenses in the JSON value and in the totals.
The rules of the log are different, they are the cops that the tally lists, in its order, and
every offense is against one of them. -/
theorem formats_agree (now : Moment) (tool : Sarif.Tool)
    (outcomes : List (Except AuditError AuditResult)) :
    let report : Report := outcomes.foldl enter { timestamp := now }
    let marks := report.diagnostics.map Diagnostic.mark
    Report.marksOfJson? report.toJson = some marks ∧
      Report.marksOfSarif? (report.toSarif tool) = some (marks.map Mark.located) ∧
      report.summaryLines =
        marks.map Mark.summaryLine ++ report.errors.map Report.errorLine ++
          (if marks = [] ∧ report.errors = [] then [] else [""]) ++
          [toString report.results.length ++ " file" ++ Report.plural report.results.length ++
            " inspected, " ++ (if marks.length = 0 then "no" else toString marks.length) ++
            " offense" ++ Report.plural marks.length ++ " detected"] ++
          (if report.errors = [] then [] else [Report.errorsLine report.errors.length]) ∧
      report.toJson.at? ["summary", "total_diagnostics"] = some (.int marks.length) ∧
      ∃ ids, Report.ruleIds? (report.toSarif tool) = some ids ∧ ids.Nodup ∧
        report.tally.byCop.map Prod.fst = ids ∧
        (report.toJson.at? ["summary", "diagnostics_by_cop"]).bind Json.keys? = some ids ∧
        (marks.map Mark.located).map Mark.cop ⊆ ids := by
  intro report marks
  have hreport : report = _ := foldl_enter_empty now outcomes
  have hfiles : report.tally.files = report.results.length := by
    rw [hreport]
    exact (Tally.isExact_foldl_count (resultsOf outcomes)).files
  have hoffenses : report.tally.offenses = report.diagnostics.length := by
    rw [hreport, Report.diagnostics, Tally.length_flatMap_diagnostics]
    exact (Tally.isExact_foldl_count (resultsOf outcomes)).offenses
  have hkeys : report.tally.byCop.map Prod.fst =
      (report.diagnostics.map (·.copName)).eraseDups := by
    rw [hreport, Tally.byCop_foldl_count, Tally.keys_census]
    rfl
  have hnames : (marks.map Mark.located).map Mark.cop = report.diagnostics.map (·.copName) := by
    rw [List.map_map, List.map_map]
    rfl
  refine ⟨report.marksOfJson?_toJson, ?_, report.summaryLines_eq hfiles hoffenses, ?_, _,
    report.ruleIds?_toSarif tool, Tally.nodup_eraseDups _, hkeys, ?_, ?_⟩
  · rw [report.marksOfSarif?_toSarif tool, List.map_map]
    rfl
  · rw [List.length_map, ← hoffenses]
    rfl
  · rw [← hkeys]
    show some ((report.tally.byCop.map _).map Prod.fst) = _
    rw [List.map_map]
    rfl
  · rw [hnames]
    exact fun _ => List.mem_eraseDups.mpr

example : ([.ok (resultWith ["q", "p"])].foldl enter { timestamp := default }).summaryLines =
    ["<source>:0:0: C: q: ", "<source>:0:0: C: p: ", "",
      "1 file inspected, 2 offenses detected"] := by
  decide +kernel

end Auditor

end TapLint
