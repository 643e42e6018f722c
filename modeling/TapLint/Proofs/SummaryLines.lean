/-
The lines of a summary.

A summary is meant to be read line by line, and some of what it prints comes from the files that
were audited.  Paths, places and the wording of errors stay on one line; the one thing that may
not is the name of a dependency, which a message quotes as it stands in the source:

* `Report.linesOf_summary` — the lines of a summary, if no error is broken;
* `UsesFromMacos.NamesLines` — a formula in which a call is looked at that names a dependency on
  several lines;
* `exists_not_onLine_iff` — these are the formulae that get a message of several lines.

The main statement is `lines_of_summary`.
-/
import TapLint.Proofs.Entries
import TapLint.Proofs.Lines
import TapLint.Proofs.ProvidedByMacos
import TapLint.Proofs.UsesFromMacos
import TapLint.Report.Summary
import TapLint.Ruby.Program

namespace TapLint

open Text (OnLine linesOf onLine_append onLine_toString)

/-! ### What is printed of errors and numbers -/

theorem onLine_hexByte (b : UInt8) : OnLine (Utf8.hexByte b) := by
  have hdigit : ∀ n < 16, '\n' ≠ Nat.digitChar n := by decide
  have hhigh : b.toNat / 16 < 16 := by
    have hbyte := b.toNat_lt
    omega
  rw [Utf8.hexByte, OnLine, String.toList_ofList]
  simp [hdigit _ hhigh, hdigit _ (Nat.mod_lt b.toNat (by omega))]

theorem onLine_message_fault (fault : Utf8.Fault) : OnLine fault.message := by
  cases fault <;> decide

theorem onLine_message_utf8 (e : Utf8.Error) : OnLine e.message := by
  have hfault := onLine_message_fault e.fault
  unfold Utf8.Error.message
  split
  · simp only [onLine_append, onLine_hexByte, onLine_toString, hfault, and_true]
    decide
  · simp only [onLine_append, onLine_toString, hfault, and_true]
    decide

theorem onLine_shownAt {path : String} (h : OnLine path) (line column : Nat) :
    OnLine (Location.shownAt (some path) line column) := by
  have hsource : OnLine (Location.sourceName (some path)) := by
    rw [Location.sourceName]
    split
    · decide
    · exact h
  simp only [Location.shownAt, onLine_append, hsource, onLine_toString, and_true, true_and]
  decide

/-- A file that cannot be read is complained of on one line. -/
theorem onLine_message_readText {files : Files} {limit : Int} {path : Path} {why : ReadError}
    (hpath : OnLine path.shown) (h : Formula.readText files limit path = .error why) :
    OnLine why.message := by
  rw [Formula.readText] at h
  split at h
  next =>
    cases h
    exact onLine_append.mpr ⟨by decide, hpath⟩
  next =>
    split at h
    · cases h
      unfold ReadError.message
      simp only [onLine_append, onLine_toString, hpath, and_true]
      decide
    · split at h
      · cases h
        unfold ReadError.message
        simp only [onLine_append, onLine_message_utf8, hpath, and_true]
        decide
      · cases h

namespace Report

theorem onLine_plural (n : Nat) : OnLine (plural n) := by
  rw [plural]
  split <;> decide

theorem onLine_totalsLine (t : Tally) : OnLine (totalsLine t) := by
  have hcount : OnLine (if t.offenses = 0 then "no" else toString t.offenses) := by
    split
    · decide
    · exact onLine_toString t.offenses
  simp only [totalsLine, onLine_append, onLine_toString, onLine_plural, hcount, and_true, true_and]
  decide

theorem onLine_errorsLine (n : Nat) : OnLine (errorsLine n) := by
  simp only [errorsLine, onLine_append, onLine_toString, onLine_plural, and_true, true_and]
  decide

/-- The place of an error is a path, or a path with two numbers. -/
theorem onLine_errorPlace {e : AuditError} (hpath : OnLine e.path)
    (hplace : e.line = none ∨ ∃ line column : Nat, e.line = some ↑line ∧ e.column = some ↑column) :
    OnLine (errorPlace e) := by
  rw [errorPlace]
  rcases hplace with hnone | ⟨line, column, hline, hcolumn⟩
  · rw [hnone]
    exact hpath
  · rw [hline, hcolumn]
    show OnLine (if (line : Int) = 0 then e.path else
      e.path ++ ":" ++ toString line ++ ":" ++ toString column)
    split
    · exact hpath
    · simp only [onLine_append, hpath, onLine_toString, and_true, true_and]
      decide

theorem onLine_errorLine_iff {e : AuditError} (h : OnLine (errorPlace e)) :
    OnLine (errorLine e) ↔ OnLine e.message := by
  have hmark : OnLine ": F: Lint/Syntax: " := by decide
  simp only [errorLine, onLine_append, h, hmark, true_and]

/-- An offense stays on one line exactly if its message does. -/
theorem onLine_offenseLine_iff {d : Diagnostic} {path : String} (hpath : d.location.path = some path)
    (honLine : OnLine path) (hcop : OnLine d.copName) :
    OnLine (offenseLine d) ↔ OnLine d.message := by
  have hplace : OnLine d.location.shown := by
    rw [Location.shown, hpath]
    exact onLine_shownAt honLine _ _
  have hcode : OnLine d.severity.code := by
    cases d.severity <;> decide
  have hseparator : OnLine ": " := by decide
  simp only [offenseLine, onLine_append, hplace, hcode, hcop, hseparator, true_and]

/-! ### The lines of a report -/

/-- The lines that a summary ends with: the totals, set off from what was listed before them, and
the number of errors, if there are any. -/
def closingLines (report : Report) : List String :=
  (if report.diagnostics = [] ∧ report.errors = [] then [] else [""]) ++
    [totalsLine report.tally] ++
    if report.errors = [] then [] else [errorsLine report.errors.length]

variable {report : Report}

theorem summaryLines_eq_closingLines (report : Report) :
    report.summaryLines =
      report.diagnostics.map offenseLine ++ report.errors.map errorLine ++ report.closingLines := by
  rw [summaryLines, closingLines]
  simp only [List.isEmpty_iff, List.append_eq_nil_iff, List.map_eq_nil_iff, List.append_assoc]

theorem onLine_of_mem_closingLines {line : String} (h : line ∈ report.closingLines) :
    OnLine line := by
  rw [closingLines, List.mem_append, List.mem_append, List.mem_singleton] at h
  rcases h with (hempty | htotals) | herrors
  · split at hempty
    · cases hempty
    · rw [List.mem_singleton.mp hempty]
      decide
  · rw [htotals]
    exact onLine_totalsLine report.tally
  · split at herrors
    · cases herrors
    · rw [List.mem_singleton.mp herrors]
      exact onLine_errorsLine _

/-- Only the offenses can be broken, if the errors are not. -/
theorem linesOf_summary (herrors : ∀ e ∈ report.errors, OnLine (errorLine e)) :
    linesOf report.summary =
      (report.diagnostics.flatMap fun d => linesOf (offenseLine d)) ++
        report.errors.map errorLine ++ report.closingLines := by
  have hne : report.summaryLines ≠ [] := by
    rw [summaryLines_eq_closingLines, closingLines]
    simp
  have hmapped : (report.errors.map errorLine).flatMap linesOf = report.errors.map errorLine := by
    refine Text.flatMap_linesOf_eq_self_iff.mpr fun line hline => ?_
    obtain ⟨e, he, rfl⟩ := List.mem_map.mp hline
    exact herrors e he
  have hclosing : report.closingLines.flatMap linesOf = report.closingLines :=
    Text.flatMap_linesOf_eq_self_iff.mpr fun _ => onLine_of_mem_closingLines
  rw [summary, Text.linesOf_intercalate hne, summaryLines_eq_closingLines, List.flatMap_append,
    List.flatMap_append, List.flatMap_map, hmapped, hclosing]

/-- There is one line for each offense exactly if none of them is broken. -/
theorem linesOf_summary_eq_iff (herrors : ∀ e ∈ report.errors, OnLine (errorLine e)) :
    linesOf report.summary =
        report.diagnostics.map offenseLine ++ report.errors.map errorLine ++ report.closingLines ↔
      ∀ d ∈ report.diagnostics, OnLine (offenseLine d) := by
  rw [linesOf_summary herrors, List.append_left_inj, List.append_left_inj, ← List.flatMap_map,
    Text.flatMap_linesOf_eq_self_iff, List.forall_mem_map]

end Report

/-! ### The names that a message quotes -/

namespace UsesFromMacos

/-- A call of `uses_from_macos` is looked at, as one of its arguments opens with a quoted string,
and its first argument names a dependency with a line feed in the name. -/
def NamesLines (f : Formula) : Prop :=
  ∃ (body call : Node) (dependency : Dependency), f.body = some body ∧ call ∈ body.preorder ∧
    call.isCallOf "uses_from_macos" ∧ (∃ a ∈ call.arguments, OpensQuoted a.text) ∧
    call.dependency = .ok dependency ∧ ¬OnLine dependency.name

theorem onLine_of_byMacos {name : String} (h : Provided.byMacos name) : OnLine name := by
  have hregistered : ∀ s ∈ Provided.registered, OnLine s := by decide +kernel
  have htolerated : ∀ s ∈ Provided.tolerated, OnLine s := by decide +kernel
  rcases byMacos_iff.mp h with hmem | hmem
  · exact hregistered name hmem
  · exact htolerated name hmem

theorem onLine_notProvidedMessage_iff {name : String} :
    OnLine (notProvidedMessage name) ↔ OnLine name := by
  constructor
  · intro h
    exact (onLine_append.mp (onLine_append.mp h).1).2
  · intro h
    exact onLine_append.mpr ⟨onLine_append.mpr ⟨by decide +kernel, h⟩, by decide⟩

/-- What is said of a call takes several lines exactly if the name does. -/
theorem exists_not_onLine_examine_iff {requiresLinux : Bool} {call : Node} :
    (∃ offense ∈ (examine requiresLinux call).value, ¬OnLine offense.1) ↔
      ∃ dependency, call.dependency = .ok dependency ∧ ¬OnLine dependency.name := by
  have hlinux : OnLine linuxMessage := by decide
  rw [value_examine]
  constructor
  · rintro ⟨offense, hoffense, hbroken⟩
    rcases List.mem_append.mp hoffense with h | h
    · split at h
      · rw [List.mem_singleton.mp h] at hbroken
        exact absurd hlinux hbroken
      · cases h
    · split at h
      next dependency hdependency =>
        split at h
        · cases h
        · rw [List.mem_singleton.mp h] at hbroken
          exact ⟨dependency, hdependency, mt onLine_notProvidedMessage_iff.mpr hbroken⟩
      next => cases h
  · rintro ⟨dependency, hdependency, hbroken⟩
    -- a name with a line feed is none that macOS provides
    have hmacos : ¬Provided.byMacos dependency.name := mt onLine_of_byMacos hbroken
    refine ⟨(notProvidedMessage dependency.name, call), ?_, ?_⟩
    · rw [hdependency]
      simp only [if_neg hmacos, List.mem_append, List.mem_singleton, or_true]
    · exact mt onLine_notProvidedMessage_iff.mp hbroken

theorem namesLines_iff {f : Formula} {body : Node} (h : f.body = some body) :
    NamesLines f ↔ ∃ call ∈ Node.callsWith (some body) "uses_from_macos" [.quotedString],
      ∃ dependency, call.dependency = .ok dependency ∧ ¬OnLine dependency.name := by
  constructor
  · rintro ⟨body', call, dependency, hbody, hmem, hname, hquoted, hbroken⟩
    rw [h] at hbody
    cases hbody
    have hcall := Node.mem_callsWith_iff.mpr ⟨hmem, hname, fitsAll_quotedString.mpr hquoted⟩
    exact ⟨call, hcall, dependency, hbroken⟩
  · rintro ⟨call, hcall, dependency, hbroken⟩
    obtain ⟨hmem, hname, hfits⟩ := Node.mem_callsWith_iff.mp hcall
    exact ⟨body, call, dependency, h, hmem, hname, fitsAll_quotedString.mp hfits, hbroken⟩

/-- The rule has a message of several lines exactly for a formula that names such a dependency. -/
theorem exists_not_onLine_evaluate_iff {hasDependency : Formula → Logged (String → Bool)}
    {severity : Severity} {f : Formula} :
    (∃ d ∈ ((Cop.mk (ruleWith hasDependency) severity).evaluate f).value, ¬OnLine d.message) ↔
      NamesLines f := by
  cases hbody : f.body with
  | none =>
    refine iff_of_false ?_ ?_
    · rintro ⟨d, hd, -⟩
      rw [Cop.evaluate, hbody] at hd
      cases hd
    · rintro ⟨body, call, dependency, hsome, -⟩
      rw [hbody] at hsome
      cases hsome
  | some body =>
    rw [namesLines_iff hbody, Cop.value_evaluate hbody, value_offenses]
    constructor
    · rintro ⟨d, hd, hbroken⟩
      obtain ⟨offense, hoffense, rfl⟩ := List.mem_map.mp hd
      obtain ⟨call, hcall, hexamine⟩ := List.mem_flatMap.mp hoffense
      exact ⟨call, hcall, exists_not_onLine_examine_iff.mp ⟨offense, hexamine, hbroken⟩⟩
    · rintro ⟨call, hcall, hnamed⟩
      obtain ⟨offense, hexamine, hbroken⟩ := exists_not_onLine_examine_iff.mpr hnamed
      refine ⟨_, List.mem_map.mpr ⟨offense, ?_, rfl⟩, hbroken⟩
      exact List.mem_flatMap.mpr ⟨call, hcall, hexamine⟩

end UsesFromMacos

theorem ProvidedByMacos.onLine_of_mem_evaluate {severity : Severity} {f : Formula} {d : Diagnostic}
    (h : d ∈ ((Cop.mk rule severity).evaluate f).value) : OnLine d.message := by
  rw [value_evaluate] at h
  split at h
  · cases h
  · obtain ⟨call, -, rfl⟩ := List.mem_map.mp h
    show OnLine message
    decide +kernel

/-- Of the cops that there are, only one quotes names, and these break its messages. -/
theorem exists_not_onLine_iff {c : Cop} (hc : c.rule.Supplied) {f : Formula} :
    (∃ d ∈ (c.evaluate f).value, ¬OnLine d.message) ↔
      c.name = "FormulaAudit/UsesFromMacos" ∧ UsesFromMacos.NamesLines f := by
  obtain ⟨rule, severity⟩ := c
  rcases hc.cases with rfl | ⟨hasDependency, rfl⟩
  · have hother : ProvidedByMacos.rule.name ≠ "FormulaAudit/UsesFromMacos" := by decide
    refine iff_of_false ?_ fun h => hother h.1
    rintro ⟨d, hd, hbroken⟩
    exact hbroken (ProvidedByMacos.onLine_of_mem_evaluate hd)
  · rw [UsesFromMacos.exists_not_onLine_evaluate_iff]
    exact (and_iff_right rfl).symm

namespace Auditor

variable (a : Auditor) {files : Files} {recursive : Bool} {paths : List String}
  {found : List Path}

/-- A file that cannot be audited is told of on one line. -/
theorem onLine_errorLine_errorOf {path : Path} {why : Formula.LoadError}
    (hpath : OnLine path.shown) (h : a.formulaAt files path = .error why) :
    OnLine (Report.errorLine (errorOf path why)) := by
  cases why with
  | malformed why =>
    have hplace := Report.onLine_errorPlace (e := errorOf path (.malformed why)) hpath
      (.inr ⟨why.line, why.column, rfl, rfl⟩)
    rw [Report.onLine_errorLine_iff hplace]
    show OnLine ("Syntax error at " ++ Location.shownAt why.path why.line why.column)
    rw [path_of_formulaAt_eq_malformed a h]
    exact onLine_append.mpr ⟨by decide, onLine_shownAt hpath why.line why.column⟩
  | unreadable why =>
    have hplace := Report.onLine_errorPlace (e := errorOf path (.unreadable why)) hpath (.inl rfl)
    rw [Report.onLine_errorLine_iff hplace]
    exact onLine_message_readText hpath (a.readText_of_formulaAt_eq_unreadable h)

theorem onLine_offenseLine_iff_of_mem_evaluate {path : Path} {f : Formula} {c : Cop}
    (hpath : OnLine path.shown) (hc : c.rule.Supplied) (h : a.formulaAt files path = .ok f)
    {d : Diagnostic} (hd : d ∈ (c.evaluate f).value) :
    OnLine (Report.offenseLine d) ↔ OnLine d.message := by
  have hprovided : OnLine "FormulaAudit/ProvidedByMacos" := by decide
  have huses : OnLine "FormulaAudit/UsesFromMacos" := by decide
  have hcop : OnLine c.name := by
    rw [Cop.name]
    rcases hc.cases with hrule | ⟨hasDependency, hrule⟩
    · rw [hrule]
      exact hprovided
    · rw [hrule]
      exact huses
  refine Report.onLine_offenseLine_iff (a.path_of_mem_evaluate hc.followsWalk h hd) hpath ?_
  rwa [Cop.copName_of_mem_evaluate hd]

/-- **Only a name can break a line.**  From files whose paths have no line feed there is a report,
and the lines of its summary are those of its offenses, one after the other, then one for each
error, and those that close it.  Each offense has one line exactly if no file holds a formula with
a call that the cop for `uses_from_macos` looks at and whose dependency has a line feed in its
name; of such a name the message has every line, whatever may stand on it. -/
theorem lines_of_summary (hcops : ∀ c ∈ a.cops, c.rule.Supplied)
    (hfound : files.discover recursive paths = .ok found)
    (hpaths : ∀ path ∈ found, OnLine path.shown) :
    ∃ report, (a.auditPaths files recursive paths).value = .ok report ∧
      linesOf report.summary =
        (report.diagnostics.flatMap fun d => linesOf (Report.offenseLine d)) ++
          report.errors.map Report.errorLine ++ report.closingLines ∧
      (linesOf report.summary =
          report.diagnostics.map Report.offenseLine ++ report.errors.map Report.errorLine ++
            report.closingLines ↔
        ¬∃ c ∈ a.cops, c.name = "FormulaAudit/UsesFromMacos" ∧
          ∃ path ∈ found, ∃ f, a.formulaAt files path = .ok f ∧ UsesFromMacos.NamesLines f) := by
  have herrors : ∀ e ∈ (a.collect (found.map (a.outcome files))).errors,
      OnLine (Report.errorLine e) := by
    intro e he
    obtain ⟨path, hpath, why, hwhy, rfl⟩ := a.mem_errors_iff.mp he
    exact a.onLine_errorLine_errorOf (hpaths path hpath) hwhy
  refine ⟨_, value_auditPaths_of_discover a hfound, Report.linesOf_summary herrors, ?_⟩
  -- an offense that is broken and a file with such a name give each other
  rw [Report.linesOf_summary_eq_iff herrors, ← not_iff_not, not_not]
  push Not
  constructor
  · rintro ⟨d, hd, hbroken⟩
    obtain ⟨path, hpath, f, hf, c, hc, hmem⟩ := a.mem_diagnostics_iff.mp hd
    rw [a.onLine_offenseLine_iff_of_mem_evaluate (hpaths path hpath) (hcops c hc) hf hmem] at hbroken
    obtain ⟨hname, hlines⟩ := (exists_not_onLine_iff (hcops c hc)).mp ⟨d, hmem, hbroken⟩
    exact ⟨c, hc, hname, path, hpath, f, hf, hlines⟩
  · rintro ⟨c, hc, hname, path, hpath, f, hf, hlines⟩
    obtain ⟨d, hmem, hbroken⟩ := (exists_not_onLine_iff (hcops c hc)).mpr ⟨hname, hlines⟩
    refine ⟨d, a.mem_diagnostics_iff.mpr ⟨path, hpath, f, hf, c, hc, hmem⟩, ?_⟩
    rwa [a.onLine_offenseLine_iff_of_mem_evaluate (hpaths path hpath) (hcops c hc) hf hmem]

/-! ### A name that makes up a line -/

/-- A formula with one call, which names its dependency on two lines; the second one looks like an
entry for another file. -/
def forgedText : String :=
  "class A < Formula\n  uses_from_macos \"q'.\nb.rb:1:1: F: Lint/Syntax: 's\", \"r\"\nend\n"

/-- That formula, and a file that is not UTF-8. -/
def forgedFiles : Files :=
  { root := .directory [("a.rb", .file (Utf8.bytes forgedText)), ("c.rb", .file [0xFF])]
    here := [] }

/-- An auditor with all rules. -/
def catalogueAuditor : Auditor :=
  { reader := Ruby.Tree.ofText, cops := Rule.all.map fun r => { rule := r }, now := default }

/-- The report on both files. -/
def forgedReport : Report :=
  catalogueAuditor.collect
    ([⟨0, ["a.rb"]⟩, ⟨0, ["c.rb"]⟩].map (catalogueAuditor.outcome forgedFiles))

theorem value_auditPaths_forged :
    (catalogueAuditor.auditPaths forgedFiles false ["a.rb", "c.rb"]).value = .ok forgedReport :=
  value_auditPaths_of_discover catalogueAuditor rfl

theorem entries_forgedReport :
    forgedReport.diagnostics.map Report.offenseLine =
        ["a.rb:2:3: C: FormulaAudit/UsesFromMacos: `uses_from_macos` should only be used for " ++
          "macOS dependencies, not 'q'." ++ "\n" ++ "b.rb:1:1: F: Lint/Syntax: 's'."] ∧
      forgedReport.errors.map Report.errorLine =
        ["c.rb: F: Lint/Syntax: Failed to read c.rb: 'utf-8' codec can't decode byte 0xff in " ++
          "position 0: invalid start byte"] ∧
      forgedReport.closingLines =
        ["", "1 file inspected, 1 offense detected", "1 file could not be audited"] := by
  decide +kernel

theorem linesOf_summary_forgedReport :
    linesOf forgedReport.summary =
      ["a.rb:2:3: C: FormulaAudit/UsesFromMacos: `uses_from_macos` should only be used for " ++
          "macOS dependencies, not 'q'.",
        "b.rb:1:1: F: Lint/Syntax: 's'.",
        "c.rb: F: Lint/Syntax: Failed to read c.rb: 'utf-8' codec can't decode byte 0xff in " ++
          "position 0: invalid start byte",
        "", "1 file inspected, 1 offense detected", "1 file could not be audited"] := by
  obtain ⟨hoffenses, herrors, hclosing⟩ := entries_forgedReport
  have honLine : ∀ e ∈ forgedReport.errors, OnLine (Report.errorLine e) := by
    intro e he
    have hmem := List.mem_map_of_mem (f := Report.errorLine) he
    rw [herrors, List.mem_singleton] at hmem
    rw [hmem]
    decide +kernel
  rw [Report.linesOf_summary honLine, ← List.flatMap_map, hoffenses, herrors, hclosing,
    List.flatMap_singleton, Text.linesOf_append, Text.linesOf_of_onLine (by decide +kernel),
    Text.linesOf_of_onLine (by decide +kernel)]
  rfl

/-- The offense has two lines, and the second one reads like an error of a file `b.rb`. -/
theorem lines_of_summary_forged :
    (catalogueAuditor.auditPaths forgedFiles false ["a.rb", "c.rb"]).value = .ok forgedReport ∧
      (linesOf forgedReport.summary).take 2 =
        ["a.rb:2:3: C: FormulaAudit/UsesFromMacos: `uses_from_macos` should only be used for " ++
          "macOS dependencies, not 'q'.", "b.rb:1:1: F: Lint/Syntax: 's'."] ∧
      ∃ path f, catalogueAuditor.formulaAt forgedFiles path = .ok f ∧
        UsesFromMacos.NamesLines f := by
  have hcops : ∀ c ∈ catalogueAuditor.cops, c.rule.Supplied := by
    intro c hc
    obtain ⟨r, hr, rfl⟩ := List.mem_map.mp hc
    exact .inl hr
  obtain ⟨report, hreport, -, hiff⟩ := lines_of_summary catalogueAuditor hcops
    (show forgedFiles.discover false ["a.rb", "c.rb"] = .ok [⟨0, ["a.rb"]⟩, ⟨0, ["c.rb"]⟩] from rfl)
    (by decide +kernel)
  obtain rfl : forgedReport = report :=
    Except.ok.inj (value_auditPaths_forged.symm.trans hreport)
  refine ⟨value_auditPaths_forged, ?_, ?_⟩
  · rw [linesOf_summary_forgedReport]
    rfl
  · obtain ⟨hoffenses, herrors, hclosing⟩ := entries_forgedReport
    rw [hoffenses, herrors, hclosing, linesOf_summary_forgedReport] at hiff
    have hbroken := mt hiff.mpr (fun h => absurd (congrArg List.length h) (by decide))
    rw [not_not] at hbroken
    obtain ⟨_, _, _, path, _, f, hf, hnames⟩ := hbroken
    exact ⟨path, f, hf, hnames⟩

/-- The text of `a.rb` alone puts a line into the summary that is for no offense and no error. -/
theorem exists_forged_line :
    ∃ report, (catalogueAuditor.auditPaths forgedFiles false ["a.rb", "c.rb"]).value = .ok report ∧
      OnLine "a.rb" ∧ OnLine "c.rb" ∧
      "b.rb:1:1: F: Lint/Syntax: 's'." ∈ linesOf report.summary ∧
      linesOf report.summary ≠
        report.diagnostics.map Report.offenseLine ++ report.errors.map Report.errorLine ++
          report.closingLines := by
  obtain ⟨hoffenses, herrors, hclosing⟩ := entries_forgedReport
  refine ⟨forgedReport, value_auditPaths_forged, by decide, by decide, ?_, ?_⟩
  · rw [linesOf_summary_forgedReport]
    exact List.mem_cons_of_mem _ List.mem_cons_self
  · rw [linesOf_summary_forgedReport, hoffenses, herrors, hclosing]
    exact fun h => absurd (congrArg List.length h) (by decide)

end Auditor

end TapLint
