/-
The numbers of a report are exact.

A report keeps its tally as results and errors come in.  Of the tally, the hard part is the count
by cop, which starts an entry for a name that is new and raises the entry of one that is not:

* `census` — the names of a list, in the order in which they come up, with the number of times
  that they do;
* `increment_census` — counting one more name gives the census of the longer list;
* `byCop_foldl_count` — so the count by cop is the census of the cops of all offenses.

The main statement is `foldl_enter_exact`.
-/
import Mathlib.Algebra.GroupWithZero.Nat
import Mathlib.Data.List.Basic
import Mathlib.Data.List.Induction
import TapLint.Proofs.Reports
import TapLint.Report.Json

namespace TapLint

/-- The value that is found by way of some fields, each inside the one before. -/
def Json.at? : List String → Json → Option Json
  | [], v => some v
  | key :: keys, v => (v.field? key).bind (at? keys)

namespace Tally

/-! ### Names in the order in which they come up -/

variable (names : List String) (n : String)

theorem eraseDups_concat :
    (names ++ [n]).eraseDups = names.eraseDups ++ if n ∈ names then [] else [n] := by
  rw [List.eraseDups_append]
  by_cases h : n ∈ names <;> simp [List.removeAll, List.eraseDups_cons, h]

/-- A name stands before another if it came up before it. -/
theorem pairwise_idxOf_eraseDups :
    names.eraseDups.Pairwise fun m n => names.idxOf m < names.idxOf n := by
  -- names are added at the end, where one that is new stands after all others
  induction names using List.reverseRecOn with
  | nil => exact .nil
  | append_singleton names n ih =>
    have hold : ∀ m ∈ names, (names ++ [n]).idxOf m = names.idxOf m := fun m hm =>
      List.idxOf_append_of_mem hm
    rw [eraseDups_concat, List.pairwise_append]
    refine ⟨ih.imp_of_mem fun {k m} hk hm hlt => ?_, ?_, fun m hm k hk => ?_⟩
    · rwa [hold k (List.mem_eraseDups.mp hk), hold m (List.mem_eraseDups.mp hm)]
    · split
      · exact .nil
      · exact List.pairwise_singleton _ n
    · split at hk
      next => exact absurd hk List.not_mem_nil
      next hnew =>
        rw [List.mem_singleton.mp hk, hold m (List.mem_eraseDups.mp hm),
          List.idxOf_append_of_notMem hnew]
        have hlt := List.idxOf_lt_length_of_mem (List.mem_eraseDups.mp hm)
        omega

theorem nodup_eraseDups : names.eraseDups.Nodup :=
  (pairwise_idxOf_eraseDups names).imp fun h heq => by
    rw [heq] at h
    exact Nat.lt_irrefl _ h

/-! ### The census -/

/-- The names among some, in the order in which they come up, each with the number of times that
it does. -/
def census : List (String × Nat) := names.eraseDups.map fun m => (m, names.count m)

theorem keys_census : (census names).map Prod.fst = names.eraseDups := by
  rw [census, List.map_map]
  exact List.map_id _

theorem mem_census_iff {names : List String} {n : String} {k : Nat} :
    (n, k) ∈ census names ↔ 0 < k ∧ k = names.count n := by
  rw [census, List.mem_map]
  constructor
  · rintro ⟨m, hm, heq⟩
    cases heq
    exact ⟨List.count_pos_iff.mpr (List.mem_eraseDups.mp hm), rfl⟩
  · rintro ⟨hpos, rfl⟩
    exact ⟨n, List.mem_eraseDups.mpr (List.count_pos_iff.mp hpos), rfl⟩

variable {n} {keys : List String} {f : String → Nat}

/-- Raising the number of a name changes nothing where it does not stand. -/
theorem map_raised_of_not_mem (h : n ∉ keys) :
    (keys.map fun m => (m, f m + if n = m then 1 else 0)) = keys.map fun m => (m, f m) := by
  refine List.map_congr_left fun m hm => ?_
  have hne : n ≠ m := fun heq => h (heq ▸ hm)
  rw [if_neg hne, Nat.add_zero]

theorem increment_of_not_mem (h : n ∉ keys) :
    increment n (keys.map fun m => (m, f m)) = (keys.map fun m => (m, f m)) ++ [(n, 1)] := by
  induction keys with
  | nil => rfl
  | cons key keys ih =>
    obtain ⟨hne, hrest⟩ := List.ne_and_not_mem_of_not_mem_cons h
    rw [List.map_cons, increment, if_neg (Ne.symm hne), ih hrest, List.cons_append]

theorem increment_of_mem (hkeys : keys.Nodup) (h : n ∈ keys) :
    increment n (keys.map fun m => (m, f m)) =
      keys.map fun m => (m, f m + if n = m then 1 else 0) := by
  induction keys with
  | nil => exact absurd h List.not_mem_nil
  | cons key keys ih =>
    obtain ⟨hkey, hkeys⟩ := List.nodup_cons.mp hkeys
    rw [List.map_cons, List.map_cons, increment]
    by_cases heq : key = n
    · subst heq
      -- the entry is raised here, and there is no other of the name behind it
      rw [if_pos rfl, if_pos rfl, map_raised_of_not_mem hkey]
    · have hmem : n ∈ keys := (List.mem_cons.mp h).resolve_left (Ne.symm heq)
      rw [if_neg heq, if_neg (Ne.symm heq), ih hkeys hmem, Nat.add_zero]

/-- Counting one more name gives the census of the longer list. -/
theorem increment_census (n : String) : increment n (census names) = census (names ++ [n]) := by
  have hcount : ∀ m, (names ++ [n]).count m = names.count m + if n = m then 1 else 0 := by
    intro m
    rw [List.count_append, List.count_singleton]
    simp only [beq_iff_eq]
  rw [census, census, eraseDups_concat]
  simp only [hcount]
  by_cases h : n ∈ names
  · rw [if_pos h, List.append_nil]
    exact increment_of_mem (nodup_eraseDups names) (List.mem_eraseDups.mpr h)
  · have hnew : n ∉ names.eraseDups := fun hmem => h (List.mem_eraseDups.mp hmem)
    rw [if_neg h, List.map_append, map_raised_of_not_mem hnew, List.map_singleton, if_pos rfl,
      List.count_eq_zero_of_not_mem h]
    exact increment_of_not_mem hnew

theorem foldl_increment_census (new : List String) :
    new.foldl (fun counts n => increment n counts) (census names) = census (names ++ new) := by
  induction new generalizing names with
  | nil => rw [List.foldl_nil, List.append_nil]
  | cons n new ih =>
    rw [List.foldl_cons, increment_census, ih, List.append_assoc, List.singleton_append]

theorem sum_increment (n : String) (counts : List (String × Nat)) :
    ((increment n counts).map Prod.snd).sum = (counts.map Prod.snd).sum + 1 := by
  induction counts with
  | nil => rfl
  | cons entry counts ih =>
    obtain ⟨m, k⟩ := entry
    rw [increment]
    split
    · simp only [List.map_cons, List.sum_cons]
      omega
    · simp only [List.map_cons, List.sum_cons, ih]
      omega

/-- The numbers of a census add up to the length of the list. -/
theorem sum_census : ((census names).map Prod.snd).sum = names.length := by
  induction names using List.reverseRecOn with
  | nil => rfl
  | append_singleton names n ih =>
    rw [← increment_census, sum_increment, ih, List.length_append, List.length_singleton]

/-! ### The tally of some results -/

/-- The cops of all offenses of some results, in their order. -/
def copNames (results : List AuditResult) : List String :=
  (results.flatMap (·.diagnostics)).map (·.copName)

theorem copNames_append (results more : List AuditResult) :
    copNames (results ++ more) = copNames results ++ copNames more := by
  rw [copNames, List.flatMap_append, List.map_append]
  rfl

/-- A result adds the cops of its offenses to the census. -/
theorem byCop_count {t : Tally} {names : List String} (h : t.byCop = census names)
    (r : AuditResult) : (t.count r).byCop = census (names ++ copNames [r]) := by
  have hnames : copNames [r] = r.diagnostics.map (·.copName) := by
    rw [copNames, List.flatMap_singleton]
  rw [hnames, ← foldl_increment_census, ← h, List.foldl_map]
  rfl

theorem byCop_foldl_count (results : List AuditResult) :
    (results.foldl count {}).byCop = census (copNames results) := by
  induction results using List.reverseRecOn with
  | nil => rfl
  | append_singleton results r ih =>
    rw [List.foldl_append, List.foldl_cons, List.foldl_nil, byCop_count ih, copNames_append]

/-- The numbers of a tally are those of some results. -/
structure IsExact (t : Tally) (results : List AuditResult) : Prop where
  files : t.files = results.length
  offenses : t.offenses = (results.map (·.diagnostics.length)).sum
  passed : t.passed = results.countP (·.diagnostics = [])
  /-- Counted are the cops that have offenses, each with their number, and no others. -/
  mem_byCop : ∀ n k, (n, k) ∈ t.byCop ↔ 0 < k ∧ k = (copNames results).count n
  /-- A cop is listed, once, where its first offense puts it. -/
  order : (t.byCop.map Prod.fst).Pairwise fun m n =>
    (copNames results).idxOf m < (copNames results).idxOf n
  sum_byCop : (t.byCop.map Prod.snd).sum = t.offenses

theorem length_flatMap_diagnostics (results : List AuditResult) :
    (results.flatMap (·.diagnostics)).length = (results.map (·.diagnostics.length)).sum :=
  List.length_flatMap

/-- Counting results one by one is exact. -/
theorem isExact_foldl_count (results : List AuditResult) :
    (results.foldl count {}).IsExact results where
  files := by rw [files_foldl_count, Nat.zero_add]
  offenses := by rw [offenses_foldl_count, Nat.zero_add, length_flatMap_diagnostics]
  passed := by
    rw [passed_foldl_count, Nat.zero_add]
    refine List.countP_congr fun r _ => ?_
    rw [AuditResult.passed, List.isEmpty_iff, decide_eq_true_eq]
  mem_byCop n k := by rw [byCop_foldl_count, mem_census_iff]
  order := by
    rw [byCop_foldl_count, keys_census]
    exact pairwise_idxOf_eraseDups (copNames results)
  sum_byCop := by
    rw [byCop_foldl_count, sum_census, copNames, List.length_map, offenses_foldl_count,
      Nat.zero_add]

end Tally

namespace Auditor

theorem foldl_enter_empty (now : Moment) (outcomes : List (Except AuditError AuditResult)) :
    outcomes.foldl enter { timestamp := now } =
      { results := resultsOf outcomes
        errors := errorsOf outcomes
        tally := (resultsOf outcomes).foldl Tally.count {}
        timestamp := now } :=
  foldl_enter outcomes { timestamp := now }

/-- **The numbers of a report are exact.**  Whatever results and errors are added to an empty
report, in whatever order, its tally has the numbers of the results, and its JSON value the
number of the errors and both lists as they came in.  Errors that come in elsewhere among the
results make no difference. -/
theorem foldl_enter_exact (now : Moment) (outcomes : List (Except AuditError AuditResult)) :
    let report : Report := outcomes.foldl enter { timestamp := now }
    report.tally.IsExact (resultsOf outcomes) ∧
      report.results = resultsOf outcomes ∧ report.errors = errorsOf outcomes ∧
      report.toJson.at? ["summary", "failed_files"] = some (.int (errorsOf outcomes).length) ∧
      report.toJson.at? ["results"] =
        some (.array ((resultsOf outcomes).map AuditResult.toJson)) ∧
      report.toJson.at? ["errors"] = some (.array ((errorsOf outcomes).map AuditError.toJson)) ∧
      ∀ outcomes', resultsOf outcomes' = resultsOf outcomes →
        errorsOf outcomes' = errorsOf outcomes →
        outcomes'.foldl enter { timestamp := now } = report := by
  intro report
  have hreport : report = _ := foldl_enter_empty now outcomes
  refine ⟨?_, ?_, ?_, ?_, ?_, ?_, fun outcomes' hresults herrors => ?_⟩
  · rw [hreport]
    exact Tally.isExact_foldl_count (resultsOf outcomes)
  · rw [hreport]
  · rw [hreport]
  · rw [hreport]
    rfl
  · rw [hreport]
    rfl
  · rw [hreport]
    rfl
  · rw [hreport, foldl_enter_empty, hresults, herrors]

/-- A result with one offense for each of some cops. -/
def resultWith (cops : List String) : AuditResult :=
  { formulaName := some "a"
    diagnostics := cops.map fun cop => { copName := cop, message := "", location := default }
    timestamp := default }

/-- Two errors among two results, and before both of them. -/
theorem foldl_enter_exact_resultWith :
    let outcomes := [.ok (resultWith ["q", "p", "q"]), .error { path := "b.rb", message := "" },
      .ok (resultWith []), .error { path := "d.rb", message := "" }]
    let outcomes' := [.error { path := "b.rb", message := "" },
      .error { path := "d.rb", message := "" }, .ok (resultWith ["q", "p", "q"]),
      .ok (resultWith [])]
    let report : Report := outcomes.foldl enter { timestamp := default }
    outcomes'.foldl enter { timestamp := default } = report ∧
      report.tally = { files := 2, offenses := 3, passed := 1, byCop := [("q", 2), ("p", 1)] } ∧
      report.toJson.at? ["summary", "failed_files"] = some (.int 2) := by
  intro outcomes outcomes' report
  obtain ⟨-, -, -, hfailed, -, -, hsame⟩ := foldl_enter_exact default outcomes
  exact ⟨hsame outcomes' rfl rfl, by decide, hfailed⟩

end Auditor

end TapLint
