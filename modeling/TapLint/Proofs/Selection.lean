/-
Which cops are asked.

A list of names says which cops are wanted, by short names or by qualified ones.  It counts only as
the set of the qualified names that it stands for:

* `Wants` — a list wants a qualified name;
* `pairwise_unknown`, `mem_unknown_iff` — the names that are complained of;
* `select_congr` — lists that want the same names give the same;
* `value_select_none` — what is asked without a list.

The main statement is `select_by_qualified_names`.
-/
import Mathlib.Data.List.Sort
import Mathlib.Data.String.Basic
import TapLint.Proofs.DiagnosticOrder
import TapLint.Proofs.PolicyFields
import TapLint.Proofs.Tallies

namespace TapLint

theorem Rule.qualify_of_slash {name : String} (h : '/' ∈ name.toList) : qualify name = name :=
  if_pos (List.contains_iff_mem.mpr h)

/-- A qualified name stands for itself. -/
theorem Rule.qualify_qualify (name : String) : qualify (qualify name) = qualify name := by
  by_cases h : '/' ∈ name.toList
  · rw [qualify_of_slash h, qualify_of_slash h]
  · have hshort : qualify name = department ++ "/" ++ name :=
      if_neg (mt List.contains_iff_mem.mp h)
    refine qualify_of_slash ?_
    rw [hshort, String.toList_append, String.toList_append]
    exact List.mem_append_left _ (List.mem_append_right _ List.mem_cons_self)

namespace Policy

/-! ### The names that are wanted -/

/-- A list wants a qualified name: one of its names stands for it. -/
def Wants (names : List String) (s : String) : Prop := ∃ n ∈ names, Rule.qualify n = s

instance (names : List String) : DecidablePred (Wants names) :=
  fun s => inferInstanceAs (Decidable (∃ n ∈ names, Rule.qualify n = s))

variable {names names' : List String}

theorem wants_iff_mem {s : String} : Wants names s ↔ s ∈ names.map Rule.qualify :=
  List.mem_map.symm

theorem wants_append {s : String} : Wants (names ++ names') s ↔ Wants names s ∨ Wants names' s := by
  rw [wants_iff_mem, List.map_append, List.mem_append, wants_iff_mem, wants_iff_mem]

/-- A name may be put for its qualified form, and the other way round. -/
theorem wants_cons_qualify {n s : String} :
    Wants (Rule.qualify n :: names) s ↔ Wants (n :: names) s := by
  rw [wants_iff_mem, wants_iff_mem, List.map_cons, List.map_cons, Rule.qualify_qualify]

/-! ### The names that are complained of -/

theorem eraseDups_sublist (names : List String) : names.eraseDups.Sublist names := by
  induction names using List.reverseRecOn with
  | nil => exact .slnil
  | append_singleton names n ih =>
    rw [Tally.eraseDups_concat]
    refine ih.append ?_
    split
    · exact List.nil_sublist [n]
    · exact .refl [n]

/-- The names that are complained of ascend, so that none is repeated. -/
theorem pairwise_unknown (names : List String) : (unknown names).Pairwise (· < ·) := by
  have hsorted := List.pairwise_mergeSort' (· ≤ ·)
    ((names.map Rule.qualify).filter (!Rule.isKnown ·))
  have hle : (unknown names).Pairwise (· ≤ ·) := hsorted.sublist (eraseDups_sublist _)
  have hnodup : (unknown names).Nodup := Tally.nodup_eraseDups _
  exact (hle.and hnodup).imp fun ⟨hab, hne⟩ => lt_of_le_of_ne hab hne

theorem mem_unknown_iff {s : String} :
    s ∈ unknown names ↔ Wants names s ∧ ∀ rule ∈ Rule.all, rule.name ≠ s := by
  have hknown : Rule.isKnown s = false ↔ ∀ rule ∈ Rule.all, rule.name ≠ s := by
    rw [← Bool.not_eq_true, Rule.isKnown_iff]
    push Not
    exact forall₂_congr fun rule _ => ne_comm
  rw [unknown, List.mem_eraseDups, List.mem_mergeSort, List.mem_filter, Bool.not_eq_true', hknown,
    wants_iff_mem]

/-! ### What is selected -/

/-- What is selected has the severities of the policy. -/
theorem severity_of_select {p : Policy} {only : Option (List String)} {cops : List Cop}
    (h : (p.select only).value = .ok cops) {c : Cop} (hc : c ∈ cops) :
    c.severity = p.severityFor c.name := by
  obtain ⟨rules, -, rfl⟩ := exists_rules_of_select h
  obtain ⟨rule, -, rfl⟩ := List.mem_map.mp hc
  rfl

variable (p : Policy)

theorem select_some (names : List String) :
    p.select (some names) =
      pure (if unknown names = [] then
          .ok ((Rule.all.filter fun rule => Wants names rule.name).map p.cop)
        else .error ⟨unknown names⟩) := by
  have hchosen : ∀ rule : Rule,
      (names.map Rule.qualify).contains rule.name = decide (Wants names rule.name) := by
    intro rule
    rw [Bool.eq_iff_iff, List.contains_iff_mem, decide_eq_true_eq, wants_iff_mem]
  rw [select]
  simp only [hchosen]
  cases hunknown : unknown names with
  | nil => rfl
  | cons s strangers => rfl

theorem select_eq_error_iff {e : UnknownCops} :
    (p.select (some names)).value = .error e ↔ unknown names ≠ [] ∧ e = ⟨unknown names⟩ := by
  rw [select_some, Logged.value_pure]
  split
  next hnone => exact iff_of_false nofun fun h => h.1 hnone
  next hsome =>
    rw [Except.error.injEq, and_iff_right hsome]
    exact eq_comm

theorem select_eq_ok_iff {cops : List Cop} :
    (p.select (some names)).value = .ok cops ↔
      unknown names = [] ∧
        cops = (Rule.all.filter fun rule => Wants names rule.name).map p.cop := by
  rw [select_some, Logged.value_pure]
  split
  next hnone =>
    rw [Except.ok.injEq, and_iff_right hnone]
    exact eq_comm
  next hsome => exact iff_of_false nofun fun h => hsome h.1

/-- Lists that want the same names give the same. -/
theorem select_congr (h : ∀ s, Wants names' s ↔ Wants names s) :
    p.select (some names') = p.select (some names) := by
  have hunknown : unknown names' = unknown names := by
    refine (pairwise_unknown names').eq_of_mem_iff (pairwise_unknown names) fun s => ?_
    rw [mem_unknown_iff, mem_unknown_iff, h s]
  rw [select_some, select_some, hunknown]
  simp only [h]

theorem value_enabledRules (rules : List Rule) :
    (p.enabledRules rules).value = rules.filter fun rule => p.isEnabled rule.name := by
  induction rules with
  | nil => rfl
  | cons rule rules ih =>
    rw [enabledRules, List.filter_cons]
    split
    · exact congrArg (rule :: ·) ih
    · exact ih

theorem value_select_none :
    (p.select none).value = .ok ((Rule.all.filter fun rule => p.isEnabled rule.name).map p.cop) := by
  rw [← value_enabledRules]
  rfl

/-- **The set of qualified names selects the cops.**  A list of names is refused exactly if one of
them stands for a name that no rule has, and the complaint lists all such names, ascending and
without repetition.  Otherwise the cops are the rules whose names are wanted, in the order of the
catalogue and each once, whether or not the policy enables them, with its severities.  Two lists
that want the same names give the same; so nothing changes if a list is rearranged, if a name is
repeated, or if a name is put for its qualified form.  Without a list the cops are those that the
policy enables. -/
theorem select_by_qualified_names (names : List String) :
    ((∃ e, (p.select (some names)).value = .error e) ↔
        ∃ n ∈ names, ∀ rule ∈ Rule.all, rule.name ≠ Rule.qualify n) ∧
      (∀ e, (p.select (some names)).value = .error e →
        e.message = "Unknown cop(s): " ++ String.intercalate ", " e.names ∧
          e.names.Pairwise (· < ·) ∧
          ∀ s, s ∈ e.names ↔ Wants names s ∧ ∀ rule ∈ Rule.all, rule.name ≠ s) ∧
      ((∀ n ∈ names, ∃ rule ∈ Rule.all, rule.name = Rule.qualify n) →
        (p.select (some names)).value =
          .ok ((Rule.all.filter fun rule => Wants names rule.name).map p.cop)) ∧
      (∀ cops, (p.select (some names)).value = .ok cops →
        (cops.map Cop.name).Nodup ∧ ∀ c ∈ cops, c.severity = p.severityFor c.name) ∧
      (∀ names', (∀ s, Wants names' s ↔ Wants names s) →
        p.select (some names') = p.select (some names)) ∧
      (∀ names', names'.Perm names → p.select (some names') = p.select (some names)) ∧
      (∀ n ∈ names, p.select (some (n :: names)) = p.select (some names)) ∧
      (∀ before n after, names = before ++ n :: after →
        p.select (some (before ++ Rule.qualify n :: after)) = p.select (some names)) ∧
      (p.select none).value =
        .ok ((Rule.all.filter fun rule => p.isEnabled rule.name).map p.cop) := by
  refine ⟨?_, ?_, ?_, ?_, fun names' => p.select_congr, ?_, ?_, ?_, p.value_select_none⟩
  · constructor
    · rintro ⟨e, he⟩
      obtain ⟨s, hs⟩ := List.exists_mem_of_ne_nil _ (p.select_eq_error_iff.mp he).1
      obtain ⟨⟨n, hn, rfl⟩, hnone⟩ := mem_unknown_iff.mp hs
      exact ⟨n, hn, hnone⟩
    · rintro ⟨n, hn, hnone⟩
      have hs : Rule.qualify n ∈ unknown names := mem_unknown_iff.mpr ⟨⟨n, hn, rfl⟩, hnone⟩
      exact ⟨_, p.select_eq_error_iff.mpr ⟨List.ne_nil_of_mem hs, rfl⟩⟩
  · intro e he
    rw [(p.select_eq_error_iff.mp he).2]
    exact ⟨rfl, pairwise_unknown names, fun s => mem_unknown_iff⟩
  · intro hknown
    refine p.select_eq_ok_iff.mpr ⟨List.eq_nil_iff_forall_not_mem.mpr fun s hs => ?_, rfl⟩
    obtain ⟨⟨n, hn, rfl⟩, hnone⟩ := mem_unknown_iff.mp hs
    obtain ⟨rule, hrule, hname⟩ := hknown n hn
    exact hnone rule hrule hname
  · intro cops hcops
    exact ⟨nodup_names_select hcops, fun c => severity_of_select hcops⟩
  · intro names' hperm
    refine p.select_congr fun s => ?_
    rw [wants_iff_mem, wants_iff_mem, (hperm.map Rule.qualify).mem_iff]
  · intro n hn
    refine p.select_congr fun s => ⟨?_, fun ⟨m, hm, hs⟩ => ⟨m, List.mem_cons_of_mem n hm, hs⟩⟩
    rintro ⟨m, hm, hs⟩
    rcases List.mem_cons.mp hm with rfl | hm
    · exact ⟨m, hn, hs⟩
    · exact ⟨m, hm, hs⟩
  · rintro before n after rfl
    refine p.select_congr fun s => ?_
    rw [wants_append, wants_append, wants_cons_qualify]

/-- A policy that disables a cop. -/
def lenientPolicy : Policy :=
  { settings := [("FormulaAudit/ProvidedByMacos", { enabled := false })] }

/-- A disabled cop is asked if it is named, once however often that is; and of several names that
no rule has, all are complained of. -/
theorem select_by_qualified_names_lenientPolicy :
    lenientPolicy.select (some ["ProvidedByMacos", "FormulaAudit/ProvidedByMacos"]) =
        lenientPolicy.select (some ["ProvidedByMacos"]) ∧
      (lenientPolicy.select (some ["ProvidedByMacos"])).value =
        .ok [lenientPolicy.cop ProvidedByMacos.rule] ∧
      ∃ e, (lenientPolicy.select (some ["Lint/A", "UsesFromMacos", "z"])).value = .error e ∧
        e.message = "Unknown cop(s): FormulaAudit/z, Lint/A" := by
  have hboth : ["ProvidedByMacos", "FormulaAudit/ProvidedByMacos"].map Rule.qualify =
      ["FormulaAudit/ProvidedByMacos", "FormulaAudit/ProvidedByMacos"] := by decide +kernel
  have hshort : ["ProvidedByMacos"].map Rule.qualify = ["FormulaAudit/ProvidedByMacos"] := by
    decide +kernel
  have hstrangers : ["Lint/A", "UsesFromMacos", "z"].map Rule.qualify =
      ["Lint/A", "FormulaAudit/UsesFromMacos", "FormulaAudit/z"] := by
    decide +kernel
  obtain ⟨-, -, hchosen, -, hsame, -⟩ :=
    lenientPolicy.select_by_qualified_names ["ProvidedByMacos"]
  obtain ⟨hrefused, hcomplaint, -⟩ :=
    lenientPolicy.select_by_qualified_names ["Lint/A", "UsesFromMacos", "z"]
  refine ⟨hsame _ fun s => ?_, hchosen (by decide +kernel), ?_⟩
  · simp only [wants_iff_mem, hboth, hshort, List.mem_cons, or_self_left]
  · obtain ⟨e, he⟩ := hrefused.mpr ⟨"Lint/A", List.mem_cons_self, by decide⟩
    obtain ⟨hmessage, hsorted, hmem⟩ := hcomplaint e he
    have hnames : e.names = ["FormulaAudit/z", "Lint/A"] := by
      refine hsorted.eq_of_mem_iff (by decide +kernel) fun s => ?_
      rw [hmem s, wants_iff_mem, hstrangers]
      simp only [List.mem_cons, List.not_mem_nil, or_false]
      constructor
      · rintro ⟨rfl | rfl | rfl, hnone⟩
        · exact .inr rfl
        · exact absurd rfl (hnone UsesFromMacos.rule (.tail _ (.head _)))
        · exact .inl rfl
      · rintro (rfl | rfl)
        · exact ⟨.inr (.inr rfl), by decide⟩
        · exact ⟨.inl rfl, by decide⟩
    refine ⟨e, he, ?_⟩
    rw [hmessage, hnames]
    decide +kernel

end Policy

end TapLint
