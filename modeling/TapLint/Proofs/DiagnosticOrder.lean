/-
The order of the diagnostics.

The diagnostics of a formula are listed cop by cop and then sorted by place and cop
name alone, so several of one call are tied.  Sorting keeps tied members in the order in
which they were listed, and ties never cross cops:

* `filter_tied_mergeSort` — sorting keeps the order of tied members;
* `eq_of_filter_tied_eq` — a sorted list is known by its stretches of tied members;
* `tied_precedes_iff` — diagnostics are tied if they have one place and one cop;
* `nodup_names_select` — the cops that a policy selects have different names.

The main statement is `audit_of_perm`: the order of the cops does not show in what they
report.
-/
import TapLint.Audit.Auditor
import TapLint.Policy.Basic
import TapLint.Proofs.Offenses
import TapLint.Proofs.UnconditionalDependencies

namespace TapLint

/-! ### Sorted lists with ties -/

section Ties

variable {α : Type} {le : α → α → Bool}

/-- Whether each of two members may come before the other. -/
def tied (le : α → α → Bool) (a b : α) : Bool := le a b && le b a

theorem tied_iff {a b : α} : tied le a b ↔ le a b ∧ le b a := by
  rw [tied, Bool.and_eq_true]

theorem tied_self (total : ∀ a b : α, le a b || le b a) (a : α) : tied le a a := by
  have h := total a a
  rw [Bool.or_self] at h
  exact tied_iff.mpr ⟨h, h⟩

/-- Sorting keeps the order of some members, if they are in order before. -/
theorem filter_mergeSort (trans : ∀ a b c : α, le a b → le b c → le a c)
    (total : ∀ a b : α, le a b || le b a) {l : List α} {p : α → Bool}
    (h : (l.filter p).Pairwise fun a b => le a b) : (l.mergeSort le).filter p = l.filter p := by
  have hsub : (l.filter p).Sublist (l.mergeSort le) :=
    List.sublist_mergeSort trans total h List.filter_sublist
  -- all the members that pass are there already, so there is no room for others
  have hpassed := hsub.filter p
  simp only [List.filter_filter, Bool.and_self] at hpassed
  have hlength := ((List.mergeSort_perm l le).filter p).length_eq
  exact (hpassed.eq_of_length hlength.symm).symm

/-- Sorting keeps the members that are tied with `x` in their order. -/
theorem filter_tied_mergeSort (trans : ∀ a b c : α, le a b → le b c → le a c)
    (total : ∀ a b : α, le a b || le b a) (l : List α) (x : α) :
    (l.mergeSort le).filter (tied le x) = l.filter (tied le x) := by
  refine filter_mergeSort trans total (List.Pairwise.imp_of_mem ?_
    (List.pairwise_of_forall (R := fun _ _ => True) ?_))
  · intro a b ha hb _
    have ha := tied_iff.mp (List.mem_filter.mp ha).2
    have hb := tied_iff.mp (List.mem_filter.mp hb).2
    exact trans a x b ha.2 hb.1
  · exact fun _ _ => trivial

/-- A sorted list is known by its stretches of tied members. -/
theorem eq_of_filter_tied_eq (total : ∀ a b : α, le a b || le b a) {xs ys : List α}
    (hxs : xs.Pairwise fun a b => le a b) (hys : ys.Pairwise fun a b => le a b)
    (h : ∀ x, xs.filter (tied le x) = ys.filter (tied le x)) : xs = ys := by
  have hmem : ∀ x, x ∈ xs ↔ x ∈ ys := by
    intro x
    have hx : x ∈ xs.filter (tied le x) ↔ x ∈ ys.filter (tied le x) := by rw [h x]
    simpa [tied_self total] using hx
  induction hxs generalizing ys with
  | nil =>
    cases ys with
    | nil => rfl
    | cons y ys => exact absurd ((hmem y).mpr List.mem_cons_self) List.not_mem_nil
  | @cons x xs hx hxs ih =>
    cases hys with
    | nil => exact absurd ((hmem x).mp List.mem_cons_self) List.not_mem_nil
    | @cons y ys hy hys =>
      -- each head may come before the other, so they head the same stretch
      have hxy : le x y := by
        rcases List.mem_cons.mp ((hmem y).mpr List.mem_cons_self) with rfl | hmem
        · exact (tied_iff.mp (tied_self total y)).1
        · exact hx y hmem
      have hyx : le y x := by
        rcases List.mem_cons.mp ((hmem x).mp List.mem_cons_self) with rfl | hmem
        · exact (tied_iff.mp (tied_self total x)).1
        · exact hy x hmem
      have hhead := h x
      rw [List.filter_cons_of_pos (tied_self total x),
        List.filter_cons_of_pos (tied_iff.mpr ⟨hxy, hyx⟩)] at hhead
      obtain ⟨rfl, -⟩ := List.cons.inj hhead
      have htails : ∀ z, xs.filter (tied le z) = ys.filter (tied le z) := by
        intro z
        have hz := h z
        rw [List.filter_cons, List.filter_cons] at hz
        split at hz
        · exact (List.cons.inj hz).2
        · exact hz
      rw [ih hys htails]
      intro z
      have hz : z ∈ xs.filter (tied le z) ↔ z ∈ ys.filter (tied le z) := by rw [htails z]
      simpa [tied_self total] using hz

/-- Two lists with the same stretches of tied members have the same sorted list. -/
theorem mergeSort_eq_of_filter_tied_eq (trans : ∀ a b c : α, le a b → le b c → le a c)
    (total : ∀ a b : α, le a b || le b a) {xs ys : List α}
    (h : ∀ x, xs.filter (tied le x) = ys.filter (tied le x)) :
    xs.mergeSort le = ys.mergeSort le := by
  refine eq_of_filter_tied_eq total (List.pairwise_mergeSort trans total xs)
    (List.pairwise_mergeSort trans total ys) fun x => ?_
  rw [filter_tied_mergeSort trans total, filter_tied_mergeSort trans total, h x]

end Ties

/-! ### The order of diagnostics -/

namespace Diagnostic

theorem precedes_iff {a b : Diagnostic} :
    precedes a b ↔ a.location.start < b.location.start ∨
      a.location.start = b.location.start ∧ a.copName ≤ b.copName := by
  simp [precedes]

theorem precedes_trans (a b c : Diagnostic) (hab : precedes a b) (hbc : precedes b c) :
    precedes a c := by
  rw [precedes_iff] at hab hbc ⊢
  rcases hab with hab | ⟨hab, hnames⟩
  · exact .inl (by omega)
  · rcases hbc with hbc | ⟨hbc, hnames'⟩
    · exact .inl (by omega)
    · exact .inr ⟨hab.trans hbc, String.le_trans hnames hnames'⟩

theorem precedes_total (a b : Diagnostic) : precedes a b || precedes b a := by
  rw [Bool.or_eq_true, precedes_iff, precedes_iff]
  rcases Nat.lt_trichotomy a.location.start b.location.start with h | h | h
  · exact .inl (.inl h)
  · rcases String.le_total a.copName b.copName with hname | hname
    · exact .inl (.inr ⟨h, hname⟩)
    · exact .inr (.inr ⟨h.symm, hname⟩)
  · exact .inr (.inl h)

/-- Diagnostics are tied if they have one place and one cop. -/
theorem tied_precedes_iff {a b : Diagnostic} :
    tied precedes a b ↔ a.location.start = b.location.start ∧ a.copName = b.copName := by
  rw [tied_iff, precedes_iff, precedes_iff]
  constructor
  · rintro ⟨hab | ⟨hab, hnames⟩, hba | ⟨hba, hnames'⟩⟩
    · omega
    · omega
    · omega
    · exact ⟨hab, String.le_antisymm hnames hnames'⟩
  · rintro ⟨hplace, hname⟩
    exact ⟨.inr ⟨hplace, hname ▸ String.le_refl _⟩, .inr ⟨hplace.symm, hname ▸ String.le_refl _⟩⟩

end Diagnostic

/-! ### The order of the cops -/

namespace Cop

theorem copName_of_mem_evaluate {c : Cop} {f : Formula} {d : Diagnostic}
    (h : d ∈ (c.evaluate f).value) : d.copName = c.name := by
  cases hbody : f.body with
  | none =>
    rw [evaluate, hbody] at h
    exact absurd h List.not_mem_nil
  | some body =>
    rw [value_evaluate hbody] at h
    obtain ⟨offense, -, rfl⟩ := List.mem_map.mp h
    rfl

/-- Diagnostics of one cop name come from the cops of that name. -/
theorem filter_evaluate {p : Diagnostic → Bool} {n : String}
    (hp : ∀ d, p d → d.copName = n) (cops : List Cop) (f : Formula) :
    (cops.flatMap fun c => (c.evaluate f).value).filter p =
      (cops.filter (·.name = n)).flatMap fun c => (c.evaluate f).value.filter p := by
  rw [List.filter_flatMap]
  symm
  refine flatMap_filter_eq fun c _ hc => List.filter_eq_nil_iff.mpr fun d hd hpd => ?_
  have hname := hp d hpd
  rw [copName_of_mem_evaluate hd] at hname
  simp [hname] at hc

/-- The diagnostics that are tied with one of them come from the cop that it names. -/
theorem filter_tied_evaluate (cops : List Cop) (f : Formula) (x : Diagnostic) :
    (cops.flatMap fun c => (c.evaluate f).value).filter (tied Diagnostic.precedes x) =
      (cops.filter (·.name = x.copName)).flatMap fun c =>
        (c.evaluate f).value.filter (tied Diagnostic.precedes x) :=
  filter_evaluate (fun _ htied => (Diagnostic.tied_precedes_iff.mp htied).2.symm) cops f

/-- Among cops of different names, at most one has a given name. -/
theorem length_filter_name_le_one {cops : List Cop} (hnames : (cops.map name).Nodup)
    (n : String) : (cops.filter (·.name = n)).length ≤ 1 := by
  have hcount := List.nodup_iff_count.mp hnames n
  rw [List.count, List.countP_map, List.countP_eq_length_filter] at hcount
  exact hcount

/-- Among cops of different names, in whatever order, one name has the same cops. -/
theorem filter_name_eq_of_perm {cops cops' : List Cop} (h : cops.Perm cops')
    (hnames : (cops.map name).Nodup) (n : String) :
    cops.filter (·.name = n) = cops'.filter (·.name = n) := by
  have hperm := h.filter (·.name = n)
  have hone := length_filter_name_le_one hnames n
  generalize cops.filter (·.name = n) = cs at hperm hone ⊢
  match cs with
  | [] => exact (List.nil_perm.mp hperm).symm
  | [c] => exact List.singleton_perm.mp hperm
  | _ :: _ :: _ => simp at hone

/-- Among cops of different names, a cop is known by its name. -/
theorem filter_name_eq_singleton {cops : List Cop} (hnames : (cops.map name).Nodup) {c : Cop}
    (hc : c ∈ cops) : cops.filter (·.name = c.name) = [c] := by
  have hmem : c ∈ cops.filter (·.name = c.name) := List.mem_filter.mpr ⟨hc, by simp⟩
  have hone := length_filter_name_le_one hnames c.name
  generalize cops.filter (·.name = c.name) = cs at hmem hone ⊢
  match cs with
  | [] => exact absurd hmem List.not_mem_nil
  | [d] => rw [List.mem_singleton.mp hmem]
  | _ :: _ :: _ => simp at hone

end Cop

/-! ### The cops of a policy -/

theorem Rule.nodup_names : (Rule.all.map Rule.name).Nodup := by decide

namespace Policy

/-- A policy gives rules as cops without changing their names. -/
theorem names_map_cop (p : Policy) (rules : List Rule) :
    (rules.map p.cop).map Cop.name = rules.map Rule.name := by
  rw [List.map_map]
  rfl

theorem sublist_value_enabledRules (p : Policy) (rules : List Rule) :
    (p.enabledRules rules).value.Sublist rules := by
  induction rules with
  | nil => exact .slnil
  | cons rule rules ih =>
    rw [enabledRules]
    split
    · exact ih.cons_cons rule
    · exact ih.cons rule

/-- What a policy selects are rules of the catalogue, in its order, with the severities of the
policy. -/
theorem exists_rules_of_select {p : Policy} {only : Option (List String)} {cops : List Cop}
    (h : (p.select only).value = .ok cops) :
    ∃ rules : List Rule, rules.Sublist Rule.all ∧ cops = rules.map p.cop := by
  cases only with
  | none =>
    rw [select] at h
    exact ⟨_, sublist_value_enabledRules p Rule.all, (Except.ok.inj h).symm⟩
  | some names =>
    rw [select] at h
    split at h
    · exact ⟨_, List.filter_sublist, (Except.ok.inj h).symm⟩
    · cases h

/-- The cops that a policy selects have different names. -/
theorem nodup_names_select {p : Policy} {only : Option (List String)} {cops : List Cop}
    (h : (p.select only).value = .ok cops) : (cops.map Cop.name).Nodup := by
  obtain ⟨rules, hsub, rfl⟩ := exists_rules_of_select h
  rw [names_map_cop]
  exact Rule.nodup_names.sublist (hsub.map Rule.name)

end Policy

namespace Auditor

theorem value_audit (a : Auditor) (f : Formula) :
    (a.audit f).value =
      { formulaName := some f.name
        path := f.path
        diagnostics := (a.cops.flatMap fun c => (c.evaluate f).value).mergeSort
          Diagnostic.precedes
        copsUsed := a.cops.map Cop.name
        timestamp := a.now } := by
  simp [audit, List.flatMap_def]

/-- Diagnostics that are found in order are listed as they are found. -/
theorem diagnostics_audit_of_sorted {a : Auditor} {f : Formula}
    (h : (a.cops.flatMap fun c => (c.evaluate f).value).Pairwise
      fun d e => Diagnostic.precedes d e) :
    (a.audit f).value.diagnostics = a.cops.flatMap fun c => (c.evaluate f).value := by
  rw [value_audit]
  exact List.mergeSort_of_pairwise h

/-- **The order of the cops does not show in what they report.**  Cops of different
names, put in another order, give the same result, diagnostic by diagnostic, but for the
list of the cops that were asked, which is put in that order as well. -/
theorem audit_of_perm (a : Auditor) (cops : List Cop) (f : Formula) (hperm : a.cops.Perm cops)
    (hnames : (a.cops.map Cop.name).Nodup) :
    ({ a with cops := cops }.audit f).value =
        { (a.audit f).value with copsUsed := cops.map Cop.name } ∧
      (a.audit f).value.copsUsed.Perm ({ a with cops := cops }.audit f).value.copsUsed := by
  rw [value_audit, value_audit]
  refine ⟨?_, hperm.map Cop.name⟩
  have hsorted : (cops.flatMap fun c => (c.evaluate f).value).mergeSort Diagnostic.precedes =
      (a.cops.flatMap fun c => (c.evaluate f).value).mergeSort Diagnostic.precedes := by
    refine mergeSort_eq_of_filter_tied_eq Diagnostic.precedes_trans Diagnostic.precedes_total
      fun x => ?_
    rw [Cop.filter_tied_evaluate, Cop.filter_tied_evaluate,
      Cop.filter_name_eq_of_perm hperm hnames]
  rw [hsorted]

/-- A call with one argument, at no place in particular. -/
def callWith (method : String) (argument : Node) : Node :=
  .node { kind := .call, type := "call", location := default, text := method,
          name := some method, arguments := [0] } [argument]

/-- A formula that requires Linux, takes `q` from macOS and claims that macOS provides
it.  All its nodes stand at one place. -/
def sampleFormula : Formula :=
  { name := "a"
    body := some (Dependencies.dependsOnLinux
      [callWith "uses_from_macos"
        (.node { kind := .string, type := "string", location := default, text := "\"q\"",
                 value := some "q" } []),
       callWith "keg_only"
        (.node { kind := .symbol, type := "simple_symbol", location := default,
                 text := ":provided_by_macos", value := some "provided_by_macos" } [])]) }

/-- With both rules, the second one offended twice: in either order its two offenses come
after that of the first, whose name is smaller. -/
theorem audit_of_perm_sampleFormula :
    let cops := Rule.all.map (Policy.cop {})
    (Policy.select {} none).value = .ok cops ∧ cops.Perm cops.reverse ∧
      (cops.map Cop.name).Nodup ∧
      (Auditor.audit { reader := fun _ => default, cops := cops.reverse, now := default }
          sampleFormula).value.diagnostics.map (·.message) =
        [ProvidedByMacos.message, UsesFromMacos.linuxMessage,
          UsesFromMacos.notProvidedMessage "q"] := by
  intro cops
  have hselect : (Policy.select {} none).value = .ok cops := by rfl
  have hperm : cops.Perm cops.reverse := (List.reverse_perm cops).symm
  have hnames : (cops.map Cop.name).Nodup := Policy.nodup_names_select hselect
  have hsame := (audit_of_perm { reader := fun _ => default, cops := cops, now := default }
    cops.reverse sampleFormula hperm hnames).1
  refine ⟨hselect, hperm, hnames, ?_⟩
  -- the catalogue lists the rules by name already
  have hsorted : (cops.flatMap fun c => (c.evaluate sampleFormula).value).Pairwise
      fun d e => Diagnostic.precedes d e := by decide +kernel
  rw [hsame, value_audit]
  show List.map _ (List.mergeSort (cops.flatMap _) _) = _
  rw [List.mergeSort_of_pairwise hsorted]
  decide +kernel

end Auditor

end TapLint
