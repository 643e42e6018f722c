/-
Diagnostics in reading order.

Diagnostics are sorted by the offset where they begin, and what a reader sees are lines
and columns.  A position moves forward with every byte that is read, so the two orders
agree:

* `Position.counted_mono` — a later offset has no earlier position;
* `Node.begins_of_mem` — the nodes of a converted tree have the positions of their offsets;
* `Cop.filter_copName_evaluate` — among cops of different names, the diagnostics with the
  name of a cop are those that it reported;
* `Cop.exists_node_of_mem_evaluate` — a cop that follows the walk reports nodes of the body.

The main statement is `audit_in_reading_order`.
-/
import Mathlib.Data.Prod.Lex
import TapLint.Proofs.SourceOrder
import TapLint.Proofs.Traceability

namespace TapLint

/-! ### The order of positions -/

namespace Position

/-- The line and the column, of which the line counts first. -/
def key (p : Position) : Nat ×ₗ Nat := toLex (p.line, p.column)

theorem key_injective : Function.Injective key := by
  intro p q h
  cases p
  cases q
  simpa [key] using h

/-- Reading order: line after line, and within a line column after column. -/
instance : LinearOrder Position := LinearOrder.lift' key key_injective

theorem le_iff {p q : Position} :
    p ≤ q ↔ p.line < q.line ∨ p.line = q.line ∧ p.column ≤ q.column :=
  Prod.Lex.le_iff

theorem lt_iff {p q : Position} :
    p < q ↔ p.line < q.line ∨ p.line = q.line ∧ p.column < q.column :=
  Prod.Lex.lt_iff

theorem lt_advance (p : Position) (b : UInt8) : p < p.advance b := by
  rw [lt_iff, advance]
  split
  · exact .inl (Nat.lt_succ_self p.line)
  · exact .inr ⟨rfl, Nat.lt_succ_self p.column⟩

theorem le_afterFrom (p : Position) (bytes : List UInt8) : p ≤ afterFrom p bytes := by
  induction bytes generalizing p with
  | nil => exact le_refl p
  | cons b bytes ih => exact (lt_advance p b).le.trans (ih (p.advance b))

/-- A later offset has no earlier position. -/
theorem counted_mono (data : List UInt8) : Monotone (counted data) := by
  intro i j hij
  obtain ⟨k, rfl⟩ := Nat.exists_eq_add_of_le hij
  -- the position at `i + k` is reached from the one at `i` by reading on
  have hread : after (data.take (i + k)) =
      afterFrom (after (data.take i)) ((data.drop i).take k) := by
    rw [List.take_add, after, afterFrom, List.foldl_append]
    rfl
  rw [← after_take, ← after_take, hread]
  exact le_afterFrom _ _

end Position

/-- Where a location begins, as it is read. -/
def Location.begins (l : Location) : Position := ⟨l.line, l.column⟩

/-! ### Locations in a text -/

/-- The position of an offset is counted in the text, also that of an offset beyond its end. -/
theorem Source.position_ofText_eq_counted (path : Option String) (text : String) (i : Nat) :
    (ofText path text).position i = .counted (Utf8.bytes text) i := by
  by_cases h : i ≤ text.utf8ByteSize
  · exact position_ofText path h
  · rw [← Utf8.length_bytes, Nat.not_le] at h
    have hbeyond : (Position.table (Utf8.bytes text))[i]? = none := by
      have hfirst : ¬i < (#[Position.origin] : Array Position).size := by simp; omega
      have hlast : ¬i < (#[Position.origin] : Array Position).size +
          (Utf8.bytes text).length := by simp; omega
      rw [Position.table, Position.tableFrom_getElem?, if_neg hfirst, if_neg hlast]
    show (Position.table (Utf8.bytes text))[i]?.getD (Position.after (Utf8.bytes text)) = _
    rw [hbeyond, Option.getD_none, ← Position.after_take, List.take_of_length_le (Nat.le_of_lt h)]

/-- The nodes of a converted tree have the lines and columns of their offsets. -/
theorem Node.begins_of_mem {path : Option String} {text : String} {t : Ruby.Tree} {n : Node}
    (h : n ∈ (ofTree (.ofText path text) t).preorder) :
    n.location.begins = .counted (Utf8.bytes text) n.location.start := by
  obtain ⟨r, -, s, -, hlocation, -⟩ := exists_stretch_of_mem h
  rw [hlocation, ← Source.position_ofText_eq_counted path text]
  rfl

/-! ### The diagnostics of a cop -/

theorem Diagnostic.start_le_of_precedes {d e : Diagnostic} (h : precedes d e) :
    d.location.start ≤ e.location.start := by
  rcases precedes_iff.mp h with hlt | ⟨heq, -⟩
  · exact Nat.le_of_lt hlt
  · exact Nat.le_of_eq heq

namespace Cop

/-- Among cops of different names, the diagnostics with the name of a cop are those that it
reported. -/
theorem filter_copName_evaluate {cops : List Cop} (hnames : (cops.map name).Nodup) {c : Cop}
    (hc : c ∈ cops) (f : Formula) :
    (cops.flatMap fun c => (c.evaluate f).value).filter (·.copName == c.name) =
      (c.evaluate f).value := by
  rw [filter_evaluate (fun d hd => eq_of_beq hd), filter_name_eq_singleton hnames hc,
    List.flatMap_singleton]
  refine List.filter_eq_self.mpr fun d hd => ?_
  rw [copName_of_mem_evaluate hd]
  exact beq_self_eq_true c.name

/-- The diagnostics of one cop are in order if they are so by their offsets. -/
theorem pairwise_precedes_evaluate {c : Cop} {f : Formula}
    (h : (c.evaluate f).value.Pairwise fun d e => d.location.start ≤ e.location.start) :
    (c.evaluate f).value.Pairwise fun d e => Diagnostic.precedes d e := by
  refine h.imp_of_mem fun {d e} hd he hde => Diagnostic.precedes_iff.mpr ?_
  rw [copName_of_mem_evaluate hd, copName_of_mem_evaluate he]
  rcases Nat.lt_or_eq_of_le hde with hlt | heq
  · exact .inl hlt
  · exact .inr ⟨heq, String.le_refl _⟩

/-- A cop that follows the walk reports nodes of the body. -/
theorem exists_node_of_mem_evaluate {c : Cop} (hc : c.rule.FollowsWalk) {f : Formula}
    {d : Diagnostic} (hd : d ∈ (c.evaluate f).value) :
    ∃ body n, f.body = some body ∧ n ∈ Node.walk body ∧ d.location = n.location := by
  obtain ⟨body, offense, hbody, hoffense, rfl⟩ := exists_offense_of_mem_evaluate hd
  exact ⟨body, offense.2, hbody, hc.mem_walk hoffense, rfl⟩

end Cop

/-! ### The diagnostics of a formula -/

namespace Auditor

section

variable (a : Auditor) (f : Formula)

theorem pairwise_precedes_audit :
    (a.audit f).value.diagnostics.Pairwise fun d e => Diagnostic.precedes d e := by
  rw [value_audit]
  exact List.pairwise_mergeSort Diagnostic.precedes_trans Diagnostic.precedes_total _

/-- Sorting keeps the diagnostics of one place and one cop name in their order. -/
theorem filter_key_audit (offset : Nat) (name : String) :
    (a.audit f).value.diagnostics.filter
        (fun d => d.location.start = offset ∧ d.copName = name) =
      (a.cops.flatMap fun c => (c.evaluate f).value).filter
        fun d => d.location.start = offset ∧ d.copName = name := by
  rw [value_audit]
  refine filter_mergeSort Diagnostic.precedes_trans Diagnostic.precedes_total
    (List.pairwise_of_forall_mem_list fun d hd e he => Diagnostic.precedes_iff.mpr ?_)
  have hd := of_decide_eq_true (List.mem_filter.mp hd).2
  have he := of_decide_eq_true (List.mem_filter.mp he).2
  have hsame : d.copName = e.copName := hd.2.trans he.2.symm
  exact .inr ⟨hd.1.trans he.1.symm, hsame ▸ String.le_refl _⟩

/-- What a cop reports is listed as it reported it, just if it did so in the order of the
offsets. -/
theorem ofCop_audit_eq_iff (hnames : (a.cops.map Cop.name).Nodup) {c : Cop} (hc : c ∈ a.cops) :
    (a.audit f).value.ofCop c.name = (c.evaluate f).value ↔
      (c.evaluate f).value.Pairwise fun d e => d.location.start ≤ e.location.start := by
  have hfound := Cop.filter_copName_evaluate hnames hc f
  constructor
  · intro h
    rw [← h, AuditResult.ofCop]
    exact ((a.pairwise_precedes_audit f).filter _).imp Diagnostic.start_le_of_precedes
  · intro h
    rw [AuditResult.ofCop, value_audit]
    rw [filter_mergeSort Diagnostic.precedes_trans Diagnostic.precedes_total, hfound]
    rw [hfound]
    exact Cop.pairwise_precedes_evaluate h

/-- Diagnostics at offsets of one source are read in the order in which they are listed. -/
theorem pairwise_begins_audit (data : List UInt8)
    (h : ∀ d ∈ (a.audit f).value.diagnostics,
      d.location.begins = .counted data d.location.start) :
    (a.audit f).value.diagnostics.Pairwise fun d e => d.location.begins ≤ e.location.begins := by
  refine (a.pairwise_precedes_audit f).imp_of_mem fun {d e} hd he hde => ?_
  rw [h d hd, h e he]
  exact Position.counted_mono data (Diagnostic.start_le_of_precedes hde)

end

/-- **Sorting loses nothing and gives reading order.**  The diagnostics of a formula are all
that the cops reported, ordered by offset and cop name, those of one offset and one name in
the order in which they were reported.  They are in the order of lines and columns if these
are the ones of their offsets in one source.  Among cops of different names, what one cop
reports is listed as it reported it, just if it did so in the order of the offsets.

The supplied rules follow the walk over the body.  Of cops that do it is enough to know the
nodes of the body: that they have the lines and columns of their offsets, and that they come
in the order of these. -/
theorem audit_in_reading_order (a : Auditor) (f : Formula) :
    let found := a.cops.flatMap fun c => (c.evaluate f).value
    let r := (a.audit f).value
    r.diagnostics.Perm found ∧
      (r.diagnostics.Pairwise fun d e =>
        d.location.start < e.location.start ∨
          d.location.start = e.location.start ∧ d.copName ≤ e.copName) ∧
      (∀ offset name,
        r.diagnostics.filter (fun d => d.location.start = offset ∧ d.copName = name) =
          found.filter fun d => d.location.start = offset ∧ d.copName = name) ∧
      (∀ data, (∀ d ∈ found, d.location.begins = .counted data d.location.start) →
        r.diagnostics.Pairwise fun d e => d.location.begins ≤ e.location.begins) ∧
      ((a.cops.map Cop.name).Nodup → ∀ c ∈ a.cops,
        (r.ofCop c.name = (c.evaluate f).value ↔
          (c.evaluate f).value.Pairwise fun d e => d.location.start ≤ e.location.start)) ∧
      (∀ c : Cop, c.rule.Supplied → c.rule.FollowsWalk) ∧
      ((∀ c ∈ a.cops, c.rule.FollowsWalk) →
        (∀ data, (∀ body ∈ f.body, ∀ n ∈ Node.walk body,
            n.location.begins = .counted data n.location.start) →
          r.diagnostics.Pairwise fun d e => d.location.begins ≤ e.location.begins) ∧
        ((∀ body ∈ f.body, body.walk.Pairwise fun m n => m.location.start ≤ n.location.start) →
          (a.cops.map Cop.name).Nodup →
          ∀ c ∈ a.cops, r.ofCop c.name = (c.evaluate f).value)) := by
  intro found r
  have hperm : r.diagnostics.Perm found := by
    show (a.audit f).value.diagnostics.Perm _
    rw [value_audit]
    exact List.mergeSort_perm _ _
  have hbegins : ∀ data, (∀ d ∈ found, d.location.begins = .counted data d.location.start) →
      r.diagnostics.Pairwise fun d e => d.location.begins ≤ e.location.begins :=
    fun data h => a.pairwise_begins_audit f data fun d hd => h d (hperm.mem_iff.mp hd)
  refine ⟨hperm, ?_, a.filter_key_audit f, hbegins,
    fun hnames c => a.ofCop_audit_eq_iff f hnames, fun c hc => hc.followsWalk, fun hfollow => ?_⟩
  · exact (a.pairwise_precedes_audit f).imp fun hde => Diagnostic.precedes_iff.mp hde
  refine ⟨fun data hnodes => hbegins data fun d hd => ?_, fun hsorted hnames c hc => ?_⟩
  · obtain ⟨c, hc, hd⟩ := List.mem_flatMap.mp hd
    obtain ⟨body, n, hbody, hn, hlocation⟩ := Cop.exists_node_of_mem_evaluate (hfollow c hc) hd
    rw [hlocation]
    exact hnodes body hbody n hn
  · exact (a.ofCop_audit_eq_iff f hnames hc).mpr ((hfollow c hc).sorted_evaluate hsorted)

/-- In the sample, with the rule on `uses_from_macos` before the other one and Linux required:
of its three diagnostics the first two are of one call, and they are listed as it gave them. -/
theorem audit_in_reading_order_sample :
    let c := Cop.mk (UsesFromMacos.ruleWith fun _ => pure fun _ => true) .warning
    let a : Auditor :=
      { reader := fun _ => Ruby.Tree.sample, cops := [c, ⟨ProvidedByMacos.rule, .error⟩],
        now := default }
    let f : Formula := { name := "a", body := Node.sampleBody }
    let r := (a.audit f).value
    (∀ c ∈ a.cops, c.rule.FollowsWalk) ∧ (a.cops.map Cop.name).Nodup ∧
      (∀ body ∈ f.body, body.walk.Pairwise fun m n => m.location.start ≤ n.location.start) ∧
      (∀ body ∈ f.body, ∀ n ∈ Node.walk body,
        n.location.begins = .counted (Utf8.bytes Ruby.Tree.sampleText) n.location.start) ∧
      (r.diagnostics.Pairwise fun d e => d.location.begins ≤ e.location.begins) ∧
      (r.ofCop "FormulaAudit/UsesFromMacos").map (fun d => (d.location.line, d.message)) =
        [(3, UsesFromMacos.linuxMessage), (3, UsesFromMacos.notProvidedMessage "q"),
          (6, UsesFromMacos.linuxMessage)] := by
  intro c a f r
  have hfollow : ∀ c ∈ a.cops, c.rule.FollowsWalk := by
    intro c hc
    refine Rule.Supplied.followsWalk ?_
    rcases List.mem_cons.mp hc with rfl | hc
    · exact .inr ⟨_, rfl⟩
    · rw [List.mem_singleton.mp hc]
      exact .inl List.mem_cons_self
  have hnames : (a.cops.map Cop.name).Nodup := by decide
  have hmem : ∀ body ∈ f.body, body ∈ Node.sample.preorder := by
    intro body hbody
    have hwalk := Node.mem_walk_of_mem_sampleBody hbody
    rwa [Node.walk, Rose.walk_eq_preorder] at hwalk
  have horder : Ruby.Tree.sample.Everywhere Ruby.Tree.InSourceOrder := by decide +kernel
  have hsorted : ∀ body ∈ f.body,
      body.walk.Pairwise fun m n => m.location.start ≤ n.location.start := by
    intro body hbody
    exact Node.sorted_walk ((Node.everywhere_tidy_ofTree horder).of_mem (hmem body hbody))
  have hnodes : ∀ body ∈ f.body, ∀ n ∈ Node.walk body,
      n.location.begins = .counted (Utf8.bytes Ruby.Tree.sampleText) n.location.start := by
    intro body hbody n hn
    rw [Node.walk, Rose.walk_eq_preorder] at hn
    exact Node.begins_of_mem (Rose.mem_preorder_trans hn (hmem body hbody))
  obtain ⟨-, -, -, -, -, -, hwalk⟩ := a.audit_in_reading_order f
  have hread := (hwalk hfollow).1 _ hnodes
  have hcop := (hwalk hfollow).2 hsorted hnames c List.mem_cons_self
  refine ⟨hfollow, hnames, hsorted, hnodes, hread, ?_⟩
  show List.map _ ((a.audit f).value.ofCop c.name) = _
  rw [hcop]
  decide +kernel

end Auditor

end TapLint
