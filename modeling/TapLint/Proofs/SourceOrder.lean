/-
The conversion keeps the order of the source.

A tree is tidy where the stretch of a node holds those of its children and these
follow one another.  If the concrete tree is tidy everywhere, so is the converted
one, the nodes put around pairs and statements included, and therefore

* a walk meets the nodes in the order in which they begin;
* every cop gives its diagnostics in the order in which they begin.

The main statement is `everywhere_tidy_and_sorted`.  Its proof goes by rows: lists of
trees that follow one another from one offset to another (`Row`), which can be cut
and joined at any offset between (`row_append`).
-/
import Mathlib.Tactic.MkIffOfInductiveProp
import TapLint.Proofs.Conversion
import TapLint.Proofs.Offenses

namespace TapLint

open Ruby (Label Tree)

namespace Rose

universe u

variable {α : Type u} {first last : α → Nat}

/-! ### Tidy nodes and rows -/

/-- A node whose stretch, from `first` to `last`, holds those of its children,
which follow one another without overlap. -/
@[mk_iff]
structure Tidy (first last : α → Nat) (t : Rose α) : Prop where
  ordered : first t.value ≤ last t.value
  inside : ∀ c ∈ t.children, first t.value ≤ first c.value ∧ last c.value ≤ last t.value
  apart : t.children.Pairwise fun c d => last c.value ≤ first d.value

/-- Trees that follow one another from an offset `lo` to an offset `hi`. -/
def Row (first last : α → Nat) (lo : Nat) : List (Rose α) → Nat → Prop
  | [], hi => lo ≤ hi
  | t :: ts, hi =>
    lo ≤ first t.value ∧ first t.value ≤ last t.value ∧ Row first last (last t.value) ts hi

theorem Row.le {lo hi : Nat} {ts : List (Rose α)} (h : Row first last lo ts hi) : lo ≤ hi := by
  induction ts generalizing lo with
  | nil => exact h
  | cons t ts ih =>
    obtain ⟨hlo, ht, hts⟩ := h
    have := ih hts
    omega

theorem Row.mono {lo hi lo' hi' : Nat} {ts : List (Rose α)} (h : Row first last lo ts hi)
    (hlo : lo' ≤ lo) (hhi : hi ≤ hi') : Row first last lo' ts hi' := by
  induction ts generalizing lo lo' with
  | nil =>
    have : lo ≤ hi := h
    show lo' ≤ hi'
    omega
  | cons t ts ih =>
    obtain ⟨ht₀, ht, hts⟩ := h
    exact ⟨Nat.le_trans hlo ht₀, ht, ih hts (Nat.le_refl _)⟩

/-- A row is cut in two at the end of its first part. -/
theorem row_append {lo hi : Nat} {ss ts : List (Rose α)} :
    Row first last lo (ss ++ ts) hi ↔
      ∃ mid, Row first last lo ss mid ∧ Row first last mid ts hi := by
  induction ss generalizing lo with
  | nil =>
    constructor
    · intro h
      exact ⟨lo, Nat.le_refl lo, h⟩
    · rintro ⟨mid, hmid, h⟩
      exact h.mono hmid (Nat.le_refl hi)
  | cons s ss ih =>
    constructor
    · rintro ⟨hlo, hs, h⟩
      obtain ⟨mid, hss, hts⟩ := ih.mp h
      exact ⟨mid, ⟨hlo, hs, hss⟩, hts⟩
    · rintro ⟨mid, ⟨hlo, hs, hss⟩, hts⟩
      exact ⟨hlo, hs, ih.mpr ⟨mid, hss, hts⟩⟩

theorem Row.sublist {lo hi : Nat} {ss ts : List (Rose α)} (h : Row first last lo ts hi)
    (hs : ss.Sublist ts) : Row first last lo ss hi := by
  induction hs generalizing lo with
  | slnil => exact h
  | cons t _ ih =>
    obtain ⟨hlo, ht, hts⟩ := h
    exact (ih hts).mono (Nat.le_trans hlo ht) (Nat.le_refl hi)
  | cons_cons t _ ih => exact ⟨h.1, h.2.1, ih h.2.2⟩

/-- A member may give way to a row that fits in its place. -/
theorem Row.splice {lo hi : Nat} {t : Rose α} {rs ss ts : List (Rose α)}
    (h : Row first last lo (rs ++ t :: ts) hi)
    (hss : Row first last (first t.value) ss (last t.value)) :
    Row first last lo (rs ++ ss ++ ts) hi := by
  obtain ⟨mid, hrs, hlo, ht, hts⟩ := row_append.mp h
  rw [row_append]
  exact ⟨last t.value, row_append.mpr ⟨first t.value, hrs.mono (Nat.le_refl lo) hlo, hss⟩, hts⟩

theorem Row.bounds {lo hi : Nat} {ts : List (Rose α)} (h : Row first last lo ts hi) :
    ∀ t ∈ ts, lo ≤ first t.value ∧ last t.value ≤ hi := by
  induction ts generalizing lo with
  | nil => exact fun t ht => absurd ht List.not_mem_nil
  | cons s ts ih =>
    intro t ht
    obtain ⟨hlo, hs, hts⟩ := h
    rcases List.mem_cons.mp ht with rfl | ht
    · exact ⟨hlo, hts.le⟩
    · have := ih hts t ht
      omega

theorem Row.pairwise {lo hi : Nat} {ts : List (Rose α)} (h : Row first last lo ts hi) :
    ts.Pairwise fun c d => last c.value ≤ first d.value := by
  induction ts generalizing lo with
  | nil => exact .nil
  | cons t ts ih => exact .cons (fun s hs => (h.2.2.bounds s hs).1) (ih h.2.2)

/-- A row reaches from the start of its first member to the end of its last. -/
theorem Row.tighten {lo hi : Nat} {t : Rose α} {ts : List (Rose α)}
    (h : Row first last lo (t :: ts) hi) :
    Row first last (first t.value) (t :: ts) (last (ts.getLastD t).value) ∧
      last (ts.getLastD t).value ≤ hi := by
  induction ts generalizing lo t with
  | nil => exact ⟨⟨Nat.le_refl _, h.2.1, Nat.le_refl _⟩, h.2.2⟩
  | cons s ts ih =>
    obtain ⟨-, ht, hs⟩ := h
    have hrest := ih hs
    rw [List.getLastD_cons]
    exact ⟨⟨Nat.le_refl _, ht, hrest.1.mono hs.1 (Nat.le_refl _)⟩, hrest.2⟩

theorem tidy_of_row {t : Rose α}
    (h : Row first last (first t.value) t.children (last t.value)) : Tidy first last t where
  ordered := h.le
  inside := h.bounds
  apart := h.pairwise

theorem row_of_pairwise {lo hi : Nat} {ts : List (Rose α)} (hle : lo ≤ hi)
    (hin : ∀ t ∈ ts, lo ≤ first t.value ∧ first t.value ≤ last t.value ∧ last t.value ≤ hi)
    (hapart : ts.Pairwise fun c d => last c.value ≤ first d.value) : Row first last lo ts hi := by
  induction hapart generalizing lo with
  | nil => exact hle
  | @cons t ts hfirst _ ih =>
    obtain ⟨hlo, ht, hhi⟩ := hin t List.mem_cons_self
    refine ⟨hlo, ht, ih hhi fun s hs => ?_⟩
    have := hin s (List.mem_cons_of_mem t hs)
    exact ⟨hfirst s hs, this.2⟩

/-- The children of a tidy node make a row. -/
theorem row_children {t : Rose α} (h : t.Everywhere (Tidy first last)) :
    Row first last (first t.value) t.children (last t.value) := by
  refine row_of_pairwise h.self.ordered (fun c hc => ?_) h.self.apart
  have hin := h.self.inside c hc
  exact ⟨hin.1, (h.child hc).self.ordered, hin.2⟩

/-! ### The walk over a tidy tree -/

theorem bounds_of_mem_preorder {s t : Rose α} (h : t.Everywhere (Tidy first last))
    (hs : s ∈ t.preorder) : first t.value ≤ first s.value ∧ last s.value ≤ last t.value := by
  induction t with
  | node a cs ih =>
    rcases mem_preorder_iff.mp hs with rfl | ⟨c, hc, hs⟩
    · exact ⟨Nat.le_refl _, Nat.le_refl _⟩
    · have hin := h.self.inside c hc
      have hbelow := ih c hc (h.child hc) hs
      exact ⟨Nat.le_trans hin.1 hbelow.1, Nat.le_trans hbelow.2 hin.2⟩

/-- The preorder of a tidy tree meets the nodes in the order in which they begin. -/
theorem pairwise_preorder {t : Rose α} (h : t.Everywhere (Tidy first last)) :
    t.preorder.Pairwise fun r s => first r.value ≤ first s.value := by
  induction t with
  | node a cs ih =>
    rw [preorder_node]
    refine .cons (fun s hs => ?_) (List.pairwise_flatMap.mpr ⟨fun c hc => ih c hc (h.child hc), ?_⟩)
    · have hmem : s ∈ (node a cs).preorder := by
        rw [preorder_node]
        exact List.mem_cons_of_mem _ hs
      exact (bounds_of_mem_preorder h hmem).1
    · refine h.self.apart.imp_of_mem fun {c d} hc hd hcd r hr s hs => ?_
      -- what begins below `c` ends there, before `d` and all that is below it
      have hrc := bounds_of_mem_preorder (h.child hc) hr
      have hsd := bounds_of_mem_preorder (h.child hd) hs
      have hrr := ((h.child hc).of_mem hr).self.ordered
      omega

end Rose

/-! ### What is kept makes a row -/

namespace Ruby.Tree

/-- What the grammar promises about the order below a concrete node. -/
@[mk_iff]
structure InSourceOrder (t : Tree) : Prop where
  tidy : t.Tidy Label.start Label.stop
  call : t.isCall → (t.filling callFields).Sublist t.children
  pair : t.value.type = "pair" → (t.filling pairFields).Sublist t.children
  classDecl : t.value.type = "class" → t.SuperclassFirst

instance (t : Tree) : Decidable (t.Tidy Label.start Label.stop) :=
  decidable_of_iff' _ (Rose.tidy_iff _ _ t)

instance (t : Tree) : Decidable (InSourceOrder t) :=
  decidable_of_iff' _ (inSourceOrder_iff t)

variable {t : Tree}

theorem row_parts (h : t.Everywhere InSourceOrder) :
    Rose.Row Label.start Label.stop t.value.start t.parts t.value.stop :=
  (Rose.row_children (h.mono fun _ h => h.tidy)).sublist List.filter_sublist

theorem row_kept_call (h : t.Everywhere InSourceOrder) (ht : t.isCall) :
    Rose.Row Label.start Label.stop t.value.start
      ((t.field? "receiver").toList ++ t.argumentParts ++ (t.field? "block").toList)
      t.value.stop := by
  have hrow := (Rose.row_children (h.mono fun _ h => h.tidy)).sublist (h.self.call ht)
  cases ha : t.field? "arguments" with
  | none => simpa [filling, callFields, argumentParts, ha] using hrow
  | some a =>
    simp only [filling, callFields, List.flatMap_cons, List.flatMap_nil, List.append_nil, ha,
      Option.toList_some, List.singleton_append] at hrow
    simp only [argumentParts, ha]
    -- the brackets of the call give way to what stands between them
    exact hrow.splice (row_parts (h.child (mem_children_of_field? ha)))

theorem row_kept_pair (h : t.Everywhere InSourceOrder) (ht : t.value.type = "pair") :
    Rose.Row Label.start Label.stop t.value.start
      ((t.field? "key").toList ++ (t.field? "value").toList) t.value.stop := by
  have hrow := (Rose.row_children (h.mono fun _ h => h.tidy)).sublist (h.self.pair ht)
  simpa [filling, pairFields] using hrow

theorem row_kept_classDecl (h : t.Everywhere InSourceOrder) (ht : t.value.type = "class") :
    Rose.Row Label.start Label.stop t.value.start (t.superclassPart.toList ++ t.statements)
      t.value.stop := by
  have hrow := Rose.row_children (h.mono fun _ h => h.tidy)
  cases hs : t.field? "superclass" with
  | none =>
    simp only [superclassPart, hs, Option.bind_none, Option.toList_none, List.nil_append]
    exact hrow.sublist List.filter_sublist
  | some s =>
    obtain ⟨pre, post, hsplit, -, hname⟩ := exists_split_superclass (h.self.classDecl ht) hs
    have hsub : (s :: t.statements).Sublist t.children := by
      rw [statements_eq_of_split hs hsplit hname, hsplit]
      exact (List.filter_sublist.cons_cons s).trans (List.sublist_append_right pre _)
    have hpart : t.superclassPart.toList.Sublist s.parts := by
      simp only [superclassPart, hs, Option.bind_some]
      cases s.parts with
      | nil => exact .slnil
      | cons p ps => exact (List.nil_sublist ps).cons_cons p
    have hparts := row_parts (h.child (mem_children_of_field? hs))
    have hrest : Rose.Row Label.start Label.stop t.value.start ([] ++ s :: t.statements)
        t.value.stop := hrow.sublist hsub
    exact hrest.splice (hparts.sublist hpart)

/-- What is kept of a node makes a row within the node. -/
theorem row_kept (h : t.Everywhere InSourceOrder) :
    Rose.Row Label.start Label.stop t.value.start t.kept t.value.stop := by
  rw [kept]
  split
  next hcall => exact row_kept_call h (Node.isCall_iff.mpr hcall)
  next hpair => exact row_kept_pair h (Node.kindOf_eq_pair.mp hpair)
  next hclass => exact row_kept_classDecl h (Node.kindOf_eq_classDecl.mp hclass)
  next => exact row_parts h

end Ruby.Tree

/-! ### The converted tree is tidy -/

namespace Facts

/-- The offset where a node begins. -/
def start (f : Facts) : Nat := f.location.start

/-- The offset where a node ends. -/
def stop (f : Facts) : Nat := f.location.stop

end Facts

namespace Node

variable {src : Source}

theorem start_ofTree (t : Tree) : (ofTree src t).value.start = t.value.start := by
  show (ofTree src t).location.start = t.value.start
  rw [location_ofTree]
  rfl

theorem stop_ofTree (t : Tree) : (ofTree src t).value.stop = t.value.stop := by
  show (ofTree src t).location.stop = t.value.stop
  rw [location_ofTree]
  rfl

theorem row_map_ofTree (src : Source) {lo hi : Nat} {ts : List Tree}
    (h : Rose.Row Label.start Label.stop lo ts hi) :
    Rose.Row Facts.start Facts.stop lo (ts.map (ofTree src)) hi := by
  induction ts generalizing lo with
  | nil => exact h
  | cons t ts ih =>
    rw [List.map_cons]
    refine ⟨?_, ?_, ?_⟩
    · rw [start_ofTree]
      exact h.1
    · rw [start_ofTree, stop_ofTree]
      exact h.2.1
    · rw [stop_ofTree]
      exact ih h.2.2

/-- Covering nodes takes nothing out of its row. -/
theorem Grouped.row {lo hi : Nat} {ns ms : List Node} (h : Grouped src ns ms)
    (hns : Rose.Row Facts.start Facts.stop lo ns hi) :
    Rose.Row Facts.start Facts.stop lo ms hi := by
  induction h generalizing lo with
  | nil => exact hns
  | keep n _ ih => exact ⟨hns.1, hns.2.1, ih hns.2.2⟩
  | cover _ _ ih =>
    obtain ⟨mid, hcovered, hrest⟩ := Rose.row_append.mp hns
    -- the covering node ends with its last member, which may be before `mid`
    have htight := hcovered.tighten
    exact ⟨hcovered.1, htight.1.le, ih (hrest.mono htight.2 (Nat.le_refl hi))⟩

theorem Grouped.everywhere_tidy {lo hi : Nat} {ns ms : List Node} (h : Grouped src ns ms)
    (hrow : Rose.Row Facts.start Facts.stop lo ns hi)
    (hns : ∀ n ∈ ns, n.Everywhere (Rose.Tidy Facts.start Facts.stop)) :
    ∀ m ∈ ms, m.Everywhere (Rose.Tidy Facts.start Facts.stop) := by
  induction h generalizing lo with
  | nil => exact fun m hm => absurd hm List.not_mem_nil
  | keep n _ ih =>
    intro m hm
    rcases List.mem_cons.mp hm with rfl | hm
    · exact hns m List.mem_cons_self
    · exact ih hrow.2.2 (fun k hk => hns k (List.mem_cons_of_mem n hk)) m hm
  | @cover ns ms kind type first more _ _ ih =>
    intro m hm
    obtain ⟨mid, hcovered, hrest⟩ := Rose.row_append.mp hrow
    rcases List.mem_cons.mp hm with rfl | hm
    · refine Rose.everywhere_iff.mpr ⟨Rose.tidy_of_row hcovered.tighten.1, fun k hk => ?_⟩
      exact hns k (List.mem_append_left ns hk)
    · exact ih hrest (fun k hk => hns k (List.mem_append_right _ hk)) m hm

theorem everywhere_tidy_ofTree {t : Tree} (h : t.Everywhere Ruby.Tree.InSourceOrder) :
    (ofTree src t).Everywhere (Rose.Tidy Facts.start Facts.stop) := by
  induction t using Rose.strong_induct with
  | step t ih =>
    have hrow := row_map_ofTree src (Ruby.Tree.row_kept h)
    have hkept : ∀ n ∈ (Ruby.Tree.kept t).map (ofTree src),
        n.Everywhere (Rose.Tidy Facts.start Facts.stop) := by
      intro n hn
      obtain ⟨c, hc, rfl⟩ := List.mem_map.mp hn
      obtain ⟨d, hd, hcd⟩ := Ruby.Tree.exists_child_of_mem_kept hc
      exact ih d hd c hcd ((h.child hd).of_mem hcd)
    have hgrouped := grouped_kept src t
    refine Rose.everywhere_iff.mpr ⟨Rose.tidy_of_row ?_, hgrouped.everywhere_tidy hrow hkept⟩
    rw [start_ofTree, stop_ofTree]
    exact hgrouped.row hrow

theorem sorted_walk {n : Node} (h : n.Everywhere (Rose.Tidy Facts.start Facts.stop)) :
    n.walk.Pairwise fun a b => a.location.start ≤ b.location.start := by
  rw [walk, Rose.walk_eq_preorder]
  exact Rose.pairwise_preorder h

end Node

/-! ### The order of diagnostics -/

/-- What is said of calls that come in the order in which they begin comes in
that order too, if it is about the calls themselves. -/
theorem sorted_flatMap_offenses {calls : List Node} {said : Node → List (String × Node)}
    (h : calls.Pairwise fun a b => a.location.start ≤ b.location.start)
    (hsaid : ∀ call, ∀ offense ∈ said call, offense.2 = call) :
    (calls.flatMap said).Pairwise fun a b => a.2.location.start ≤ b.2.location.start := by
  refine List.pairwise_flatMap.mpr ⟨fun call _ => ?_, h.imp fun {a b} hab x hx y hy => ?_⟩
  · refine List.pairwise_of_forall_mem_list fun x hx y hy => ?_
    have hxy : x.2 = y.2 := (hsaid call x hx).trans (hsaid call y hy).symm
    exact Nat.le_of_eq (congrArg (fun n : Node => n.location.start) hxy)
  · rw [hsaid a x hx, hsaid b y hy]
    exact hab

/-- A rule that goes along the walk over a body and, at some of the nodes that it meets, says
something about the node. -/
def Rule.FollowsWalk (r : Rule) : Prop :=
  ∀ (f : Formula) (body : Node), ∃ (nodes : List Node) (said : Node → List (String × Node)),
    nodes.Sublist body.walk ∧ (∀ n, ∀ offense ∈ said n, offense.2 = n) ∧
      (r.offenses f body).value = nodes.flatMap said

namespace Rule.FollowsWalk

variable {r : Rule}

theorem mem_walk (hr : r.FollowsWalk) {f : Formula} {body : Node} {offense : String × Node}
    (h : offense ∈ (r.offenses f body).value) : offense.2 ∈ body.walk := by
  obtain ⟨nodes, said, hsub, hsaid, heq⟩ := hr f body
  rw [heq] at h
  obtain ⟨n, hn, hoffense⟩ := List.mem_flatMap.mp h
  rw [hsaid n offense hoffense]
  exact hsub.subset hn

theorem sorted_offenses (hr : r.FollowsWalk) (f : Formula) {body : Node}
    (h : body.walk.Pairwise fun a b => a.location.start ≤ b.location.start) :
    (r.offenses f body).value.Pairwise fun a b => a.2.location.start ≤ b.2.location.start := by
  obtain ⟨nodes, said, hsub, hsaid, heq⟩ := hr f body
  rw [heq]
  exact sorted_flatMap_offenses (h.sublist hsub) hsaid

end Rule.FollowsWalk

/-- The rules in the catalogue, and the one on `uses_from_macos` for any other way
to tell what a formula depends on. -/
def Rule.Supplied (r : Rule) : Prop :=
  r ∈ Rule.all ∨ ∃ hasDependency, r = UsesFromMacos.ruleWith hasDependency

theorem Rule.Supplied.cases {r : Rule} (h : r.Supplied) :
    r = ProvidedByMacos.rule ∨ ∃ hasDependency, r = UsesFromMacos.ruleWith hasDependency := by
  rcases h with h | h
  · simp only [Rule.all, List.mem_cons, List.not_mem_nil, or_false] at h
    exact h.imp_right fun h => ⟨_, h⟩
  · exact .inr h

theorem sublist_walk_callsWith (body : Node) (method : String) (patterns : List Pattern) :
    (Node.callsWith (some body) method patterns).Sublist body.walk := by
  rw [Node.walk, Rose.walk_eq_preorder]
  exact Node.callsWith_sublist body method patterns

/-- Both rules look for calls along the walk. -/
theorem Rule.Supplied.followsWalk {r : Rule} (hr : r.Supplied) : r.FollowsWalk := by
  intro f body
  rcases hr.cases with rfl | ⟨hasDependency, rfl⟩
  · rw [ProvidedByMacos.value_offenses]
    split
    · exact ⟨[], fun _ => [], List.nil_sublist _, fun _ _ h => absurd h List.not_mem_nil, rfl⟩
    · refine ⟨_, fun call => [(ProvidedByMacos.message, call)], sublist_walk_callsWith body _ _,
        fun call offense h => ?_, List.map_eq_flatMap⟩
      rw [List.mem_singleton.mp h]
  · rw [UsesFromMacos.value_offenses]
    exact ⟨_, _, sublist_walk_callsWith body _ _,
      fun call offense => UsesFromMacos.snd_of_mem_examine, rfl⟩

theorem Rule.FollowsWalk.sorted_evaluate {c : Cop} (hc : c.rule.FollowsWalk) {f : Formula}
    (h : ∀ body ∈ f.body, body.walk.Pairwise fun a b => a.location.start ≤ b.location.start) :
    (c.evaluate f).value.Pairwise fun a b => a.location.start ≤ b.location.start := by
  cases hbody : f.body with
  | none =>
    rw [Cop.evaluate, hbody]
    exact .nil
  | some body =>
    rw [Cop.value_evaluate hbody]
    exact List.pairwise_map.mpr (hc.sorted_offenses f (h body hbody))

theorem sorted_evaluate {c : Cop} (hc : c.rule.Supplied) {f : Formula} {body : Node}
    (hf : f.body = some body) (h : body.Everywhere (Rose.Tidy Facts.start Facts.stop)) :
    (c.evaluate f).value.Pairwise fun a b => a.location.start ≤ b.location.start := by
  refine hc.followsWalk.sorted_evaluate fun body' hbody' => ?_
  rw [hf] at hbody'
  exact Option.some.inj hbody' ▸ Node.sorted_walk h

/-- **The conversion keeps the order of the source.**  If the grammar's promises on
order hold in a concrete tree, every node of the converted tree holds its children
in its stretch, one after the other; the walk meets the nodes in the order in which
they begin; and so do the diagnostics of every cop that looks at a formula whose
body is a node of the tree. -/
theorem everywhere_tidy_and_sorted (src : Source) (t : Tree)
    (h : t.Everywhere Ruby.Tree.InSourceOrder) :
    (∀ n ∈ (Node.ofTree src t).walk, n.Tidy Facts.start Facts.stop) ∧
      (Node.ofTree src t).walk.Pairwise (fun a b => a.location.start ≤ b.location.start) ∧
      ∀ (c : Cop) (f : Formula), c.rule.Supplied →
        (∀ body ∈ f.body, body ∈ (Node.ofTree src t).walk) →
        (c.evaluate f).value.Pairwise fun a b => a.location.start ≤ b.location.start := by
  have htidy : Rose.Everywhere (Rose.Tidy Facts.start Facts.stop) (Node.ofTree src t) :=
    Node.everywhere_tidy_ofTree h
  refine ⟨?_, Node.sorted_walk htidy, fun c f hc hf => ?_⟩
  · intro n hn
    rw [Node.walk, Rose.walk_eq_preorder] at hn
    exact htidy n hn
  · cases hbody : f.body with
    | none =>
      rw [Cop.evaluate, hbody]
      exact .nil
    | some body =>
      have hmem := hf body hbody
      rw [Node.walk, Rose.walk_eq_preorder] at hmem
      exact sorted_evaluate hc hbody (htidy.of_mem hmem)

/-- In the sample, with a call that offends twice and a later one that offends once. -/
theorem tidy_and_sorted_sample :
    Ruby.Tree.sample.Everywhere Ruby.Tree.InSourceOrder ∧
      (∀ n ∈ Node.sample.walk, n.Tidy Facts.start Facts.stop) ∧
      Node.sample.walk.Pairwise (fun a b => a.location.start ≤ b.location.start) ∧
      ((Cop.mk (UsesFromMacos.ruleWith fun _ => pure fun _ => true) .convention).evaluate
          { name := "a", body := Node.sampleBody }).value.Pairwise
        fun a b => a.location.start ≤ b.location.start := by
  have h : Ruby.Tree.sample.Everywhere Ruby.Tree.InSourceOrder := by decide +kernel
  obtain ⟨htidy, hsorted, hcops⟩ :=
    everywhere_tidy_and_sorted (.ofText none Ruby.Tree.sampleText) _ h
  exact ⟨h, htidy, hsorted,
    hcops _ _ (.inr ⟨_, rfl⟩) fun _ hb => Node.mem_walk_of_mem_sampleBody hb⟩

end TapLint
