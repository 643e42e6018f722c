/-
The conversion keeps the calls.

A linter that loses a call is silent where it should complain, so the calls of
the converted tree must be those of the concrete one.  They are, for every tree
that keeps what the grammar promises (`KeepsCalls`): the statement is

* `callMarks_walk_ofTree` — the calls met on the walk, read as their stretch and
  their method, are the concrete calls in preorder, each once.

It comes from one step, `flatMap_calls_kept`: what the conversion keeps of a node
holds all the calls that the node's children hold, in the same order.
-/
import Mathlib.Data.List.Basic
import Mathlib.Tactic.MkIffOfInductiveProp
import TapLint.Proofs.Conversion

namespace TapLint

open Ruby (Label Tree)

namespace Ruby.Tree

/-- The calls of a concrete tree in preorder. -/
def calls (t : Tree) : List Tree :=
  t.preorder.filter isCall

/-- Whether a concrete tree has a call in it. -/
def holdsCall (t : Tree) : Bool :=
  !t.calls.isEmpty

/-- The calls below a node lie in the children that fill these fields, which
come in this order. -/
def CallsWithin (names : List String) (t : Tree) : Prop :=
  t.children.filter holdsCall = (t.filling names).filter holdsCall

/-- No other named child has the stretch and the type of the one that fills a field. -/
def StandsAlone (name : String) (t : Tree) : Prop :=
  ∀ n ∈ t.field? name, ∀ c ∈ t.children.eraseP (fills name),
    c.value.named → Node.sameStretch n.value c.value = false

/-- What the grammar promises about the calls in a class. -/
@[mk_iff]
structure ClassKeepsCalls (t : Tree) : Prop where
  name_callFree : ∀ n ∈ t.field? "name", n.calls = []
  name_alone : StandsAlone "name" t
  superclass_not_call : ∀ s ∈ t.field? "superclass", s.isCall = false
  superclass_one_part : ∀ s ∈ t.field? "superclass", s.parts.length = 1
  superclass_alone : StandsAlone "superclass" t
  superclass_first : SuperclassFirst t

/-- What the grammar promises about the calls below a concrete node. -/
@[mk_iff]
structure KeepsCalls (t : Tree) : Prop where
  /-- Punctuation and comments hold no call. -/
  part : t.value.isPart = false → t.calls = []
  call : t.isCall → CallsWithin callFields t
  /-- What holds the arguments of a call is no call. -/
  arguments : t.isCall → ∀ a ∈ t.field? "arguments", a.isCall = false
  pair : t.value.type = "pair" → CallsWithin pairFields t
  classDecl : t.value.type = "class" → ClassKeepsCalls t

instance (names : List String) (t : Tree) : Decidable (CallsWithin names t) :=
  inferInstanceAs (Decidable (_ = _))

instance (name : String) (t : Tree) : Decidable (StandsAlone name t) :=
  inferInstanceAs (Decidable (∀ n ∈ t.field? name, ∀ c ∈ t.children.eraseP (fills name), _))

instance (t : Tree) : Decidable (ClassKeepsCalls t) :=
  decidable_of_iff' _ (classKeepsCalls_iff t)

instance (t : Tree) : Decidable (KeepsCalls t) :=
  decidable_of_iff' _ (keepsCalls_iff t)

/-! ### The calls below a node -/

theorem calls_eq (t : Tree) :
    t.calls = (if t.isCall then [t] else []) ++ t.children.flatMap calls :=
  Rose.filter_preorder isCall t

theorem flatMap_calls_holdsCall (ts : List Tree) :
    (ts.filter holdsCall).flatMap calls = ts.flatMap calls := by
  refine flatMap_filter_eq fun c _ hc => ?_
  simpa [holdsCall] using hc

theorem CallsWithin.flatMap_calls {names : List String} {t : Tree} (h : CallsWithin names t) :
    t.children.flatMap calls = (t.filling names).flatMap calls := by
  rw [← flatMap_calls_holdsCall t.children, h, flatMap_calls_holdsCall]

/-- A node that is no call has the calls of its parts. -/
theorem calls_eq_parts {t : Tree} (h : t.Everywhere KeepsCalls) (ht : t.isCall = false) :
    t.calls = t.parts.flatMap calls := by
  rw [calls_eq, ht, parts, flatMap_filter_eq fun c hc => (h.child hc).self.part]
  rfl

/-! ### What is kept of a node holds its calls -/

theorem flatMap_calls_kept_call {t : Tree} (h : t.Everywhere KeepsCalls) (ht : t.isCall) :
    ((t.field? "receiver").toList ++ t.argumentParts ++ (t.field? "block").toList).flatMap calls =
      t.children.flatMap calls := by
  have harguments :
      (t.field? "arguments").toList.flatMap calls = t.argumentParts.flatMap calls := by
    cases ha : t.field? "arguments" with
    | none => simp [argumentParts, ha]
    | some a =>
      have hall := h.child (mem_children_of_field? ha)
      simpa [argumentParts, ha] using calls_eq_parts hall (h.self.arguments ht a ha)
  rw [(h.self.call ht).flatMap_calls, filling, callFields]
  simp [harguments]

theorem flatMap_calls_kept_pair {t : Tree} (h : KeepsCalls t) (ht : t.value.type = "pair") :
    ((t.field? "key").toList ++ (t.field? "value").toList).flatMap calls =
      t.children.flatMap calls := by
  rw [(h.pair ht).flatMap_calls, filling, pairFields]
  simp

/-- A child of a class that is neither a statement nor the superclass holds no call. -/
theorem calls_eq_nil_of_not_isStatement {t c : Tree} (h : ClassKeepsCalls t) (hc : c ∈ t.children)
    (hpart : c.value.isPart = false → c.calls = [])
    (hother : ∀ s ∈ t.field? "superclass", c ∈ t.children.eraseP (fills "superclass"))
    (hstatement : t.isStatement c = false) : c.calls = [] := by
  by_cases hp : c.value.isPart
  · have hnamed : c.value.named := by
      rw [Label.isPart, Bool.and_eq_true] at hp
      exact hp.1
    simp only [isStatement, hp, Bool.true_and, Bool.and_eq_false_iff, Bool.not_eq_false',
      Option.any_eq_true] at hstatement
    rcases hstatement with ⟨n, hn, hsame⟩ | ⟨s, hs, hsame⟩
    · rcases mem_eraseP_or hc with hrest | hname
      · rw [h.name_alone n hn c hrest hnamed] at hsame
        exact absurd hsame Bool.false_ne_true
      · exact h.name_callFree c hname
    · rw [h.superclass_alone s hs c (hother s hs) hnamed] at hsame
      exact absurd hsame Bool.false_ne_true
  · exact hpart (by simpa using hp)

theorem flatMap_calls_kept_classDecl {t : Tree} (h : t.Everywhere KeepsCalls)
    (ht : t.value.type = "class") :
    (t.superclassPart.toList ++ t.statements).flatMap calls = t.children.flatMap calls := by
  have hclass := h.self.classDecl ht
  have hpart : ∀ c ∈ t.children, c.value.isPart = false → calls c = [] :=
    fun c hc => (h.child hc).self.part
  cases hs : t.field? "superclass" with
  | none =>
    have hstatements : t.statements.flatMap calls = t.children.flatMap calls :=
      flatMap_filter_eq fun c hc hstatement =>
        calls_eq_nil_of_not_isStatement hclass hc (hpart c hc) (by simp [hs]) hstatement
    simpa [superclassPart, hs] using hstatements
  | some s =>
    obtain ⟨pre, post, hsplit, hfills, hname⟩ := exists_split_superclass hclass.superclass_first hs
    have hmem : ∀ c ∈ pre ++ post, c ∈ t.children := by
      intro c hc
      rw [hsplit]
      simp only [List.mem_append, List.mem_cons] at hc ⊢
      exact hc.imp_right .inr
    -- before the superclass there is no part but the name, which holds no call
    have hpre : pre.flatMap calls = [] := by
      refine List.flatMap_eq_nil_iff.mpr fun c hc => ?_
      by_cases hp : c.value.isPart
      · exact hclass.name_callFree c (hname c hc hp)
      · exact hpart c (hmem c (List.mem_append_left _ hc)) (by simpa using hp)
    have hrest : t.children.eraseP (fills "superclass") = pre ++ post := by
      have hself : fills "superclass" s := List.find?_some hs
      rw [hsplit, List.eraseP_append_right _ fun c hc => by simp [hfills c hc],
        List.eraseP_cons_of_pos hself]
    have hpost : t.statements.flatMap calls = post.flatMap calls := by
      rw [statements_eq_of_split hs hsplit hname]
      refine flatMap_filter_eq fun c hc hstatement => ?_
      have hc := List.mem_append_right pre hc
      exact calls_eq_nil_of_not_isStatement hclass (hmem c hc) (hpart c (hmem c hc))
        (fun _ _ => hrest ▸ hc) hstatement
    -- the one part of the superclass holds all its calls
    have hsuper : t.superclassPart.toList.flatMap calls = s.calls := by
      have hone := hclass.superclass_one_part s hs
      obtain ⟨p, hp⟩ := List.length_eq_one_iff.mp hone
      rw [calls_eq_parts (h.child (mem_children_of_field? hs))
        (hclass.superclass_not_call s hs), hp]
      simp [superclassPart, hs, hp]
    rw [List.flatMap_append, hsuper, hpost, hsplit, List.flatMap_append, hpre,
      List.flatMap_cons, List.nil_append]

/-- What is kept of a node holds all the calls below it, in their order. -/
theorem flatMap_calls_kept {t : Tree} (h : t.Everywhere KeepsCalls) :
    t.kept.flatMap calls = t.children.flatMap calls := by
  rw [kept]
  split
  next hcall => exact flatMap_calls_kept_call h (Node.isCall_iff.mpr hcall)
  next hpair => exact flatMap_calls_kept_pair h.self (Node.kindOf_eq_pair.mp hpair)
  next hclass => exact flatMap_calls_kept_classDecl h (Node.kindOf_eq_classDecl.mp hclass)
  next => rw [parts, flatMap_filter_eq fun c hc => (h.child hc).self.part]

/-- A concrete call as it is told from others: its stretch and its method. -/
def callMark (src : Source) (t : Tree) : Nat × Nat × Option String :=
  (t.value.start, t.value.stop, (t.field? "method").map fun m => Node.textOf src m.value)

end Ruby.Tree

namespace Node

/-- The calls of a tree in preorder. -/
def calls (n : Node) : List Node :=
  n.preorder.filter isCall

/-- A call as it is told from others: its stretch and its method. -/
def callMark (n : Node) : Nat × Nat × Option String :=
  (n.location.start, n.location.stop, n.name)

/-! ### The calls of a converted tree -/

theorem calls_eq (n : Node) :
    n.calls = (if n.isCall then [n] else []) ++ n.children.flatMap calls :=
  Rose.filter_preorder isCall n

variable {src : Source}

theorem calls_covering {kind : Kind} {type : String} {first : Node} {more : List Node}
    (h : Implied kind type (first :: more)) :
    (covering src kind type first more).calls = (first :: more).flatMap calls := by
  have hnot : (covering src kind type first more).isCall = false := by
    cases h <;> rfl
  rw [calls_eq, hnot, children_covering]
  rfl

theorem Grouped.flatMap_calls {ns ms : List Node} (h : Grouped src ns ms) :
    ms.flatMap calls = ns.flatMap calls := by
  induction h with
  | nil => rfl
  | keep n _ ih => rw [List.flatMap_cons, List.flatMap_cons, ih]
  | cover himplied _ ih =>
    rw [List.flatMap_cons, calls_covering himplied, List.flatMap_append, ih]

theorem isCall_ofTree (t : Tree) : (ofTree src t).isCall = t.isCall := by
  rw [Bool.eq_iff_iff, isCall_iff, isCall, kind_ofTree, beq_iff_eq]

theorem callMark_ofTree {t : Tree} (h : t.isCall) :
    (ofTree src t).callMark = t.callMark src := by
  rw [callMark, location_ofTree, name_ofTree_call src (isCall_iff.mp h)]
  rfl

theorem map_callMark_calls_ofTree {t : Tree} (h : t.Everywhere Ruby.Tree.KeepsCalls) :
    (ofTree src t).calls.map callMark = t.calls.map (Ruby.Tree.callMark src) := by
  induction t using Rose.strong_induct with
  | step t ih =>
    have hkept : ∀ c ∈ Ruby.Tree.kept t,
        (ofTree src c).calls.map callMark = (Ruby.Tree.calls c).map (Ruby.Tree.callMark src) := by
      intro c hc
      obtain ⟨d, hd, hcd⟩ := Ruby.Tree.exists_child_of_mem_kept hc
      exact ih d hd c hcd ((h.child hd).of_mem hcd)
    have hbelow : ((ofTree src t).children.flatMap calls).map callMark =
        (t.children.flatMap Ruby.Tree.calls).map (Ruby.Tree.callMark src) := by
      rw [(grouped_kept src t).flatMap_calls, ← Ruby.Tree.flatMap_calls_kept h, List.flatMap_map,
        List.map_flatMap, List.map_flatMap]
      exact List.flatMap_congr hkept
    rw [calls_eq, Ruby.Tree.calls_eq, List.map_append, List.map_append, hbelow, isCall_ofTree]
    congr 1
    split
    next ht => rw [List.map_singleton, List.map_singleton, callMark_ofTree ht]
    next => rfl

/-- **The conversion keeps the calls.**  The calls on the walk over a converted
tree, read as their stretch and their method, are the calls of the concrete tree
in preorder: none is lost, invented, repeated or moved. -/
theorem callMarks_walk_ofTree (src : Source) (t : Tree)
    (h : t.Everywhere Ruby.Tree.KeepsCalls) :
    ((ofTree src t).walk.filter isCall).map callMark =
      (t.preorder.filter Ruby.Tree.isCall).map (Ruby.Tree.callMark src) := by
  rw [walk, Rose.walk_eq_preorder]
  exact map_callMark_calls_ofTree h

/-- The calls of the sample: one in the superclass with another in a pair of its
arguments, and three statements, two of them with calls below. -/
theorem callMarks_walk_sample :
    Ruby.Tree.sample.Everywhere Ruby.Tree.KeepsCalls ∧
      (sample.walk.filter isCall).map callMark =
        [(10, 22, some "c"), (17, 21, some "e"), (25, 42, some "depends_on"),
          (45, 71, some "uses_from_macos"), (68, 71, some "h"), (74, 137, some "on_macos"),
          (90, 104, some "depends_on"), (109, 131, some "uses_from_macos")] := by
  have h : Ruby.Tree.sample.Everywhere Ruby.Tree.KeepsCalls := by decide +kernel
  refine ⟨h, ?_⟩
  rw [sample, callMarks_walk_ofTree _ Ruby.Tree.sample h]
  decide +kernel

end Node

end TapLint
