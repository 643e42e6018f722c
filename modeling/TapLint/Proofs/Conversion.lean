/-
What the conversion makes of each concrete node.

`Node.ofTree` converts children before their parent and picks the parts of calls,
pairs and classes among the results.  Here a node is given by the conversions of
the concrete nodes that are kept of it:

* `foldPairs_eq_foldRuns` — the loop over the arguments of a call, run by run;
* `children_ofTree_call`, `children_ofTree_pair`, `children_ofTree_classDecl`,
  `children_ofTree_plain` — the children of a converted node, kind by kind;
* `kind_ofTree`, `location_ofTree`, `text_ofTree` — what it carries;
* `grouped_kept` — the children are what is kept of the concrete node, with runs of
  pairs and loose statements put below nodes of their own;
* `origin_of_mem` — where the nodes of a converted tree come from (`Origin`).
-/
import Mathlib.Data.List.TakeWhile
import TapLint.Proofs.ConcreteParts

namespace TapLint.Node

open Ruby (Label Tree)
open Ruby.Tree (parts argumentParts superclassPart statements kept)

variable (src : Source)

/-! ### What is made of the children -/

section
variable {α : Type} {f : Label → List (Converted α) → Converted α}

theorem label_fold (h : ∀ l children, (f l children).label = l) (t : Tree) :
    (t.fold f).label = t.value := by
  cases t with
  | node l cs => rw [Rose.fold_node, h, Rose.value_node]

theorem fieldOf_map_fold (h : ∀ l children, (f l children).label = l) (name : String) (t : Tree) :
    fieldOf name (t.children.map (Rose.fold f)) = (t.field? name).map (Rose.fold f) := by
  rw [fieldOf, List.find?_map, Ruby.Tree.field?]
  refine congrArg (fun p => (t.children.find? p).map (Rose.fold f)) (funext fun c => ?_)
  rw [Function.comp_apply, label_fold h]

theorem statementsOf_map_fold (h : ∀ l children, (f l children).label = l) (t : Tree) :
    statementsOf (t.children.map (Rose.fold f)) = t.statements.map (Rose.fold f) := by
  rw [statementsOf, fieldOf_map_fold h, fieldOf_map_fold h, statements, List.filter_map]
  congr 1
  refine List.filter_congr fun c _ => ?_
  simp [Ruby.Tree.isStatement, Option.any_map, Function.comp_def, label_fold h]

end

/-! ### A node from its converted children -/

theorem convert_eq (t : Tree) :
    convert src t = assemble src t.value (t.children.map (convert src)) := by
  cases t with
  | node l cs => exact Rose.fold_node _ l cs

@[simp] theorem label_convert (t : Tree) : (convert src t).label = t.value :=
  label_fold (fun _ _ => rfl) t

theorem node_convert (t : Tree) : (convert src t).node = ofTree src t := rfl

@[simp] theorem parts_convert (t : Tree) : (convert src t).parts = t.parts.map (ofTree src) := by
  rw [convert_eq, assemble, parts, List.filter_map]
  simp [Function.comp_def, node_convert]

theorem ofTree_eq (t : Tree) :
    ofTree src t =
      assembleNode src t.value (t.children.map (convert src)) (t.parts.map (ofTree src)) := by
  rw [← parts_convert, ← node_convert, convert_eq, assemble]

theorem fieldOf_convert (name : String) (t : Tree) :
    fieldOf name (t.children.map (convert src)) = (t.field? name).map (convert src) :=
  fieldOf_map_fold (fun _ _ => rfl) name t

theorem statementsOf_convert (t : Tree) :
    statementsOf (t.children.map (convert src)) = t.statements.map (convert src) :=
  statementsOf_map_fold (fun _ _ => rfl) t

/-! ### What a converted node carries -/

@[simp] theorem kind_ofTree (t : Tree) : (ofTree src t).kind = kindOf t.value.type := by
  rw [ofTree_eq, assembleNode]
  split <;> rfl

@[simp] theorem type_ofTree (t : Tree) : (ofTree src t).type = t.value.type := by
  rw [ofTree_eq, assembleNode]
  split <;> rfl

@[simp] theorem location_ofTree (t : Tree) : (ofTree src t).location = locate src t.value := by
  rw [ofTree_eq, assembleNode]
  split <;> rfl

@[simp] theorem text_ofTree (t : Tree) : (ofTree src t).text = textOf src t.value := by
  rw [ofTree_eq, assembleNode]
  split <;> rfl

theorem name_ofTree_call {t : Tree} (h : kindOf t.value.type = .call) :
    (ofTree src t).name = (t.field? "method").map fun m => textOf src m.value := by
  rw [ofTree_eq, assembleNode]
  simp [factsOf, h, ofCall, fieldOf_convert, name, Function.comp_def]

theorem literal_ofTree_string {t : Tree} (h : kindOf t.value.type = .string) :
    (ofTree src t).literal =
      some (delimitedContent src t.value (t.children.map (convert src))) := by
  rw [ofTree_eq, assembleNode]
  simp only [factsOf, h]
  rfl

theorem literal_ofTree_symbol {t : Tree} (h : kindOf t.value.type = .symbol) :
    (ofTree src t).literal = some (symbolContent src t.value (t.children.map (convert src))) := by
  rw [ofTree_eq, assembleNode]
  simp only [factsOf, h]
  rfl

/-! ### The kinds of grammar rules -/

theorem kindOf_eq_call {type : String} :
    kindOf type = .call ↔ type = "call" ∨ type = "method_call" := by
  unfold kindOf
  grind

theorem isCall_iff {t : Tree} : t.isCall ↔ kindOf t.value.type = .call := by
  rw [Ruby.Tree.isCall, Bool.or_eq_true, beq_iff_eq, beq_iff_eq, kindOf_eq_call]

theorem kindOf_eq_pair {type : String} : kindOf type = .pair ↔ type = "pair" := by
  unfold kindOf
  grind

theorem kindOf_eq_classDecl {type : String} : kindOf type = .classDecl ↔ type = "class" := by
  unfold kindOf
  grind

/-! ### Runs of pairs -/

/-- Arguments with each run of pairs made one hash, run after run. -/
def foldRuns (src : Source) : List Node → List Node
  | [] => []
  | n :: ns =>
    if n.isPair then
      implicitHash src n (ns.takeWhile isPair) :: foldRuns src (ns.dropWhile isPair)
    else n :: foldRuns src ns
termination_by ns => ns.length
decreasing_by
  · simp only [List.length_cons]
    have := (List.dropWhile_suffix (l := ns) (p := isPair)).length_le
    omega
  · simp

theorem foldRuns_of_isPair {run : List Node} (h : ∀ m ∈ run, m.isPair) :
    foldRuns src run = Grouping.hashes src run := by
  cases run with
  | nil => rw [foldRuns, Grouping.hashes]
  | cons m ms =>
    obtain ⟨hm, hms⟩ := List.forall_mem_cons.mp h
    rw [foldRuns, if_pos hm, List.takeWhile_eq_self_iff.mpr hms, List.dropWhile_eq_nil_iff.mpr hms,
      foldRuns, Grouping.hashes]

/-- A run ends before the first node that is no pair. -/
theorem foldRuns_append_cons {run : List Node} (h : ∀ m ∈ run, m.isPair) {n : Node}
    (hn : ¬n.isPair) (ns : List Node) :
    foldRuns src (run ++ n :: ns) = Grouping.hashes src run ++ n :: foldRuns src ns := by
  cases run with
  | nil => rw [List.nil_append, foldRuns, if_neg hn, Grouping.hashes, List.nil_append]
  | cons m ms =>
    obtain ⟨hm, hms⟩ := List.forall_mem_cons.mp h
    rw [List.cons_append, foldRuns, if_pos hm, List.takeWhile_append_of_pos hms,
      List.takeWhile_cons_of_neg hn, List.append_nil, List.dropWhile_append_of_pos hms,
      List.dropWhile_cons_of_neg hn, foldRuns, if_neg hn, Grouping.hashes, List.singleton_append]

/-- The pairs that wait are those of the run that has been begun. -/
theorem close_foldl_take (ns : List Node) (g : Grouping) (h : ∀ m ∈ g.pending, m.isPair) :
    (ns.foldl (Grouping.take src) g).close src = g.done ++ foldRuns src (g.pending ++ ns) := by
  -- `g` may stand anywhere in the loop: what waits in it begins a run that is not cut yet
  induction ns generalizing g with
  | nil => rw [List.foldl_nil, List.append_nil, Grouping.close, foldRuns_of_isPair src h]
  | cons n ns ih =>
    rw [List.foldl_cons, Grouping.take]
    by_cases hn : n.isPair
    · have hpending : ∀ m ∈ g.pending ++ [n], m.isPair :=
        List.forall_mem_append.mpr ⟨h, List.forall_mem_singleton.mpr hn⟩
      rw [if_pos hn, ih _ hpending, List.append_assoc, List.singleton_append]
    · rw [if_neg hn, ih _ (List.forall_mem_nil _), List.nil_append,
        foldRuns_append_cons src h hn, Grouping.close]
      simp only [List.append_assoc, List.singleton_append]

/-- The pairs that wait go into one hash when their run ends. -/
theorem foldPairs_eq_foldRuns (ns : List Node) : foldPairs src ns = foldRuns src ns :=
  (close_foldl_take src ns {} (List.forall_mem_nil _)).trans (List.nil_append _)

/-! ### The children of a converted node -/

theorem children_ofTree_call {t : Tree} (h : kindOf t.value.type = .call) :
    (ofTree src t).children =
      ((t.field? "receiver").map (ofTree src)).toList ++
        foldPairs src (t.argumentParts.map (ofTree src)) ++
        ((t.field? "block").map (ofTree src)).toList := by
  rw [ofTree_eq, assembleNode]
  simp only [factsOf, h, ofCall, fieldOf_convert, Option.map_map, Rose.children_node]
  cases ha : t.field? "arguments" with
  | none =>
    simp [argumentParts, ha, Function.comp_def, node_convert, foldPairs_eq_foldRuns, foldRuns]
  | some a => simp [argumentParts, ha, Function.comp_def, node_convert]

theorem children_ofTree_pair {t : Tree} (h : kindOf t.value.type = .pair) :
    (ofTree src t).children =
      ((t.field? "key").map (ofTree src)).toList ++
        ((t.field? "value").map (ofTree src)).toList := by
  rw [ofTree_eq, assembleNode]
  simp [factsOf, h, ofPair, fieldOf_convert, Function.comp_def, node_convert]

theorem children_ofTree_classDecl {t : Tree} (h : kindOf t.value.type = .classDecl) :
    (ofTree src t).children =
      (t.superclassPart.map (ofTree src)).toList ++
        (bodyOf src (t.statements.map (convert src))).toList := by
  rw [ofTree_eq, assembleNode]
  simp only [factsOf, h, ofClass, fieldOf_convert, statementsOf_convert, Rose.children_node]
  cases hs : t.field? "superclass" <;> simp [superclassPart, hs]

/-- All other nodes keep their parts. -/
theorem children_ofTree_plain {t : Tree} (hcall : kindOf t.value.type ≠ .call)
    (hpair : kindOf t.value.type ≠ .pair) (hclass : kindOf t.value.type ≠ .classDecl) :
    (ofTree src t).children = t.parts.map (ofTree src) := by
  rw [ofTree_eq, assembleNode]
  cases h : kindOf t.value.type <;> simp_all [factsOf]

/-! ### The children as a grouping of what is kept -/

/-- The kinds and types of nodes that the concrete tree lacks, with the nodes
that they are put around. -/
inductive Implied : Kind → String → List Node → Prop where
  /-- A hash around pairs. -/
  | hash {ns : List Node} : (∀ n ∈ ns, n.kind = .pair) → Implied .hash "hash" ns
  /-- A body around statements. -/
  | body {ns : List Node} : Implied .other bodyType ns

/-- The second list is the first with some stretches put below a covering node. -/
inductive Grouped (src : Source) : List Node → List Node → Prop where
  | nil : Grouped src [] []
  | keep {ns ms : List Node} (n : Node) : Grouped src ns ms → Grouped src (n :: ns) (n :: ms)
  | cover {ns ms : List Node} {kind : Kind} {type : String} {first : Node} {more : List Node} :
      Implied kind type (first :: more) → Grouped src ns ms →
      Grouped src (first :: more ++ ns) (covering src kind type first more :: ms)

namespace Grouped

variable {src}

theorem refl : ∀ ns : List Node, Grouped src ns ns
  | [] => .nil
  | n :: ns => .keep n (refl ns)

theorem append {ns ms ns' ms' : List Node} (h : Grouped src ns ms) (h' : Grouped src ns' ms') :
    Grouped src (ns ++ ns') (ms ++ ms') := by
  induction h with
  | nil => exact h'
  | keep n _ ih => exact .keep n ih
  | cover himplied _ ih =>
    rw [List.append_assoc]
    exact .cover himplied ih

end Grouped

/-- Folding puts runs of pairs, and nothing else, below covering nodes. -/
theorem grouped_foldPairs (ns : List Node) : Grouped src ns (foldPairs src ns) := by
  rw [foldPairs_eq_foldRuns]
  induction ns using foldRuns.induct with
  | case1 =>
    rw [foldRuns]
    exact .nil
  | case2 n ns hn ih =>
    rw [foldRuns, if_pos hn]
    -- `n` and the pairs right after it go below the hash, the rest is folded on
    have hpairs : ∀ m ∈ n :: ns.takeWhile isPair, m.kind = .pair := by
      intro m hm
      rcases List.mem_cons.mp hm with rfl | hm
      · exact eq_of_beq hn
      · exact eq_of_beq (List.all_eq_true.mp List.all_takeWhile m hm)
    have h := Grouped.cover (.hash hpairs) ih
    rw [List.cons_append, List.takeWhile_append_dropWhile] at h
    exact h
  | case3 n ns hn ih =>
    rw [foldRuns, if_neg hn]
    exact .keep n ih

theorem grouped_implicitBody (s : Tree) (ss : List Tree) :
    Grouped src ((s :: ss).map (ofTree src))
      [implicitBody src (ofTree src s) (ss.map (ofTree src))] := by
  have h : Grouped src (ofTree src s :: ss.map (ofTree src) ++ [])
      [implicitBody src (ofTree src s) (ss.map (ofTree src))] := .cover .body .nil
  rwa [List.append_nil] at h

theorem grouped_bodyOf (ss : List Tree) :
    Grouped src (ss.map (ofTree src)) (bodyOf src (ss.map (convert src))).toList := by
  match ss with
  | [] => exact .nil
  | [s] =>
    simp only [List.map_cons, List.map_nil, bodyOf, node_convert]
    split
    · exact .refl _
    · exact grouped_implicitBody src s []
  | s :: r :: ss =>
    have h := grouped_implicitBody src s (r :: ss)
    simpa [bodyOf, Function.comp_def, node_convert] using h

/-- The children of a converted node are what is kept of the concrete one, in
order, with runs of pairs and loose statements put below covering nodes. -/
theorem grouped_kept (t : Tree) :
    Grouped src (t.kept.map (ofTree src)) (ofTree src t).children := by
  rw [Ruby.Tree.kept]
  split
  next h =>
    rw [children_ofTree_call src h, List.map_append, List.map_append, Option.toList_map,
      Option.toList_map]
    exact ((Grouped.refl _).append (grouped_foldPairs src _)).append (.refl _)
  next h =>
    rw [children_ofTree_pair src h, List.map_append, Option.toList_map, Option.toList_map]
    exact .refl _
  next h =>
    rw [children_ofTree_classDecl src h, List.map_append, Option.toList_map]
    exact (Grouped.refl _).append (grouped_bodyOf src _)
  next hcall hpair hclass =>
    rw [children_ofTree_plain src hcall hpair hclass]
    exact .refl _

/-! ### Where the nodes of a converted tree come from -/

/-- The ways in which a node comes to be in the converted tree of `t`. -/
inductive Origin (src : Source) (t : Tree) : Node → Prop where
  /-- It is the conversion of a concrete node. -/
  | concrete {s : Tree} : s ∈ t.preorder → Origin src t (ofTree src s)
  /-- It is put around conversions of concrete nodes. -/
  | implied {kind : Kind} {type : String} {first : Node} {more : List Node} :
      Implied kind type (first :: more) →
      (∀ n ∈ first :: more, ∃ s ∈ t.preorder, n = ofTree src s) →
      Origin src t (covering src kind type first more)

variable {src}

theorem children_covering (kind : Kind) (type : String) (first : Node) (more : List Node) :
    (covering src kind type first more).children = first :: more := rfl

theorem Origin.mono {s t : Tree} {n : Node} (h : Origin src s n) (hst : s ∈ t.preorder) :
    Origin src t n := by
  cases h with
  | concrete hr => exact .concrete (Rose.mem_preorder_trans hr hst)
  | implied himplied hfrom =>
    refine .implied himplied fun n hn => ?_
    obtain ⟨r, hr, rfl⟩ := hfrom n hn
    exact ⟨r, Rose.mem_preorder_trans hr hst, rfl⟩

/-- A member of a grouping is a node of the list or covers nodes of the list. -/
theorem Grouped.mem {ns ms : List Node} (h : Grouped src ns ms) {m : Node} (hm : m ∈ ms) :
    m ∈ ns ∨ ∃ kind type first more, m = covering src kind type first more ∧
      Implied kind type (first :: more) ∧ ∀ n ∈ first :: more, n ∈ ns := by
  induction h with
  | nil => exact absurd hm List.not_mem_nil
  | keep n _ ih =>
    rcases List.mem_cons.mp hm with rfl | hm
    · exact .inl List.mem_cons_self
    · rcases ih hm with hn | ⟨kind, type, first, more, rfl, himplied, hfrom⟩
      · exact .inl (List.mem_cons_of_mem n hn)
      · exact .inr ⟨kind, type, first, more, rfl, himplied,
          fun k hk => List.mem_cons_of_mem n (hfrom k hk)⟩
  | @cover ns ms kind type first more himplied _ ih =>
    rcases List.mem_cons.mp hm with rfl | hm
    · exact .inr ⟨kind, type, first, more, rfl, himplied,
        fun k hk => List.mem_append_left ns hk⟩
    · rcases ih hm with hn | ⟨kind', type', first', more', rfl, himplied', hfrom⟩
      · exact .inl (List.mem_append_right _ hn)
      · exact .inr ⟨kind', type', first', more', rfl, himplied',
          fun k hk => List.mem_append_right _ (hfrom k hk)⟩

/-- Every node of a converted tree has an origin. -/
theorem origin_of_mem {t : Tree} {n : Node} (h : n ∈ (ofTree src t).preorder) :
    Origin src t n := by
  induction t using Rose.strong_induct generalizing n with
  | step t ih =>
    -- what is kept may stand deeper than the children, so the induction is a strong one
    have below : ∀ c ∈ kept t, c ∈ t.preorder ∧
        ∀ n ∈ (ofTree src c).preorder, Origin src t n := by
      intro c hc
      obtain ⟨d, hd, hcd⟩ := Ruby.Tree.exists_child_of_mem_kept hc
      have hct := Rose.mem_preorder_iff.mpr (.inr ⟨d, hd, hcd⟩)
      exact ⟨hct, fun n hn => (ih d hd c hcd hn).mono hct⟩
    rcases Rose.mem_preorder_iff.mp h with rfl | ⟨m, hm, hn⟩
    · exact .concrete (Rose.self_mem_preorder t)
    · rcases (grouped_kept src t).mem hm with hm | ⟨kind, type, first, more, rfl, himplied, hfrom⟩
      · obtain ⟨c, hc, rfl⟩ := List.mem_map.mp hm
        exact (below c hc).2 n hn
      · rcases Rose.mem_preorder_iff.mp hn with rfl | ⟨k, hk, hn⟩
        · refine .implied himplied fun k hk => ?_
          obtain ⟨c, hc, rfl⟩ := List.mem_map.mp (hfrom k hk)
          exact ⟨c, (below c hc).1, rfl⟩
        · rw [children_covering] at hk
          obtain ⟨c, hc, rfl⟩ := List.mem_map.mp (hfrom k hk)
          exact (below c hc).2 n hn

/-- The literals of a converted tree have a value. -/
theorem literal_isSome_of_mem {t : Tree} {n : Node} (h : n ∈ (ofTree src t).preorder)
    (hn : n.isLiteral) : n.literal.isSome := by
  cases origin_of_mem h with
  | @concrete s _ =>
    rw [isLiteral, kind_ofTree] at hn
    cases hkind : kindOf s.value.type
    case string => rw [literal_ofTree_string src hkind, Option.isSome_some]
    case symbol => rw [literal_ofTree_symbol src hkind, Option.isSome_some]
    all_goals
      rw [hkind] at hn
      cases hn
  | implied himplied _ => cases himplied <;> exact absurd hn Bool.false_ne_true

/-! ### The sample -/

/-- The simplified syntax of the sample. -/
def sample : Node :=
  ofTree (.ofText none Ruby.Tree.sampleText) Ruby.Tree.sample

/-- The statements of the class in the sample. -/
def sampleBody : Option Node :=
  sample.walk.find? fun (n : Node) => n.type == bodyType

theorem isSome_sampleBody : sampleBody.isSome := by
  decide +kernel

theorem mem_walk_of_mem_sampleBody {body : Node} (h : body ∈ sampleBody) : body ∈ sample.walk :=
  List.mem_of_find?_eq_some h

end TapLint.Node
