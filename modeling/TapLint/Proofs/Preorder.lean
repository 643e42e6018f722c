/-
The walks over a tree, as recursions.

The program walks a tree with a stack.  Here the same lists are given by
recursion over the tree, which is what proofs about a walk go by:

* `walk_eq_preorder` — the walk is the recursive preorder;
* `walkWithAncestors_eq_lineages` — the walk with ancestors is the recursion that
  hands the path from the root down to each node.

`Everywhere P t` says that `P` holds of every subtree of `t`.
-/
import TapLint.Rose

namespace TapLint

universe u v

/-- Members that give nothing may be left out. -/
theorem flatMap_filter_eq {α : Type u} {β : Type v} {p : α → Bool} {f : α → List β} {l : List α}
    (h : ∀ c ∈ l, p c = false → f c = []) : (l.filter p).flatMap f = l.flatMap f := by
  induction l with
  | nil => rfl
  | cons c l ih =>
    have ih := ih fun d hd => h d (List.mem_cons_of_mem c hd)
    rw [List.filter_cons]
    split
    next hp => rw [List.flatMap_cons, List.flatMap_cons, ih]
    next hp =>
      have hc := h c List.mem_cons_self (Bool.eq_false_iff.mpr hp)
      rw [List.flatMap_cons, hc, List.nil_append, ih]

namespace Rose

variable {α : Type u}

/-! ### Induction -/

/-- What holds of a node whenever it holds of the children holds of every tree. -/
@[elab_as_elim, induction_eliminator]
theorem induct {motive : Rose α → Prop}
    (node : ∀ (a : α) (cs : List (Rose α)), (∀ c ∈ cs, motive c) → motive (.node a cs)) :
    ∀ t, motive t
  | .node a cs => node a cs fun c _ => induct node c
termination_by t => sizeOf t
decreasing_by
  have := List.sizeOf_lt_of_mem ‹c ∈ cs›
  simp only [Rose.node.sizeOf_spec]
  omega

/-! ### The recursive preorder -/

theorem preorderList_eq_flatMap (cs : List (Rose α)) :
    preorderList cs = cs.flatMap preorder := by
  induction cs with
  | nil => rfl
  | cons c cs ih => rw [preorderList, ih, List.flatMap_cons]

@[simp] theorem preorder_node (a : α) (cs : List (Rose α)) :
    (node a cs).preorder = node a cs :: cs.flatMap preorder := by
  rw [preorder, preorderList_eq_flatMap]

theorem preorder_eq (t : Rose α) : t.preorder = t :: t.children.flatMap preorder := by
  cases t with
  | node a cs => exact preorder_node a cs

theorem self_mem_preorder (t : Rose α) : t ∈ t.preorder := by
  rw [preorder_eq]
  exact List.mem_cons_self

theorem mem_preorder_iff {s t : Rose α} :
    s ∈ t.preorder ↔ s = t ∨ ∃ c ∈ t.children, s ∈ c.preorder := by
  rw [preorder_eq, List.mem_cons, List.mem_flatMap]

theorem mem_preorder_of_mem_children {c t : Rose α} (h : c ∈ t.children) : c ∈ t.preorder :=
  mem_preorder_iff.mpr (.inr ⟨c, h, self_mem_preorder c⟩)

/-- A subtree of a subtree is a subtree. -/
theorem mem_preorder_trans {r s t : Rose α} (hrs : r ∈ s.preorder) (hst : s ∈ t.preorder) :
    r ∈ t.preorder := by
  induction t with
  | node a cs ih =>
    rcases mem_preorder_iff.mp hst with rfl | ⟨c, hc, hs⟩
    · exact hrs
    · exact mem_preorder_iff.mpr (.inr ⟨c, hc, ih c hc hs⟩)

/-- The subtrees that pass a test: the tree itself, if it does, and those below. -/
theorem filter_preorder (p : Rose α → Bool) (t : Rose α) :
    t.preorder.filter p =
      (if p t then [t] else []) ++ t.children.flatMap fun c => c.preorder.filter p := by
  rw [preorder_eq, List.filter_cons, List.filter_flatMap]
  split <;> rfl

/-! ### The walk with a stack -/

/-- What is still to be popped is the preorder of the stack, tree after tree. -/
theorem drain_eq (stack popped : List (Rose α)) :
    drain stack popped = popped.reverse ++ stack.flatMap preorder := by
  induction stack, popped using drain.induct with
  | case1 popped => simp [drain]
  | case2 popped t rest ih =>
    -- the children of `t` go before `rest`, where the preorder has them
    rw [drain, ih, List.flatMap_append, List.flatMap_cons, preorder_eq t]
    simp

theorem descendants_eq (t : Rose α) : t.descendants = t.children.flatMap preorder := by
  rw [descendants, drain_eq, List.reverse_nil, List.nil_append]

/-- The walk over a stack is the recursive preorder. -/
theorem walk_eq_preorder (t : Rose α) : t.walk = t.preorder := by
  rw [walk, descendants_eq, ← preorder_eq]

/-! ### The walk with ancestors -/

mutual

/-- Every subtree with the path that leads to it, when `path` leads to the tree. -/
def lineages (path : List (Rose α)) : Rose α → List (Rose α × List (Rose α))
  | node a cs => (node a cs, path) :: lineagesList (path ++ [node a cs]) cs

/-- The lineages of a list of trees that have one path. -/
def lineagesList (path : List (Rose α)) : List (Rose α) → List (Rose α × List (Rose α))
  | [] => []
  | c :: cs => lineages path c ++ lineagesList path cs

end

theorem lineagesList_eq_flatMap (path cs : List (Rose α)) :
    lineagesList path cs = cs.flatMap (lineages path) := by
  induction cs with
  | nil => rfl
  | cons c cs ih => rw [lineagesList, ih, List.flatMap_cons]

theorem lineages_eq (path : List (Rose α)) (t : Rose α) :
    lineages path t = (t, path) :: t.children.flatMap (lineages (path ++ [t])) := by
  cases t with
  | node a cs => rw [lineages, lineagesList_eq_flatMap, children_node]

/-- What is still to be popped are the lineages of the trees on the stack, each
below the path that it was pushed with. -/
theorem drainWithAncestors_eq (stack popped : List (Rose α × List (Rose α))) :
    drainWithAncestors stack popped =
      popped.reverse ++ stack.flatMap fun entry => lineages entry.2 entry.1 := by
  induction stack, popped using drainWithAncestors.induct with
  | case1 popped => simp [drainWithAncestors]
  | case2 popped t path rest ih =>
    rw [drainWithAncestors, ih, List.flatMap_append, List.flatMap_cons, lineages_eq path t]
    simp [List.flatMap_map]

theorem walkWithAncestors_eq_lineages (t : Rose α) : t.walkWithAncestors = lineages [] t := by
  rw [walkWithAncestors, drainWithAncestors_eq]
  simp

/-! ### Properties of every subtree -/

/-- Every subtree has a property. -/
def Everywhere (P : Rose α → Prop) (t : Rose α) : Prop :=
  ∀ s ∈ t.preorder, P s

instance (P : Rose α → Prop) [DecidablePred P] (t : Rose α) : Decidable (t.Everywhere P) :=
  inferInstanceAs (Decidable (∀ s ∈ t.preorder, P s))

variable {P : Rose α → Prop}

theorem everywhere_iff {t : Rose α} :
    t.Everywhere P ↔ P t ∧ ∀ c ∈ t.children, c.Everywhere P := by
  constructor
  · intro h
    refine ⟨h t (self_mem_preorder t), fun c hc s hs => ?_⟩
    exact h s (mem_preorder_iff.mpr (.inr ⟨c, hc, hs⟩))
  · rintro ⟨ht, hcs⟩ s hs
    rcases mem_preorder_iff.mp hs with rfl | ⟨c, hc, hs⟩
    · exact ht
    · exact hcs c hc s hs

theorem Everywhere.self {t : Rose α} (h : t.Everywhere P) : P t :=
  (everywhere_iff.mp h).1

theorem Everywhere.child {c t : Rose α} (h : t.Everywhere P) (hc : c ∈ t.children) :
    c.Everywhere P :=
  (everywhere_iff.mp h).2 c hc

theorem Everywhere.mono {Q : Rose α → Prop} {t : Rose α} (h : t.Everywhere P)
    (hPQ : ∀ s, P s → Q s) : t.Everywhere Q :=
  fun s hs => hPQ s (h s hs)

/-- A part of a tree has everywhere what the tree has everywhere. -/
theorem Everywhere.of_mem {s t : Rose α} (h : t.Everywhere P) (hs : s ∈ t.preorder) :
    s.Everywhere P :=
  fun _ hr => h _ (mem_preorder_trans hr hs)

/-- What holds of a tree whenever it holds everywhere below it holds of every tree. -/
@[elab_as_elim]
theorem strong_induct {motive : Rose α → Prop}
    (step : ∀ t : Rose α, (∀ c ∈ t.children, c.Everywhere motive) → motive t) (t : Rose α) :
    motive t := by
  have h : t.Everywhere motive := by
    induction t with
    | node a cs ih => exact everywhere_iff.mpr ⟨step (node a cs) ih, ih⟩
  exact h.self

/-! ### Equality -/

mutual

/-- Decides whether two trees are equal. -/
def decEq [DecidableEq α] : (s t : Rose α) → Decidable (s = t)
  | node a cs, node b ds =>
    if hab : a = b then
      match decEqList cs ds with
      | isTrue hcd => isTrue (by rw [hab, hcd])
      | isFalse hcd => isFalse fun h => hcd (node.inj h).2
    else isFalse fun h => hab (node.inj h).1

/-- Decides whether two lists of trees are equal. -/
def decEqList [DecidableEq α] : (cs ds : List (Rose α)) → Decidable (cs = ds)
  | [], [] => isTrue rfl
  | [], _ :: _ => isFalse nofun
  | _ :: _, [] => isFalse nofun
  | c :: cs, d :: ds =>
    match decEq c d, decEqList cs ds with
    | isTrue hc, isTrue hcs => isTrue (by rw [hc, hcs])
    | isFalse hc, _ => isFalse fun h => hc (List.cons.inj h).1
    | _, isFalse hcs => isFalse fun h => hcs (List.cons.inj h).2

end

instance [DecidableEq α] : DecidableEq (Rose α) := decEq

end Rose

end TapLint
