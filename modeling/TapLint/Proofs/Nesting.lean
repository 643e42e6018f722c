/-
How deep the calls of a conversion are nested.

The depth of a node comes from the depths of what is kept of it, each with a helper or
more around it.  So it grows with the trees, and no faster:

* `callDepth_eq` — the depth of a node, by what is kept of it;
* `callDepth_le` — four calls are enough for each level of a concrete tree;
* `height_ofTree_le_callDepth` — what is made of a tree is no higher than the calls are deep;
* `callDepth_nestedArrays` — brackets around each other take three calls for each pair, so no
  host allows enough calls for all trees.
-/
import Mathlib.Data.List.MinMax
import Mathlib.Order.Nat
import TapLint.Proofs.Conversion
import TapLint.Proofs.SyntaxErrors
import TapLint.Syntax.Nesting

namespace TapLint

namespace Rose

variable {α : Type} {s t c : Rose α}

/-- How many nodes there are on the longest way down a tree. -/
def height (t : Rose α) : Nat := t.fold fun _ heights => 1 + heights.foldr max 0

theorem height_eq (t : Rose α) : t.height = 1 + (t.children.map height).foldr max 0 := by
  cases t with
  | node a cs => exact fold_node _ a cs

theorem height_lt_of_mem_children (h : c ∈ t.children) : c.height < t.height := by
  have hle : c.height ≤ (t.children.map height).foldr max 0 :=
    List.le_max_of_le' 0 (List.mem_map_of_mem h) le_rfl
  rw [height_eq t]
  omega

theorem height_le_of_forall {n : Nat} (h : ∀ c ∈ t.children, c.height ≤ n) : t.height ≤ 1 + n := by
  rw [height_eq]
  exact Nat.add_le_add_left (List.max_le_of_forall_le _ n (List.forall_mem_map.mpr h)) 1

theorem height_le_of_mem_preorder (h : s ∈ t.preorder) : s.height ≤ t.height := by
  induction t with
  | node a cs ih =>
    rcases mem_preorder_iff.mp h with rfl | ⟨c, hc, hs⟩
    · exact le_rfl
    · exact (ih c hc hs).trans (height_lt_of_mem_children hc).le

end Rose

namespace Node

open Ruby (Label Tree)
open Ruby.Tree (parts kept construct token)

/-! ### What is counted for a tree -/

/-- What is counted for a node. -/
def counted (t : Tree) : Converted Nat := t.fold countCalls

theorem counted_eq (t : Tree) : counted t = countCalls t.value (t.children.map counted) := by
  cases t with
  | node l cs => exact Rose.fold_node _ l cs

theorem node_counted (t : Tree) : (counted t).node = callDepth t := rfl

theorem label_counted (t : Tree) : (counted t).label = t.value :=
  label_fold (fun _ _ => rfl) t

theorem parts_counted (t : Tree) : (counted t).parts = t.parts.map callDepth := by
  rw [counted_eq, countCalls, parts, List.filter_map]
  simp [Function.comp_def, label_counted, node_counted]

theorem fieldOf_map_counted (name : String) (t : Tree) :
    fieldOf name (t.children.map counted) = (t.field? name).map counted :=
  fieldOf_map_fold (fun _ _ => rfl) name t

theorem statementsOf_map_counted (t : Tree) :
    statementsOf (t.children.map counted) = t.statements.map counted :=
  statementsOf_map_fold (fun _ _ => rfl) t

/-- The calls within the conversion of a node, by what is kept of it. -/
theorem callDepth_eq (t : Tree) :
    callDepth t = 1 +
      match kindOf t.value.type with
      | .call =>
        max 4 (max
          (deepest 1 (((t.field? "receiver").toList ++ (t.field? "block").toList).map callDepth))
          (deepest 2 (t.argumentParts.map callDepth)))
      | .pair =>
        max 4 (deepest 1 (((t.field? "key").toList ++ (t.field? "value").toList).map callDepth))
      | .classDecl =>
        max 4 (max (deepest 1 (t.superclassPart.toList.map callDepth))
          (statementsDepth (t.statements.map counted)))
      | .string | .symbol => max 4 (deepest 3 (t.parts.map callDepth))
      | .constant | .block | .hash | .array | .other =>
        max 3 (deepest 2 (t.parts.map callDepth)) := by
  have hfield : ∀ name, (fieldOf name (t.children.map counted)).toList.map (·.node) =
      (t.field? name).toList.map callDepth := fun name => by
    rw [fieldOf_map_counted, Option.toList_map, List.map_map]
    rfl
  have hcounted : callDepth t =
      1 + callsInside t.value (t.children.map counted) (t.parts.map callDepth) := by
    rw [← parts_counted, ← node_counted, counted_eq, countCalls]
  rw [hcounted, callsInside]
  cases kindOf t.value.type
  case call =>
    have harguments : (fieldOf "arguments" (t.children.map counted)).toList.flatMap (·.parts) =
        t.argumentParts.map callDepth := by
      rw [fieldOf_map_counted, Ruby.Tree.argumentParts]
      cases t.field? "arguments" <;> simp [parts_counted]
    simp only [hfield, harguments, List.map_append]
  case classDecl =>
    have hsuperclass : ((fieldOf "superclass" (t.children.map counted)).toList.flatMap
        (·.parts)).head?.toList = t.superclassPart.toList.map callDepth := by
      rw [fieldOf_map_counted, Ruby.Tree.superclassPart]
      cases t.field? "superclass" <;> simp [parts_counted, Option.toList_map]
    simp only [hsuperclass, statementsOf_map_counted]
  all_goals simp only [hfield, List.map_append]

/-! ### Bounds by what is kept -/

theorem deepest_le {helpers n : Nat} {depths : List Nat} (h : ∀ d ∈ depths, helpers + d ≤ n) :
    deepest helpers depths ≤ n :=
  List.max_le_of_forall_le _ n (List.forall_mem_map.mpr h)

theorem le_deepest {d : Nat} {depths : List Nat} (helpers : Nat) (h : d ∈ depths) :
    helpers + d ≤ deepest helpers depths :=
  List.le_max_of_le' 0 (List.mem_map_of_mem h) le_rfl

theorem statementsDepth_le {n : Nat} : ∀ cs : List (Converted Nat),
    (∀ c ∈ cs, 3 + c.node ≤ n) → statementsDepth cs ≤ n
  | [], _ => Nat.zero_le n
  | [c], h => by
    have hc := h c (List.mem_singleton_self c)
    rw [statementsDepth]
    split <;> omega
  | _ :: _ :: _, h => deepest_le (List.forall_mem_map.mpr h)

theorem le_statementsDepth {c : Converted Nat} : ∀ {cs : List (Converted Nat)}, c ∈ cs →
    1 + c.node ≤ statementsDepth cs
  | [d], h => by
    rw [List.mem_singleton.mp h, statementsDepth]
    split <;> omega
  | d :: e :: ds, h => by
    have hdeepest : 3 + c.node ≤ statementsDepth (d :: e :: ds) :=
      le_deepest 3 (List.mem_map_of_mem h)
    omega

/-- At most three helpers stand between the conversion of a node and those of what is kept. -/
theorem callDepth_le_of_kept {t : Tree} {n : Nat} (hn : 4 ≤ n)
    (h : ∀ s ∈ kept t, 3 + callDepth s ≤ n) : callDepth t ≤ 1 + n := by
  have hle : ∀ helpers ≤ 3, ∀ ss : List Tree, (∀ s ∈ ss, s ∈ kept t) →
      deepest helpers (ss.map callDepth) ≤ n := by
    intro helpers hhelpers ss hss
    refine deepest_le (List.forall_mem_map.mpr fun s hs => ?_)
    exact (Nat.add_le_add_right hhelpers _).trans (h s (hss s hs))
  rw [callDepth_eq]
  refine Nat.add_le_add_left ?_ 1
  rw [kept] at h hle
  cases hkind : kindOf t.value.type <;> simp only [hkind] at h hle ⊢
  case call =>
    refine max_le hn (max_le (hle 1 (by decide) _ fun s hs => ?_)
      (hle 2 (by decide) _ fun s hs => ?_))
    · rcases List.mem_append.mp hs with hs | hs
      · exact List.mem_append_left _ (List.mem_append_left _ hs)
      · exact List.mem_append_right _ hs
    · exact List.mem_append_left _ (List.mem_append_right _ hs)
  case pair => exact max_le hn (hle 1 (by decide) _ fun _ hs => hs)
  case classDecl =>
    refine max_le hn (max_le (hle 1 (by decide) _ fun s hs => List.mem_append_left _ hs)
      (statementsDepth_le _ (List.forall_mem_map.mpr fun s hs => ?_)))
    exact h s (List.mem_append_right _ hs)
  case string | symbol => exact max_le hn (hle 3 le_rfl _ fun _ hs => hs)
  case constant | block | hash | array | other =>
    exact max_le (by omega) (hle 2 (by decide) _ fun _ hs => hs)

/-- At least one does. -/
theorem callDepth_add_two_le {s t : Tree} (h : s ∈ kept t) : callDepth s + 2 ≤ callDepth t := by
  have hle : ∀ helpers ≥ 1, ∀ ss : List Tree, s ∈ ss →
      1 + callDepth s ≤ deepest helpers (ss.map callDepth) := fun helpers hhelpers ss hs =>
    (Nat.add_le_add_right hhelpers _).trans (le_deepest helpers (List.mem_map_of_mem hs))
  have hinside : ∀ {m : Nat}, 1 + callDepth s ≤ m → callDepth s + 2 ≤ 1 + m := fun hm => by omega
  rw [callDepth_eq t]
  refine hinside ?_
  rw [kept] at h
  cases hkind : kindOf t.value.type <;> simp only [hkind] at h ⊢
  case call =>
    rw [List.append_assoc, List.mem_append, List.mem_append] at h
    rcases h with hreceiver | hargument | hblock
    · exact le_max_of_le_right (le_max_of_le_left
        (hle 1 le_rfl _ (List.mem_append_left _ hreceiver)))
    · exact le_max_of_le_right (le_max_of_le_right (hle 2 (by decide) _ hargument))
    · exact le_max_of_le_right (le_max_of_le_left
        (hle 1 le_rfl _ (List.mem_append_right _ hblock)))
  case pair => exact le_max_of_le_right (hle 1 le_rfl _ h)
  case classDecl =>
    rcases List.mem_append.mp h with hsuperclass | hstatement
    · exact le_max_of_le_right (le_max_of_le_left (hle 1 le_rfl _ hsuperclass))
    · exact le_max_of_le_right (le_max_of_le_right
        (le_statementsDepth (List.mem_map_of_mem hstatement)))
  case string | symbol => exact le_max_of_le_right (hle 3 (by decide) _ h)
  case constant | block | hash | array | other =>
    exact le_max_of_le_right (hle 2 (by decide) _ h)

/-! ### Shallow trees and deep ones -/

/-- **Four calls are enough for each level of a concrete tree**, and one more. -/
theorem callDepth_le (t : Tree) : callDepth t ≤ 4 * t.height + 1 := by
  induction t using Rose.strong_induct with
  | step t ih =>
    have hfour : 4 ≤ 4 * t.height := by
      rw [Rose.height_eq]
      omega
    rw [Nat.add_comm]
    refine callDepth_le_of_kept hfour fun s hs => ?_
    -- what is kept stands below a child, so it is lower than the tree
    obtain ⟨c, hc, hsc⟩ := Ruby.Tree.exists_child_of_mem_kept hs
    have hdepth : callDepth s ≤ 4 * s.height + 1 := ih c hc s hsc
    have hle := Rose.height_le_of_mem_preorder hsc
    have hlt := Rose.height_lt_of_mem_children hc
    omega

/-- **The conversion of a tree nests as deep as what it makes of the tree**, at least. -/
theorem height_ofTree_le_callDepth (src : Source) (t : Tree) :
    (ofTree src t).height ≤ callDepth t := by
  induction t using Rose.strong_induct with
  | step t ih =>
    have hkept : ∀ m ∈ (kept t).map (ofTree src), m.height + 2 ≤ callDepth t := by
      refine List.forall_mem_map.mpr fun s hs => ?_
      obtain ⟨c, hc, hsc⟩ := Ruby.Tree.exists_child_of_mem_kept hs
      have hle : (ofTree src s).height ≤ callDepth s := ih c hc s hsc
      have hdepth := callDepth_add_two_le hs
      omega
    obtain ⟨n, hn⟩ : ∃ n, callDepth t = 1 + n := ⟨_, callDepth_eq t⟩
    rw [hn] at hkept ⊢
    refine Rose.height_le_of_forall fun m hm => ?_
    -- a node that is put around others is made without a call of its own, hence the two above
    rcases (grouped_kept src t).mem hm with hm | ⟨kind, type, first, more, rfl, -, hfrom⟩
    · have := hkept m hm
      omega
    · obtain ⟨k, rfl⟩ : ∃ k, n = 1 + k := ⟨n - 1, by
        have := hkept first (hfrom first List.mem_cons_self)
        omega⟩
      refine Rose.height_le_of_forall fun m hm => ?_
      have := hkept m (hfrom m hm)
      omega

/-! ### Brackets in brackets -/

/-- The tree of an empty array within so many others, from an offset on. -/
def nestedArrays (start : Nat) : Nat → Tree
  | 0 => construct "array" start (start + 2) none [token "[" start, token "]" (start + 1)]
  | n + 1 =>
    construct "array" start (start + 2 * n + 4) none
      [token "[" start, nestedArrays (start + 1) n, token "]" (start + 2 * n + 3)]

theorem type_nestedArrays (start n : Nat) : (nestedArrays start n).value.type = "array" := by
  cases n <;> rfl

theorem parts_nestedArrays_zero (start : Nat) : parts (nestedArrays start 0) = [] := rfl

theorem parts_nestedArrays_succ (start n : Nat) :
    parts (nestedArrays start (n + 1)) = [nestedArrays (start + 1) n] := by
  cases n <;> rfl

/-- Each pair of brackets takes three calls more. -/
theorem callDepth_nestedArrays (start n : Nat) : callDepth (nestedArrays start n) = 3 * n + 4 := by
  have hkind : ∀ start n, kindOf (nestedArrays start n).value.type = .array := fun start n => by
    rw [type_nestedArrays]
    rfl
  induction n generalizing start with
  | zero =>
    rw [callDepth_eq, hkind, parts_nestedArrays_zero]
    rfl
  | succ n ih =>
    rw [callDepth_eq, hkind, parts_nestedArrays_succ, List.map_singleton, ih]
    simp only [deepest, List.map_singleton, List.foldr_cons, List.foldr_nil]
    omega

theorem hasError_nestedArrays (start n : Nat) : (nestedArrays start n).hasError = false := by
  induction n generalizing start with
  | zero => rfl
  | succ n ih =>
    have hchildren : Rose.children (nestedArrays start (n + 1)) =
        [token "[" start, nestedArrays (start + 1) n, token "]" (start + 2 * n + 3)] := rfl
    rw [Ruby.Tree.hasError_eq, hchildren]
    simp only [List.any_cons, List.any_nil, ih]
    rfl

end Node

end TapLint
