/-
The walks over a tree, occurrence by occurrence.

Equal subtrees may stand at several places of a tree, so what a walk meets is told
apart by its address: which child to take at each step down from the root.  The
addresses of a tree have an order of their own, in which an address comes before those
that go on from it, and an earlier child before a later one.

* `Leads` — what an address leads to, and the trees that it passes on the way;
* `addresses` — the addresses of a tree, by recursion;
* `mem_addresses_iff`, `pairwise_addresses` — they are those that lead somewhere, each
  once, in their order;
* `forall₂_addresses_lineages` — the recursion with paths goes by the addresses.

The main statement is `walks_by_address`.
-/
import Mathlib.Data.List.Chain
import Mathlib.Data.List.Forall2
import TapLint.Proofs.Preorder

namespace TapLint.Rose

universe u

variable {α : Type u}

/-! ### Addresses -/

/-- An address leads from a tree to one of its subtrees.  The path has the trees that are
passed, the outermost first. -/
inductive Leads : Rose α → List Nat → List (Rose α) → Rose α → Prop where
  | here (t : Rose α) : Leads t [] [] t
  | child {t c s : Rose α} {i : Nat} {p : List Nat} {path : List (Rose α)} :
      t.children[i]? = some c → Leads c p path s → Leads t (i :: p) (t :: path) s

namespace Leads

variable {s t : Rose α} {p : List Nat} {path : List (Rose α)}

theorem head?_path (h : Leads t p path s) : (path ++ [s]).head? = some t := by
  cases h with
  | here => rfl
  | child _ _ => rfl

/-- Every tree on a path is a child of the one before it, and so is the last tree. -/
theorem isChain_path (h : Leads t p path s) :
    (path ++ [s]).IsChain fun parent child => child ∈ parent.children := by
  induction h with
  | here t => exact List.isChain_singleton t
  | child hchild hleads ih =>
    rw [List.cons_append]
    refine ih.cons fun c hc => ?_
    rw [hleads.head?_path] at hc
    rw [← Option.some.inj hc]
    exact List.mem_of_getElem? hchild

end Leads

mutual

/-- The addresses of a tree, that of a node before those of what is below it. -/
def addresses : Rose α → List (List Nat)
  | node _ cs => [] :: addressesFrom 0 cs

/-- The addresses below children of which the first has the number `i`. -/
def addressesFrom (i : Nat) : List (Rose α) → List (List Nat)
  | [] => []
  | c :: cs => (addresses c).map (i :: ·) ++ addressesFrom (i + 1) cs

end

theorem mem_addressesFrom_iff {i : Nat} {cs : List (Rose α)} {p : List Nat} :
    p ∈ addressesFrom i cs ↔
      ∃ j q c, p = (i + j) :: q ∧ cs[j]? = some c ∧ q ∈ c.addresses := by
  induction cs generalizing i with
  | nil => simp [addressesFrom]
  | cons c cs ih =>
    rw [addressesFrom, List.mem_append, List.mem_map, ih]
    constructor
    · rintro (⟨q, hq, rfl⟩ | ⟨j, q, d, rfl, hd, hq⟩)
      · exact ⟨0, q, c, rfl, rfl, hq⟩
      · refine ⟨j + 1, q, d, ?_, hd, hq⟩
        rw [Nat.add_assoc, Nat.add_comm 1 j]
    · rintro ⟨j, q, d, rfl, hd, hq⟩
      cases j with
      | zero =>
        have hcd : c = d := Option.some.inj hd
        exact .inl ⟨q, hcd ▸ hq, rfl⟩
      | succ j =>
        refine .inr ⟨j, q, d, ?_, hd, hq⟩
        rw [Nat.add_assoc, Nat.add_comm 1 j]

/-- The addresses of a tree are those that lead somewhere. -/
theorem mem_addresses_iff {t : Rose α} {p : List Nat} :
    p ∈ t.addresses ↔ ∃ path s, t.Leads p path s := by
  induction t generalizing p with
  | node a cs ih =>
    rw [addresses]
    constructor
    · intro h
      rcases List.mem_cons.mp h with rfl | h
      · exact ⟨[], _, .here _⟩
      · obtain ⟨j, q, c, rfl, hc, hq⟩ := mem_addressesFrom_iff.mp h
        obtain ⟨path, s, hleads⟩ := (ih c (List.mem_of_getElem? hc)).mp hq
        rw [Nat.zero_add]
        exact ⟨_, s, .child hc hleads⟩
    · rintro ⟨path, s, h⟩
      cases h with
      | here => exact List.mem_cons_self
      | @child _ c _ i q path hc hleads =>
        have hq : q ∈ c.addresses := (ih c (List.mem_of_getElem? hc)).mpr ⟨path, s, hleads⟩
        refine List.mem_cons_of_mem _ (mem_addressesFrom_iff.mpr ⟨i, q, c, ?_, hc, hq⟩)
        rw [Nat.zero_add]

/-- The addresses of a tree come in their order, so that no two of them are the same. -/
theorem pairwise_addresses (t : Rose α) : t.addresses.Pairwise (List.Lex (· < ·)) := by
  induction t with
  | node a cs ih =>
    -- the children are numbered from `i` on in the induction over them
    have hbelow : ∀ (i : Nat) (ds : List (Rose α)),
        (∀ d ∈ ds, d.addresses.Pairwise (List.Lex (· < ·))) →
          (addressesFrom i ds).Pairwise (List.Lex (· < ·)) := by
      intro i ds hds
      induction ds generalizing i with
      | nil => exact .nil
      | cons d ds ihds =>
        rw [addressesFrom]
        refine List.pairwise_append.mpr ⟨?_, ?_, ?_⟩
        · have hd := hds d List.mem_cons_self
          exact List.pairwise_map.mpr (hd.imp fun hpq => List.Lex.cons hpq)
        · exact ihds (i + 1) fun e he => hds e (List.mem_cons_of_mem d he)
        · intro p hp q hq
          obtain ⟨p, -, rfl⟩ := List.mem_map.mp hp
          obtain ⟨j, q, e, rfl, -, -⟩ := mem_addressesFrom_iff.mp hq
          exact List.Lex.rel (by omega)
    rw [addresses]
    refine .cons (fun p hp => ?_) (hbelow 0 cs ih)
    obtain ⟨j, q, c, rfl, -, -⟩ := mem_addressesFrom_iff.mp hp
    exact List.Lex.nil

/-! ### The walks by address -/

/-- The recursion with paths meets, one after the other, what the addresses lead to. -/
theorem forall₂_addresses_lineages (path : List (Rose α)) (t : Rose α) :
    List.Forall₂ (fun p entry => ∃ below, entry.2 = path ++ below ∧ t.Leads p below entry.1)
      t.addresses (lineages path t) := by
  induction t generalizing path with
  | node a cs ih =>
    -- the children up to `before` are done, and `ds` is what remains of them
    have hbelow : ∀ ds before : List (Rose α), cs = before ++ ds →
        List.Forall₂ (fun p entry => ∃ below, entry.2 = path ++ below ∧
            (node a cs).Leads p below entry.1)
          (addressesFrom before.length ds)
          (ds.flatMap (lineages (path ++ [node a cs]))) := by
      intro ds
      induction ds with
      | nil => exact fun _ _ => .nil
      | cons d ds ihds =>
        intro before hsplit
        have hd : d ∈ cs := hsplit ▸ List.mem_append_right before List.mem_cons_self
        have hchild : (node a cs).children[before.length]? = some d := by
          rw [children_node, hsplit]
          simp
        rw [addressesFrom, List.flatMap_cons]
        refine List.rel_append (List.forall₂_map_left_iff.mpr ?_) ?_
        · refine (ih d hd (path ++ [node a cs])).imp fun p entry hentry => ?_
          obtain ⟨below, hpath, hleads⟩ := hentry
          refine ⟨node a cs :: below, ?_, .child hchild hleads⟩
          rw [hpath, List.append_assoc, List.singleton_append]
        · have hrest := ihds (before ++ [d]) (by rw [hsplit, List.append_assoc]; rfl)
          rwa [List.length_append, List.length_singleton] at hrest
    rw [addresses, lineages_eq, children_node]
    refine .cons ⟨[], ?_, .here _⟩ (hbelow cs [] rfl)
    rw [List.append_nil]

theorem map_fst_lineages (path : List (Rose α)) (t : Rose α) :
    (lineages path t).map Prod.fst = t.preorder := by
  induction t generalizing path with
  | node a cs ih =>
    rw [lineages_eq, preorder_eq, List.map_cons, List.map_flatMap, children_node]
    rw [List.flatMap_congr fun c hc => ih c hc _]

/-- **The walks follow the addresses.**  Below the root the walk is the recursive preorder
of the children, and the walk with ancestors meets the same trees.  It goes through all
addresses of the tree in their order, once each: what it meets at an address is what the
address leads to, and the ancestors are the trees that are passed on the way, from the
root to the parent, each a child of the one before. -/
theorem walks_by_address (t : Rose α) :
    t.descendants = t.children.flatMap preorder ∧
      t.walk = t :: t.descendants ∧
      t.walkWithAncestors.map Prod.fst = t.walk ∧
      (∀ p, p ∈ t.addresses ↔ ∃ path s, t.Leads p path s) ∧
      t.addresses.Pairwise (List.Lex (· < ·)) ∧
      List.Forall₂ (fun p entry => t.Leads p entry.2 entry.1) t.addresses t.walkWithAncestors ∧
      ∀ entry ∈ t.walkWithAncestors,
        (entry.2 ++ [entry.1]).head? = some t ∧
          (entry.2 ++ [entry.1]).IsChain fun parent child => child ∈ parent.children := by
  have hleads : List.Forall₂ (fun p entry => t.Leads p entry.2 entry.1) t.addresses
      t.walkWithAncestors := by
    rw [walkWithAncestors_eq_lineages]
    refine (forall₂_addresses_lineages [] t).imp fun p entry hentry => ?_
    obtain ⟨below, hpath, hleads⟩ := hentry
    rw [hpath, List.nil_append]
    exact hleads
  refine ⟨descendants_eq t, rfl, ?_, fun p => mem_addresses_iff, pairwise_addresses t, hleads, ?_⟩
  · rw [walkWithAncestors_eq_lineages, map_fst_lineages, walk_eq_preorder]
  · intro entry hentry
    obtain ⟨i, hi, hget⟩ := List.getElem_of_mem hentry
    have hlength : i < t.addresses.length := by rw [hleads.length_eq]; exact hi
    have hhere := List.Forall₂.get hleads hlength hi
    rw [List.get_eq_getElem, List.get_eq_getElem, hget] at hhere
    exact ⟨hhere.head?_path, hhere.isChain_path⟩

/-- A tree with the same subtree twice. -/
def twins : Rose Nat := node 0 [node 1 [node 2 []], node 1 [node 2 []]]

/-- Both leaves are met, each at its own address, though they are equal and have equal
ancestors. -/
theorem walks_by_address_twins :
    twins.addresses = [[], [0], [0, 0], [1], [1, 0]] ∧
      List.Forall₂ (fun p entry => twins.Leads p entry.2 entry.1) [[], [0], [0, 0], [1], [1, 0]]
        twins.walkWithAncestors ∧
      twins.walk.length = 5 := by
  obtain ⟨-, -, hfst, -, -, hleads, -⟩ := walks_by_address twins
  have haddresses : twins.addresses = [[], [0], [0, 0], [1], [1, 0]] := rfl
  rw [haddresses] at hleads
  refine ⟨haddresses, hleads, ?_⟩
  rw [← hfst, List.length_map]
  exact hleads.length_eq.symm

end TapLint.Rose
