/-
The arguments of a call, group by group.

The pairs among the arguments of a call are taken together as hashes.  Here the list of what
stands between the brackets is cut into runs of pairs that cannot be made longer and single
other nodes:

* `IsCut`, `IsCut.unique` — there is just one way to cut a list like that;
* `StandsFor` — the argument that a group gives;
* `exists_isCut_forall₂_foldPairs` — folding gives one argument for each group;
* `arguments_ofTree_call` — the arguments of a converted call are what folding gives.

The main statement is `foldPairs_one_for_each_group`.
-/
import Mathlib.Data.List.SplitBy
import TapLint.Proofs.Conversion

namespace TapLint.Node

open Ruby (Tree)
open Ruby.Tree (argumentParts construct token)

variable {src : Source}

/-! ### Runs of pairs -/

/-- Pairs that follow one another, at least one. -/
def IsRun (g : List Node) : Prop :=
  g ≠ [] ∧ ∀ n ∈ g, n.kind = .pair

instance (g : List Node) : Decidable (IsRun g) :=
  inferInstanceAs (Decidable (_ ∧ _))

/-- A list cut into runs of pairs that cannot be made longer and single other nodes. -/
structure IsCut (xs : List Node) (groups : List (List Node)) : Prop where
  flatten_eq : groups.flatten = xs
  group : ∀ g ∈ groups, (∃ n, g = [n] ∧ n.kind ≠ .pair) ∨ IsRun g
  apart : groups.IsChain fun g h => ¬(IsRun g ∧ IsRun h)

theorem isPair_iff {n : Node} : n.isPair ↔ n.kind = .pair := by
  rw [isPair, beq_iff_eq]

theorem not_isRun_singleton {n : Node} (h : n.kind ≠ .pair) : ¬IsRun [n] :=
  fun hrun => h (hrun.2 n List.mem_cons_self)

namespace IsCut

variable {xs : List Node} {groups : List (List Node)}

theorem ne_nil (h : IsCut xs groups) {g : List Node} (hg : g ∈ groups) : g ≠ [] := by
  rcases h.group g hg with ⟨n, rfl, -⟩ | hrun
  · exact List.cons_ne_nil n []
  · exact hrun.1

/-- A group with a pair in it is a run. -/
theorem isRun_of_mem (h : IsCut xs groups) {g : List Node} (hg : g ∈ groups) {n : Node}
    (hn : n ∈ g) (hpair : n.kind = .pair) : IsRun g := by
  rcases h.group g hg with ⟨m, rfl, hm⟩ | hrun
  · rw [List.mem_singleton.mp hn] at hpair
    exact absurd hpair hm
  · exact hrun

/-- Where the first node is no pair, the first group is no run. -/
theorem not_isRun_head (h : IsCut xs groups) (hxs : ∀ n ∈ xs.head?, n.kind ≠ .pair) :
    ∀ g ∈ groups.head?, ¬IsRun g := by
  intro g hg hrun
  obtain ⟨gs, rfl⟩ := List.head?_eq_some_iff.mp hg
  obtain ⟨n, g', rfl⟩ := List.exists_cons_of_ne_nil hrun.1
  have hhead : n ∈ xs.head? := by
    rw [← h.flatten_eq]
    rfl
  exact hxs n hhead (hrun.2 n List.mem_cons_self)

/-- The only way to cut a list is between neighbours of which one is no pair. -/
theorem eq_splitBy (h : IsCut xs groups) :
    groups = xs.splitBy fun a b => a.isPair && b.isPair := by
  refine (List.splitBy_eq_iff.mpr
    ⟨h.flatten_eq.symm, fun hnil => h.ne_nil hnil rfl, fun g hg => ?_, ?_⟩).symm
  · rcases h.group g hg with ⟨n, rfl, -⟩ | hrun
    · exact List.isChain_singleton n
    · refine (List.pairwise_of_forall_mem_list fun a ha b hb => ?_).isChain
      rw [isPair_iff.mpr (hrun.2 a ha), isPair_iff.mpr (hrun.2 b hb)]
      rfl
  · refine h.apart.imp_of_mem_imp fun g k hg hk hapart => ?_
    refine ⟨h.ne_nil hg, h.ne_nil hk, Bool.eq_false_iff.mpr fun hboth => hapart ?_⟩
    rw [Bool.and_eq_true, isPair_iff, isPair_iff] at hboth
    exact ⟨h.isRun_of_mem hg (List.getLast_mem _) hboth.1,
      h.isRun_of_mem hk (List.head_mem _) hboth.2⟩

theorem unique {groups' : List (List Node)} (h : IsCut xs groups) (h' : IsCut xs groups') :
    groups = groups' :=
  h.eq_splitBy.trans h'.eq_splitBy.symm

end IsCut

/-! ### What the groups give -/

/-- A hash that the concrete tree lacks: its children are a run of pairs, and it goes from where
the first of them begins to where the last ends. -/
structure HashOf (src : Source) (run : List Node) (a : Node) : Prop where
  kind_eq : a.kind = .hash
  type_eq : a.type = "hash"
  children_eq : a.children = run
  pairs_eq : a.pairs = run
  location_eq : ∃ first last, run.head? = some first ∧ run.getLast? = some last ∧
    a.location = .span src.path first.location last.location
  text_eq : a.text = src.slice a.location.start a.location.stop

/-- The argument that a group gives. -/
inductive StandsFor (src : Source) : List Node → Node → Prop where
  /-- A node that is no pair stands for itself. -/
  | self {n : Node} : n.kind ≠ .pair → StandsFor src [n] n
  /-- A run of pairs becomes a hash. -/
  | hash {run : List Node} {a : Node} : IsRun run → HashOf src run a → StandsFor src run a

theorem hashOf_implicitHash {first : Node} {more : List Node} (h : IsRun (first :: more)) :
    HashOf src (first :: more) (implicitHash src first more) where
  kind_eq := rfl
  type_eq := rfl
  children_eq := rfl
  pairs_eq := by
    refine List.filter_eq_self.mpr fun n hn => ?_
    rw [h.2 n hn]
    rfl
  location_eq := by
    refine ⟨first, more.getLastD first, rfl, ?_, rfl⟩
    rw [List.getLast?_cons, List.getLastD_eq_getLast?]
  text_eq := rfl

/-- Folding gives one argument for each group of a list. -/
theorem exists_isCut_forall₂_foldPairs (src : Source) (ns : List Node) :
    ∃ groups, IsCut ns groups ∧ List.Forall₂ (StandsFor src) groups (foldPairs src ns) := by
  rw [foldPairs_eq_foldRuns]
  induction ns using foldRuns.induct with
  | case1 =>
    rw [foldRuns]
    exact ⟨[], ⟨rfl, fun g hg => absurd hg List.not_mem_nil, .nil⟩, .nil⟩
  | case2 n ns hn ih =>
    rw [foldRuns, if_pos hn]
    obtain ⟨groups, hcut, hfold⟩ := ih
    have hrun : IsRun (n :: ns.takeWhile isPair) := by
      refine ⟨List.cons_ne_nil _ _, fun m hm => isPair_iff.mp ?_⟩
      rcases List.mem_cons.mp hm with rfl | hm
      · exact hn
      · exact List.all_eq_true.mp List.all_takeWhile m hm
    -- the run ends before the first node that is no pair, with which the next group begins
    have hnext : ∀ g ∈ groups.head?, ¬IsRun g := by
      refine hcut.not_isRun_head fun m hm hpair => ?_
      have hnot := List.head?_dropWhile_not isPair ns
      rw [Option.mem_def.mp hm] at hnot
      simp [isPair_iff.mpr hpair] at hnot
    refine ⟨_ :: groups, ⟨?_, ?_, ?_⟩, .cons (.hash hrun (hashOf_implicitHash hrun)) hfold⟩
    · rw [List.flatten_cons, hcut.flatten_eq, List.cons_append, List.takeWhile_append_dropWhile]
    · exact List.forall_mem_cons.mpr ⟨.inr hrun, hcut.group⟩
    · exact hcut.apart.cons fun g hg hboth => hnext g hg hboth.2
  | case3 n ns hn ih =>
    rw [foldRuns, if_neg hn]
    obtain ⟨groups, hcut, hfold⟩ := ih
    have hpair : n.kind ≠ .pair := fun h => hn (isPair_iff.mpr h)
    refine ⟨[n] :: groups, ⟨?_, ?_, ?_⟩, .cons (.self hpair) hfold⟩
    · rw [List.flatten_cons, hcut.flatten_eq, List.singleton_append]
    · exact List.forall_mem_cons.mpr ⟨.inl ⟨n, rfl, hpair⟩, hcut.group⟩
    · exact hcut.apart.cons fun g _ hboth => not_isRun_singleton hpair hboth.1

/-- Folding leaves no pair outside a hash. -/
theorem kind_ne_pair_of_mem_foldPairs {a : Node} {ns : List Node} (h : a ∈ foldPairs src ns) :
    a.kind ≠ .pair := by
  obtain ⟨groups, -, hstands⟩ := exists_isCut_forall₂_foldPairs src ns
  generalize foldPairs src ns = folded at h hstands
  induction hstands with
  | nil => exact absurd h List.not_mem_nil
  | cons hfirst _ ih =>
    rcases List.mem_cons.mp h with rfl | h
    · cases hfirst with
      | self hpair => exact hpair
      | hash _ hhash =>
        rw [hhash.kind_eq]
        exact nofun
    · exact ih h

/-- What a group was, read off the argument that it gave: the children of a hash that was put
around a run, and any other argument itself. -/
def expand (g : List Node) (a : Node) : List Node :=
  if IsRun g then a.children else [a]

theorem StandsFor.expand_eq {g : List Node} {a : Node} (h : StandsFor src g a) :
    expand g a = g := by
  cases h with
  | self hpair => rw [expand, if_neg (not_isRun_singleton hpair)]
  | hash hrun hhash => rw [expand, if_pos hrun, hhash.children_eq]

theorem flatMap_expand_zip {groups : List (List Node)} {folded : List Node}
    (h : List.Forall₂ (StandsFor src) groups folded) :
    ((groups.zip folded).flatMap fun p => expand p.1 p.2) = groups.flatten := by
  induction h with
  | nil => rfl
  | cons hstands _ ih =>
    rw [List.zip_cons_cons, List.flatMap_cons, List.flatten_cons, hstands.expand_eq, ih]

/-! ### The arguments of a call -/

/-- The places right after some first ones have just what stands there. -/
theorem filterMap_range'_getElem? {α : Type} (before xs after : List α) :
    (List.range' before.length xs.length).filterMap (fun i => (before ++ xs ++ after)[i]?) =
      xs := by
  induction xs generalizing before with
  | nil => rfl
  | cons x xs ih =>
    have hfirst : (before ++ x :: xs ++ after)[before.length]? = some x := by simp
    have hrest := ih (before ++ [x])
    rw [List.length_append, List.length_singleton, List.append_assoc before [x] xs] at hrest
    rw [List.length_cons, List.range'_succ, List.filterMap_cons_some hfirst]
    exact congrArg (x :: ·) hrest

theorem arguments_ofTree_call {t : Tree} (h : kindOf t.value.type = .call) :
    (ofTree src t).arguments = foldPairs src (t.argumentParts.map (ofTree src)) := by
  rw [ofTree_eq, assembleNode]
  simp only [factsOf, h, ofCall, fieldOf_convert]
  refine (filterMap_range'_getElem? _ _ _).trans ?_
  cases ha : t.field? "arguments" with
  | none => simp [argumentParts, ha, foldPairs_eq_foldRuns, foldRuns]
  | some a => simp [argumentParts, ha]

/-- **Folding groups the pairs.**  An argument list is cut, in the only way there is, into runs of
pairs that cannot be made longer and single other nodes.  Folding gives one argument for each
group: a node that is no pair for itself, and for a run a hash with just these pairs, from where
the first begins to where the last ends.  So expanding the hashes that were put around runs gives
back the list; none of them is empty, and no two follow one another.  And what folding gives
are the arguments of every call that has the list. -/
theorem foldPairs_one_for_each_group (src : Source) (list : Tree) :
    let xs := list.parts.map (ofTree src)
    let folded := foldPairs src (convert src list).parts
    ∃ groups, (∀ gs, IsCut xs gs ↔ gs = groups) ∧
      List.Forall₂ (StandsFor src) groups folded ∧
      ((groups.zip folded).flatMap fun p => expand p.1 p.2) = xs ∧
      (∀ p ∈ groups.zip folded, IsRun p.1 → p.2.children ≠ []) ∧
      (groups.zip folded).IsChain (fun p q => ¬(IsRun p.1 ∧ IsRun q.1)) ∧
      ∀ call : Tree, kindOf call.value.type = .call → call.field? "arguments" = some list →
        (ofTree src call).arguments = folded := by
  intro xs folded
  have hfolded : folded = foldPairs src xs := by
    show foldPairs src (convert src list).parts = _
    rw [parts_convert]
  obtain ⟨groups, hcut, hstands⟩ := exists_isCut_forall₂_foldPairs src xs
  rw [← hfolded] at hstands
  have hgroups : (groups.zip folded).map Prod.fst = groups :=
    List.map_fst_zip (Nat.le_of_eq hstands.length_eq)
  refine ⟨groups, fun gs => ⟨fun h => h.unique hcut, fun h => h ▸ hcut⟩, hstands, ?_, ?_, ?_, ?_⟩
  · rw [flatMap_expand_zip hstands, hcut.flatten_eq]
  · rintro ⟨g, a⟩ hmem hrun
    have hexpand := (List.forall₂_zip hstands hmem).expand_eq
    rw [expand, if_pos hrun] at hexpand
    rw [hexpand]
    exact hrun.1
  · rw [← List.isChain_map (R := fun g h => ¬(IsRun g ∧ IsRun h)) Prod.fst, hgroups]
    exact hcut.apart
  · intro call hcall harguments
    rw [arguments_ofTree_call hcall, argumentParts, harguments, hfolded]

/-! ### Pairs between other arguments -/

/-- A pair whose key is a letter and whose value is a digit. -/
def pairAt (start : Nat) : Tree :=
  construct "pair" start (start + 4) none [
    construct "hash_key_symbol" start (start + 1) (some "key") [],
    token ":" (start + 1),
    construct "integer" (start + 3) (start + 4) (some "value") []]

/-- A call with two pairs that a comment parts, a splat, a hash and one more pair. -/
def mixedText : String := "f a: 1, # b\n b: 2, **s, \x7bc: 3\x7d, d: 4"

/-- The argument list of `mixedText`. -/
def mixedList : Tree :=
  construct "argument_list" 2 36 (some "arguments") [
    pairAt 2, token "," 6,
    construct "comment" 8 11 none [],
    pairAt 13, token "," 17,
    construct "hash_splat_argument" 19 22 none [
      token "**" 19, construct "identifier" 21 22 none []],
    token "," 22,
    construct "hash" 24 30 none [token "\x7b" 24, pairAt 25, token "\x7d" 29],
    token "," 30,
    pairAt 32]

/-- The concrete tree of `mixedText`. -/
def mixed : Tree :=
  construct "call" 0 36 none [construct "identifier" 0 1 (some "method") [], mixedList]

/-- The comment does not end the first run, and the hash that stands in the text is not taken
together with the pair after it. -/
theorem foldPairs_one_for_each_group_mixed :
    let src := Source.ofText none mixedText
    mixed.field? "arguments" = some mixedList ∧
      ∃ groups, List.Forall₂ (StandsFor src) groups (ofTree src mixed).arguments ∧
        groups.map List.length = [2, 1, 1, 1] ∧
        (ofTree src mixed).arguments.map text =
          ["a: 1, # b\n b: 2", "**s", "\x7bc: 3\x7d", "d: 4"] := by
  intro src
  obtain ⟨groups, hcut, hstands, -, -, -, hcalls⟩ := foldPairs_one_for_each_group src mixedList
  rw [← hcalls mixed rfl rfl] at hstands
  refine ⟨rfl, groups, hstands, ?_, by decide +kernel⟩
  rw [((hcut groups).mpr rfl).eq_splitBy]
  decide +kernel

end TapLint.Node
