/-
The dependencies that always hold, by recursion over the body.

The program walks the whole body and asks of every `depends_on` call whether one of
its ancestors is an `on_…` call.  The same names come from a recursion that never
goes below an `on_…` call (`pruned`), so what stands there does not matter:

* `flatMap_lineages` — below a path with an `on_…` call nothing is found, below any
  other path what the recursion finds;
* `AgreeOutside.pruned_eq` — bodies that differ below `on_…` calls only declare the
  same dependencies.

The main statement is `collect_value_and_has`.
-/
import Mathlib.Data.List.Forall2
import TapLint.Formula.Dependencies
import TapLint.Proofs.Preorder

namespace TapLint.Dependencies

/-! ### The recursion -/

/-- A call whose name begins with `on_`. -/
def Conditional (n : Node) : Prop :=
  n.kind = .call ∧ ∃ rest : String, n.name = some ("on_" ++ rest)

theorem isConditional_iff {n : Node} : isConditional n ↔ Conditional n := by
  have hstart : ∀ name : String,
      conditionalStart.toList.isPrefixOf name.toList ↔ ∃ rest : String, name = "on_" ++ rest := by
    intro name
    rw [List.isPrefixOf_iff_prefix]
    constructor
    · rintro ⟨rest, hrest⟩
      refine ⟨String.ofList rest, String.toList_inj.mp ?_⟩
      rw [String.toList_append, ← hrest]
      exact congrArg _ String.toList_ofList.symm
    · rintro ⟨rest, rfl⟩
      rw [String.toList_append]
      exact List.prefix_append _ _
  rw [isConditional, Bool.and_eq_true, Node.isCall, beq_iff_eq, Option.any_eq_true, Conditional]
  simp only [hstart]
  refine and_congr_right fun _ => ⟨?_, ?_⟩
  · rintro ⟨name, hname, rest, rfl⟩
    exact ⟨rest, hname⟩
  · rintro ⟨rest, hname⟩
    exact ⟨_, hname, rest, rfl⟩

instance : DecidablePred Conditional :=
  fun _ => decidable_of_iff _ isConditional_iff

/-- The name that a node declares by itself: that of its first argument, if the
node is a `depends_on` call and this argument has a name. -/
def ownName (n : Node) : Option String :=
  if n.isCallOf "depends_on" then n.arguments.head?.bind fun a => a.dependencyName.toOption
  else none

mutual

/-- The names that the nodes of a body declare, a node before its children, where
nothing below an `on_…` call is looked at. -/
def pruned : Node → List String
  | .node a cs =>
    (ownName (.node a cs)).toList ++ if Conditional (.node a cs) then [] else prunedList cs

/-- The names that a list of trees declares. -/
def prunedList : List Node → List String
  | [] => []
  | c :: cs => pruned c ++ prunedList cs

end

theorem prunedList_eq_flatMap (cs : List Node) : prunedList cs = cs.flatMap pruned := by
  induction cs with
  | nil => rfl
  | cons c cs ih => rw [prunedList, ih, List.flatMap_cons]

theorem pruned_eq (n : Node) :
    pruned n = (ownName n).toList ++ if Conditional n then [] else n.children.flatMap pruned := by
  cases n with
  | node a cs => rw [pruned, prunedList_eq_flatMap, Rose.children_node]

/-! ### The walk against the recursion -/

/-- What a node found on the walk contributes: its own name, unless one of its
ancestors is conditional. -/
def contribution (entry : Node × List Node) : List String :=
  if entry.2.any isConditional then [] else (ownName entry.1).toList

theorem value_nameOf (call : Node) :
    (nameOf call).value = call.arguments.head?.bind fun a => a.dependencyName.toOption := by
  rw [nameOf]
  cases call.arguments with
  | nil => rfl
  | cons a as =>
    simp only [List.head?_cons, Option.bind_some]
    cases a.dependencyName <;> rfl

theorem contribution_eq (entry : Node × List Node) :
    contribution entry = if declares entry then (nameOf entry.1).value.toList else [] := by
  rw [contribution, declares, ownName, value_nameOf]
  cases entry.1.isCallOf "depends_on" <;> cases entry.2.any isConditional <;> rfl

/-- The collected names are the contributions along the walk. -/
theorem value_collect (body : Option Node) :
    (collect body).value = (Node.walkWithAncestors? body).flatMap contribution := by
  rw [collect]
  simp only [Logged.value_bind, Logged.value_forEach, Logged.value_pure, List.map_map,
    List.filterMap_map]
  induction Node.walkWithAncestors? body with
  | nil => rfl
  | cons entry entries ih =>
    rw [List.flatMap_cons, ← ih, contribution_eq, List.filter_cons]
    split
    · cases hname : (nameOf entry.1).value <;> simp [hname]
    · rfl

/-- What is found below a path: nothing, if the path goes through an `on_…` call,
and what the recursion finds otherwise. -/
theorem flatMap_lineages (path : List Node) (n : Node) :
    (Rose.lineages path n).flatMap contribution =
      if path.any isConditional then [] else pruned n := by
  induction n using Rose.induct generalizing path with
  | node a cs ih =>
    -- the path to the children is conditional if the node is or the path to it was
    have hbelow : cs.flatMap (fun c =>
          (Rose.lineages (path ++ [.node a cs]) c).flatMap contribution) =
        if path.any isConditional || isConditional (.node a cs) then []
        else cs.flatMap pruned := by
      rw [List.flatMap_congr fun c hc => ih c hc (path ++ [.node a cs])]
      rw [List.any_append, List.any_cons, List.any_nil, Bool.or_false]
      split
      · exact List.flatMap_eq_nil_iff.mpr fun _ _ => rfl
      · rfl
    rw [Rose.lineages_eq, List.flatMap_cons, List.flatMap_assoc, Rose.children_node, hbelow,
      pruned_eq, contribution, Rose.children_node]
    cases hpath : path.any isConditional with
    | true => rfl
    | false =>
      have hnode := isConditional_iff (n := .node a cs)
      by_cases h : Conditional (.node a cs)
      · simp [h, hnode.mpr h]
      · simp [h, mt hnode.mp h]

theorem value_collect_eq_pruned (body : Option Node) :
    (collect body).value = body.elim [] pruned := by
  rw [value_collect]
  cases body with
  | none => rfl
  | some n =>
    rw [Node.walkWithAncestors?, Node.walkWithAncestors, Rose.walkWithAncestors_eq_lineages,
      flatMap_lineages]
    rfl

/-! ### Bodies that differ below `on_…` calls only -/

/-- Two nodes carry the same, apart from where they stand and what text they cover:
a text counts only where it is all there is of a literal. -/
structure SameFacts (a b : Facts) : Prop where
  kind : a.kind = b.kind
  name : a.name = b.name
  value : a.value = b.value
  arguments : a.arguments = b.arguments
  key : a.key = b.key
  text : a.kind.isLiteral → a.value = none → a.text = b.text

/-- Two trees that are the same outside of their `on_…` calls. -/
inductive AgreeOutside : Node → Node → Prop where
  /-- An `on_…` call agrees with every `on_…` call, whatever stands below them. -/
  | conditional {m n : Node} : Conditional m → Conditional n → AgreeOutside m n
  /-- Other nodes agree if they carry the same and their children agree. -/
  | node {a b : Facts} {cs ds : List Node} :
      SameFacts a b → List.Forall₂ AgreeOutside cs ds → AgreeOutside (.node a cs) (.node b ds)

theorem rel_getElem? {α : Type} {R : α → α → Prop} {as bs : List α} (h : List.Forall₂ R as bs)
    (i : Nat) : Option.Rel R as[i]? bs[i]? := by
  induction h generalizing i with
  | nil => exact .none
  | cons hab _ ih =>
    cases i with
    | zero => exact .some hab
    | succ i => exact ih i

theorem flatMap_congr_of_forall₂ {α β : Type} {R : α → α → Prop} {f : α → List β}
    {as bs : List α} (h : List.Forall₂ R as bs) (hf : ∀ a ∈ as, ∀ b, R a b → f a = f b) :
    as.flatMap f = bs.flatMap f := by
  induction h with
  | nil => rfl
  | @cons a b as bs hab _ ih =>
    rw [List.flatMap_cons, List.flatMap_cons, hf a List.mem_cons_self b hab,
      ih fun a ha => hf a (List.mem_cons_of_mem _ ha)]

/-- An `on_…` call declares nothing by itself. -/
theorem Conditional.ownName_eq {n : Node} (h : Conditional n) : ownName n = none := by
  obtain ⟨-, rest, hname⟩ := h
  have hne : n.isCallOf "depends_on" = false := by
    rw [Node.isCallOf, hname, Bool.and_eq_false_iff]
    refine .inr (beq_eq_false_iff_ne.mpr fun heq => ?_)
    have := congrArg String.toList (Option.some.inj heq)
    rw [String.toList_append] at this
    exact absurd (List.cons.inj this).1 (by decide)
  rw [ownName, hne]
  rfl

namespace AgreeOutside

theorem kind_eq {m n : Node} (h : AgreeOutside m n) : m.kind = n.kind := by
  cases h with
  | conditional hm hn => rw [hm.1, hn.1]
  | node hab _ => exact hab.kind

theorem isLiteral_eq {m n : Node} (h : AgreeOutside m n) : m.isLiteral = n.isLiteral := by
  rw [Node.isLiteral, Node.isLiteral, h.kind_eq]

theorem content_eq {m n : Node} (h : AgreeOutside m n) (hm : m.isLiteral) :
    m.content = n.content := by
  have hn : n.isLiteral := h.isLiteral_eq ▸ hm
  rw [Node.content, Node.content, if_pos hm, if_pos hn]
  cases h with
  | conditional hm' _ =>
    rw [Node.isLiteral, hm'.1] at hm
    exact absurd hm Bool.false_ne_true
  | @node a b cs ds hab _ =>
    show a.value.getD a.text = b.value.getD b.text
    rw [← hab.value]
    cases hvalue : a.value with
    | none => exact hab.text hm hvalue
    | some value => rfl

/-- The keys of two hashes that agree do so one by one. -/
theorem forall₂_keys {a b : Facts} {cs ds : List Node} (h : List.Forall₂ AgreeOutside cs ds) :
    List.Forall₂ AgreeOutside (Node.keys (.node a cs)) (Node.keys (.node b ds)) := by
  rw [Node.keys, Node.keys, Node.pairs, Node.pairs, List.filterMap_filter, List.filterMap_filter]
  refine List.rel_filterMap (fun c d hcd => ?_) h
  cases hcd with
  -- two `on_…` calls may differ in everything below them, but neither is a pair
  | conditional hc hd =>
    rw [hc.1, hd.1]
    exact .none
  | @node a b cs ds hab hchildren =>
    show Option.Rel _ (if a.kind == .pair then a.key.bind (cs[·]?) else none)
      (if b.kind == .pair then b.key.bind (ds[·]?) else none)
    rw [← hab.kind, ← hab.key]
    split
    · cases a.key with
      | none => exact .none
      | some i => exact rel_getElem? hchildren i
    · exact .none

theorem dependencyName_eq {m n : Node} (h : AgreeOutside m n) :
    m.dependencyName.toOption = n.dependencyName.toOption := by
  have hkind := h.kind_eq
  rw [Node.dependencyName, Node.dependencyName, ← hkind]
  split
  next hm => rw [h.content_eq (by rw [Node.isLiteral, hm]; rfl)]
  next hm => rw [h.content_eq (by rw [Node.isLiteral, hm]; rfl)]
  next hm =>
    cases h with
    | conditional hm' _ => exact absurd (hm.symm.trans hm'.1) (by decide)
    | @node a b cs ds _ hchildren =>
      have hkeys : List.Forall₂ AgreeOutside (Node.keys (.node a cs)) (Node.keys (.node b ds)) :=
        forall₂_keys hchildren
      -- only the first key counts, and keys agree one by one
      generalize Node.keys (.node a cs) = ks at hkeys ⊢
      generalize Node.keys (.node b ds) = ls at hkeys ⊢
      cases hkeys with
      | nil => rfl
      | @cons k l ks ls hkl _ =>
        simp only [← hkl.isLiteral_eq]
        by_cases hk : k.isLiteral
        · rw [if_pos hk, if_pos hk, hkl.content_eq hk]
        · rw [if_neg hk, if_neg hk]
          rfl
  next => rfl

theorem forall₂_arguments {a b : Facts} {cs ds : List Node} (hab : SameFacts a b)
    (h : List.Forall₂ AgreeOutside cs ds) :
    List.Forall₂ AgreeOutside (Node.arguments (.node a cs)) (Node.arguments (.node b ds)) := by
  show List.Forall₂ _ (a.arguments.filterMap (cs[·]?)) (b.arguments.filterMap (ds[·]?))
  rw [← hab.arguments]
  refine List.rel_filterMap ?_ (List.forall₂_same.mpr fun i _ => rfl)
  rintro i _ rfl
  exact rel_getElem? h i

theorem ownName_eq {m n : Node} (h : AgreeOutside m n) : ownName m = ownName n := by
  cases h with
  | conditional hm hn => rw [hm.ownName_eq, hn.ownName_eq]
  | @node a b cs ds hab hchildren =>
    have hcall : Node.isCallOf (.node a cs) "depends_on" =
        Node.isCallOf (.node b ds) "depends_on" := by
      show (a.kind == .call && a.name == _) = (b.kind == .call && b.name == _)
      rw [hab.kind, hab.name]
    rw [ownName, ownName, hcall]
    have harguments := forall₂_arguments hab hchildren
    generalize Node.arguments (.node a cs) = as at harguments ⊢
    generalize Node.arguments (.node b ds) = bs at harguments ⊢
    cases harguments with
    | nil => rfl
    | cons hfirst _ =>
      simp only [List.head?_cons, Option.bind_some, hfirst.dependencyName_eq]

/-- Trees that are the same outside of their `on_…` calls declare the same names. -/
theorem pruned_eq {m n : Node} (h : AgreeOutside m n) : pruned m = pruned n := by
  induction m using Rose.induct generalizing n with
  | node a cs ih =>
    rw [Dependencies.pruned_eq, Dependencies.pruned_eq n, h.ownName_eq]
    cases h with
    | conditional hm hn => rw [if_pos hm, if_pos hn]
    | @node _ b _ ds hab hchildren =>
      have hconditional : Conditional (.node a cs) ↔ Conditional (.node b ds) := by
        show (a.kind = .call ∧ ∃ rest : String, a.name = some ("on_" ++ rest)) ↔
          b.kind = .call ∧ ∃ rest : String, b.name = some ("on_" ++ rest)
        rw [hab.kind, hab.name]
      simp only [hconditional, Rose.children_node,
        flatMap_congr_of_forall₂ hchildren fun c hc d hcd => ih c hc hcd]

end AgreeOutside

/-! ### Membership -/

theorem dropColon_eq_iff {query name : String} :
    Node.dropColon query = name ↔
      query = ":" ++ name ∨ query = name ∧ query.toList.head? ≠ some ':' := by
  rw [Node.dropColon]
  split
  next cs hquery =>
    have hcolon : query = ":" ++ name ↔ String.ofList cs = name := by
      rw [← String.toList_inj, hquery, String.toList_append, ← String.toList_inj]
      exact (List.cons_inj_right ':').trans (Eq.congr_left String.toList_ofList.symm)
    rw [hcolon, hquery]
    simp
  next hquery =>
    have hhead : query.toList.head? ≠ some ':' := by
      intro hhead
      obtain ⟨cs, hcs⟩ := List.head?_eq_some_iff.mp hhead
      exact hquery cs hcs
    refine ⟨fun h => .inr ⟨h, hhead⟩, ?_⟩
    rintro (rfl | ⟨rfl, -⟩)
    · rw [String.toList_append] at hhead
      exact absurd rfl hhead
    · rfl

theorem has_iff {names : List String} {query : String} :
    has names query ↔
      ∃ name ∈ names, query = ":" ++ name ∨ query = name ∧ query.toList.head? ≠ some ':' := by
  rw [has, List.contains_iff_mem]
  constructor
  · intro h
    exact ⟨_, h, dropColon_eq_iff.mp rfl⟩
  · rintro ⟨name, hname, hquery⟩
    rwa [dropColon_eq_iff.mpr hquery]

/-! ### The dependencies of a body -/

/-- **Collecting by ancestors is pruning.**  The names collected from a body are
those that the recursion finds which never goes below an `on_…` call; they stay the
same whatever is put below the `on_…` calls of the body; and a query, less a colon
at its beginning, holds if it is among them. -/
theorem collect_value_and_has (body : Option Node) :
    (collect body).value = body.elim [] pruned ∧
      (∀ other, Option.Rel AgreeOutside body other →
        (collect other).value = (collect body).value) ∧
      ∀ query, has (collect body).value query ↔
        ∃ name ∈ body.elim [] pruned,
          query = ":" ++ name ∨ query = name ∧ query.toList.head? ≠ some ':' := by
  refine ⟨value_collect_eq_pruned body, ?_, fun query => ?_⟩
  · intro other h
    rw [value_collect_eq_pruned, value_collect_eq_pruned]
    cases h with
    | none => rfl
    | some h => exact h.pruned_eq.symm
  · rw [value_collect_eq_pruned]
    exact has_iff

/-- A call of `depends_on` with a symbol. -/
def dependsOn (name : String) : Node :=
  .node { kind := .call, type := "call", location := default, text := "depends_on :" ++ name,
          name := some "depends_on", arguments := [0] }
    [.node { kind := .symbol, type := "simple_symbol", location := default, text := ":" ++ name,
             value := some name } []]

/-- A body that depends on Linux and, on macOS only, has what is given. -/
def dependsOnLinux (below : List Node) : Node :=
  .node { kind := .other, type := Node.bodyType, location := default, text := "" }
    [dependsOn "linux",
      .node { kind := .call, type := "call", location := default, text := "on_macos",
              name := some "on_macos" } below]

/-- What holds on macOS only does not show, at whatever depth it stands. -/
theorem collect_value_and_has_dependsOnLinux :
    Option.Rel AgreeOutside (some (dependsOnLinux []))
        (some (dependsOnLinux [dependsOnLinux [], dependsOn "zlib"])) ∧
      (collect (some (dependsOnLinux [dependsOnLinux [], dependsOn "zlib"]))).value =
        (collect (some (dependsOnLinux []))).value ∧
      has (collect (some (dependsOnLinux []))).value ":linux" := by
  have hbelow : ∀ below above, AgreeOutside (dependsOnLinux below) (dependsOnLinux above) := by
    intro below above
    refine .node ⟨rfl, rfl, rfl, rfl, rfl, fun _ _ => rfl⟩ (.cons ?_ (.cons ?_ .nil))
    · exact .node ⟨rfl, rfl, rfl, rfl, rfl, fun _ _ => rfl⟩
        (.cons (.node ⟨rfl, rfl, rfl, rfl, rfl, fun _ _ => rfl⟩ .nil) .nil)
    · exact .conditional ⟨rfl, "macos", rfl⟩ ⟨rfl, "macos", rfl⟩
  obtain ⟨-, hsame, hhas⟩ := collect_value_and_has (some (dependsOnLinux []))
  refine ⟨.some (hbelow _ _), hsame _ (.some (hbelow _ _)), (hhas _).mpr ⟨"linux", ?_, .inl rfl⟩⟩
  decide

end TapLint.Dependencies
