/-
What the rule for dependencies from macOS says of a formula, call by call.

The rule searches, matches texts and reads arguments on its way.  Here it is given by
what it has to say of each `uses_from_macos` call, in the order of the recursive
preorder:

* `OpensQuoted` — the texts by which a call is chosen;
* `statedName` — the name that an argument states;
* `verdict` — what is said of one call.

The main statement is `value_evaluate_eq_verdicts`.  It needs that the literals of a
converted tree have a value: without one the program would fall back on their text.
-/
import Mathlib.Data.List.Basic
import TapLint.Proofs.Conversion
import TapLint.Proofs.Offenses

namespace TapLint

/-! ### The texts that choose a call -/

/-- A text that begins with a quoted string which holds something and stays on its
line. -/
def OpensQuoted (text : String) : Prop :=
  ∃ inside rest : List Char, inside ≠ [] ∧ '\n' ∉ inside ∧
    text.toList = '"' :: inside ++ '"' :: rest

/-- A quote stands before the end of the line exactly if the text can be cut there. -/
theorem contains_quote_iff {cs : List Char} :
    (cs.takeWhile (· != '\n')).contains '"' ↔
      ∃ inside rest, '\n' ∉ inside ∧ cs = inside ++ '"' :: rest := by
  rw [List.contains_iff_mem]
  constructor
  · intro h
    obtain ⟨inside, after, hline⟩ := List.append_of_mem h
    refine ⟨inside, after ++ cs.dropWhile (· != '\n'), fun hbreak => ?_, ?_⟩
    · have hmem : '\n' ∈ cs.takeWhile (· != '\n') := hline ▸ List.mem_append_left _ hbreak
      exact absurd (List.all_eq_true.mp List.all_takeWhile _ hmem) (by decide)
    · rw [← List.cons_append, ← List.append_assoc, ← hline, List.takeWhile_append_dropWhile]
  · rintro ⟨inside, rest, hbreak, rfl⟩
    have hinside : ∀ c ∈ inside, (c != '\n') = true := by
      intro c hc
      exact bne_iff_ne.mpr (ne_of_mem_of_not_mem hc hbreak)
    rw [List.takeWhile_append_of_pos hinside]
    exact List.mem_append_right _ List.mem_cons_self

theorem opensQuoted_iff {text : String} :
    Pattern.opensQuoted text.toList ↔ OpensQuoted text := by
  rw [OpensQuoted]
  generalize text.toList = cs
  constructor
  · intro h
    rw [Pattern.opensQuoted.eq_def] at h
    split at h
    next c cs =>
      rw [Bool.and_eq_true, bne_iff_ne] at h
      obtain ⟨inside, rest, hbreak, rfl⟩ := contains_quote_iff.mp h.2
      refine ⟨c :: inside, rest, List.cons_ne_nil c inside, ?_, rfl⟩
      rw [List.mem_cons, not_or]
      exact ⟨h.1.symm, hbreak⟩
    next => exact absurd h Bool.false_ne_true
  · rintro ⟨inside, rest, hne, hbreak, rfl⟩
    obtain ⟨c, inside, rfl⟩ := List.exists_cons_of_ne_nil hne
    rw [List.mem_cons, not_or] at hbreak
    have hquote := contains_quote_iff.mpr ⟨inside, rest, hbreak.2, rfl⟩
    rw [List.cons_append, List.cons_append, Pattern.opensQuoted, hquote, Bool.and_true]
    exact bne_iff_ne.mpr fun h => hbreak.1 h.symm

instance : DecidablePred OpensQuoted :=
  fun _ => decidable_of_iff _ opensQuoted_iff

/-! ### The name that an argument states -/

namespace Node

/-- The key of the first pair of a hash that has one. -/
def firstKey (n : Node) : Option Node :=
  (n.children.find? fun (c : Node) => c.kind == .pair && c.key.isSome).bind key

/-- The name that an argument states: the value of a string or symbol, or that of the
first key of a hash, if this is a string or symbol. -/
def statedName (n : Node) : Option String :=
  match n.kind with
  | .string | .symbol => n.literal
  | .hash => n.firstKey.bind fun k => if k.isLiteral then k.literal else none
  | _ => none

theorem mem_children_of_child? {m n : Node} {i : Nat} (h : n.child? i = some m) :
    m ∈ n.children :=
  List.mem_of_getElem? h

theorem mem_children_of_mem_arguments {m n : Node} (h : m ∈ n.arguments) : m ∈ n.children := by
  obtain ⟨i, -, hi⟩ := List.mem_filterMap.mp h
  exact mem_children_of_child? hi

theorem mem_children_of_key {m n : Node} (h : n.key = some m) : m ∈ n.children := by
  obtain ⟨i, -, hi⟩ := Option.bind_eq_some_iff.mp h
  exact mem_children_of_child? hi

/-- A node whose literal has a value, if it is a literal. -/
def Valued (n : Node) : Prop :=
  n.isLiteral → n.literal.isSome

theorem Valued.some_content {n : Node} (h : n.Valued) (hn : n.isLiteral) :
    some n.content = n.literal := by
  obtain ⟨value, hvalue⟩ := Option.isSome_iff_exists.mp (h hn)
  rw [content, if_pos hn, hvalue]
  rfl

theorem head?_keys (n : Node) : n.keys.head? = n.firstKey := by
  rw [keys, pairs, firstKey]
  induction n.children with
  | nil => rfl
  | cons c cs ih =>
    rw [List.filter_cons, List.find?_cons]
    cases hpair : kind c == .pair with
    | false => exact ih
    | true =>
      rw [if_pos rfl, List.filterMap_cons]
      cases hkey : key c with
      | none => exact ih
      | some k => exact hkey.symm

theorem mem_of_firstKey {k n : Node} (h : n.firstKey = some k) :
    ∃ pair ∈ n.children, k ∈ pair.children := by
  obtain ⟨pair, hpair, hkey⟩ := Option.bind_eq_some_iff.mp h
  exact ⟨pair, List.mem_of_find?_eq_some hpair, mem_children_of_key hkey⟩

/-- If all literals have a value, the name of an argument is the one that it states. -/
theorem toOption_dependencyName {n : Node} (h : n.Everywhere Valued) :
    n.dependencyName.toOption = n.statedName := by
  rw [dependencyName, statedName]
  cases hkind : n.kind with
  | string | symbol => exact h.self.some_content (by rw [isLiteral, hkind]; rfl)
  | hash =>
    rw [← head?_keys]
    cases hkeys : n.keys with
    | nil => rfl
    | cons k ks =>
      simp only [List.head?_cons, Option.bind_some]
      split
      next hk =>
        have hfirst : n.firstKey = some k := by rw [← head?_keys, hkeys, List.head?_cons]
        obtain ⟨pair, hpair, hmem⟩ := mem_of_firstKey hfirst
        exact ((h.child hpair).child hmem).self.some_content hk
      next => rfl
  | _ => rfl

/-- A call names the dependency that its first argument states. -/
theorem toOption_dependency {call : Node} (h : call.Everywhere Valued) :
    call.dependency.toOption.map Dependency.name = call.arguments.head?.bind statedName := by
  rw [dependency]
  cases harguments : call.arguments with
  | nil => rfl
  | cons a as =>
    have hmem : a ∈ call.children :=
      mem_children_of_mem_arguments (harguments ▸ List.mem_cons_self)
    rw [List.head?_cons, Option.bind_some, ← toOption_dependencyName (h.child hmem)]
    show (a.dependencyName.map _).toOption.map Dependency.name = a.dependencyName.toOption
    cases a.dependencyName <;> rfl

theorem everywhere_valued_ofTree {src : Source} {t : Ruby.Tree} :
    (ofTree src t).Everywhere Valued :=
  fun _ hn hliteral => literal_isSome_of_mem hn hliteral

end Node

namespace UsesFromMacos

/-! ### What is said of a call -/

/-- The messages for a call of `uses_from_macos`: none, unless one of its arguments
opens with a quoted string; otherwise that for Linux, if it is required, and that
for a name which macOS does not provide, if the first argument states one. -/
def verdict (requiresLinux : Bool) (call : Node) : List String :=
  if ∃ a ∈ call.arguments, OpensQuoted a.text then
    (if requiresLinux then [linuxMessage] else []) ++
      match call.arguments.head?.bind Node.statedName with
      | some name =>
        if name ∈ Provided.registered ∨ name ∈ Provided.tolerated then []
        else [notProvidedMessage name]
      | none => []
  else []

theorem fitsAll_quotedString {call : Node} :
    Node.fitsAll [.quotedString] call ↔ ∃ a ∈ call.arguments, OpensQuoted a.text := by
  simp [Node.fitsAll, Pattern.accepts, Pattern.quotedString, opensQuoted_iff]

theorem byMacos_iff {name : String} :
    Provided.byMacos name ↔ name ∈ Provided.registered ∨ name ∈ Provided.tolerated := by
  rw [Provided.byMacos, Provided.isTolerated, Provided.isRegistered, Bool.or_eq_true,
    List.contains_iff_mem, List.contains_iff_mem, or_comm]

/-- What the rule finds in a call that it examines is the verdict on it. -/
theorem value_examine_eq_verdict {requiresLinux : Bool} {call : Node}
    (h : call.Everywhere Node.Valued) (hquoted : ∃ a ∈ call.arguments, OpensQuoted a.text) :
    (examine requiresLinux call).value =
      (verdict requiresLinux call).map fun message => (message, call) := by
  rw [value_examine, verdict, if_pos hquoted, List.map_append, ← Node.toOption_dependency h]
  congr 1
  · split <;> rfl
  · cases call.dependency with
    | error why => rfl
    | ok dependency =>
      show (if Provided.byMacos dependency.name then [] else _) =
        (if _ ∈ Provided.registered ∨ _ ∈ Provided.tolerated then [] else _).map _
      by_cases hmacos : Provided.byMacos dependency.name
      · rw [if_pos hmacos, if_pos (byMacos_iff.mp hmacos)]
        rfl
      · rw [if_neg hmacos, if_neg (mt byMacos_iff.mpr hmacos)]
        rfl

/-- The offenses in a body are the verdicts on its calls of `uses_from_macos`, a call
before those that stand below it. -/
theorem value_offenses_eq_verdicts (hasDependency : Formula → Logged (String → Bool))
    (f : Formula) {body : Node} (h : body.Everywhere Node.Valued) :
    ((ruleWith hasDependency).offenses f body).value =
      (body.preorder.filter fun (n : Node) => n.isCallOf "uses_from_macos").flatMap fun call =>
        (verdict ((hasDependency f).value "linux") call).map fun message => (message, call) := by
  have hexamine : ∀ call ∈ Node.callsWith (some body) "uses_from_macos" [.quotedString],
      (examine ((hasDependency f).value "linux") call).value =
        (verdict ((hasDependency f).value "linux") call).map fun message => (message, call) := by
    intro call hcall
    obtain ⟨hmem, -, hfits⟩ := Node.mem_callsWith_iff.mp hcall
    exact value_examine_eq_verdict (h.of_mem hmem) (fitsAll_quotedString.mp hfits)
  rw [value_offenses, List.flatMap_congr hexamine, Node.callsWith_eq]
  -- the verdict on a call that the rule passes over is empty
  refine flatMap_filter_eq fun call _ hnot => ?_
  rw [verdict, if_neg (mt fitsAll_quotedString.mpr (Bool.eq_false_iff.mp hnot))]
  rfl

/-- **The rule says of each call what its verdict is.**  On a body that comes from a
conversion, whatever answers whether the formula requires Linux, the diagnostics are
the verdicts on the calls of `uses_from_macos` in preorder, each with the location
of its call and the name of the formula, and nothing else. -/
theorem value_evaluate_eq_verdicts (src : Source) (t : Ruby.Tree) (severity : Severity)
    (hasDependency : Formula → Logged (String → Bool)) (f : Formula) (body : Node)
    (hbody : body ∈ (Node.ofTree src t).walk) (hf : f.body = some body) :
    ((Cop.mk (ruleWith hasDependency) severity).evaluate f).value =
      (body.preorder.filter fun (n : Node) => n.isCallOf "uses_from_macos").flatMap fun call =>
        (verdict ((hasDependency f).value "linux") call).map fun message =>
          { copName := "FormulaAudit/UsesFromMacos"
            message := message
            location := call.location
            severity := severity
            formulaName := some f.name } := by
  rw [Node.walk, Rose.walk_eq_preorder] at hbody
  have hvalued : body.Everywhere Node.Valued := Node.everywhere_valued_ofTree.of_mem hbody
  rw [Cop.value_evaluate hf, value_offenses_eq_verdicts hasDependency f hvalued, List.map_flatMap]
  simp only [List.map_map]
  rfl

/-- In the sample, if Linux is required: the first call offends twice, the second once,
since its first argument is no name while another one opens with a quoted string. -/
theorem value_evaluate_sample :
    ∃ body ∈ Node.sample.walk, Node.sampleBody = some body ∧
      (((Cop.mk (ruleWith fun _ => pure fun _ => true) .warning).evaluate
          { name := "a", body := some body }).value.map
        fun d => (d.message, d.location.start, d.formulaName)) =
        [(linuxMessage, 45, some "a"), (notProvidedMessage "q", 45, some "a"),
          (linuxMessage, 109, some "a")] := by
  have hbody := Node.mem_walk_of_mem_sampleBody (Option.get_mem Node.isSome_sampleBody)
  refine ⟨_, hbody, (Option.some_get Node.isSome_sampleBody).symm, ?_⟩
  rw [value_evaluate_eq_verdicts (.ofText none Ruby.Tree.sampleText) Ruby.Tree.sample .warning _ _
    _ hbody rfl]
  decide +kernel

end UsesFromMacos

end TapLint
