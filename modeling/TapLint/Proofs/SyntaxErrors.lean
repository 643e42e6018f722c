/-
Which trees are rejected, and where.

A tree is rejected for a mark that goes up from any of its nodes, whereas the place of the
error comes from a walk down to the first node that is an error by itself.  Here both are
said of the recursive preorder:

* `Ruby.Tree.hasError_iff` — a tree has an error if a node in it is marked, stands for
  unreadable text or stands for a token that the text lacks;
* `Ruby.Tree.Culprit` — the node at whose place the error is reported;
* `Ruby.Tree.pairwise_start_preorder` — where the nodes of a tree lie in place, the preorder
  goes from left to right, through nodes of no width too.

The main statement is `Node.parse_reports_first_error`.
-/
import Mathlib.Tactic.MkIffOfInductiveProp
import TapLint.Proofs.Locations
import TapLint.Syntax.Parse

namespace TapLint

open Ruby (Label Tree)

theorem Ruby.Label.isError_iff {l : Label} :
    l.isError ↔ l.type = Ruby.Tree.errorType ∨ l.missing := by
  rw [Label.isError, Bool.or_eq_true, beq_iff_eq]

namespace Ruby.Tree

/-! ### Trees with errors -/

theorem hasError_eq (t : Tree) :
    t.hasError = (t.value.flagged || t.value.isError || t.children.any hasError) := by
  cases t with
  | node l cs =>
    show Rose.fold _ (.node l cs) = _
    rw [Rose.fold_node, List.any_map]
    rfl

/-- The error mark of a tree comes from some node in it. -/
theorem hasError_iff {t : Tree} :
    t.hasError ↔ ∃ s ∈ t.preorder, s.value.flagged ∨ s.value.isError := by
  induction t using Rose.induct with
  | node l cs ih =>
    rw [hasError_eq, Bool.or_eq_true, Bool.or_eq_true, List.any_eq_true]
    constructor
    · rintro (hself | ⟨c, hc, herror⟩)
      · exact ⟨.node l cs, Rose.self_mem_preorder _, hself⟩
      · obtain ⟨s, hs, hmark⟩ := (ih c hc).mp herror
        exact ⟨s, Rose.mem_preorder_iff.mpr (.inr ⟨c, hc, hs⟩), hmark⟩
    · rintro ⟨s, hs, hmark⟩
      rcases Rose.mem_preorder_iff.mp hs with rfl | ⟨c, hc, hs⟩
      · exact .inl hmark
      · exact .inr ⟨c, hc, (ih c hc).mpr ⟨s, hs, hmark⟩⟩

/-- What stands in a tree without an error has none. -/
theorem hasError_eq_false_of_mem {s t : Tree} (h : t.hasError = false) (hs : s ∈ t.preorder) :
    s.hasError = false := by
  refine Bool.eq_false_iff.mpr fun herror => ?_
  obtain ⟨r, hr, hmark⟩ := hasError_iff.mp herror
  have hroot := hasError_iff.mpr ⟨r, Rose.mem_preorder_trans hr hs, hmark⟩
  rw [h] at hroot
  exact Bool.false_ne_true hroot

theorem isError_eq_false_of_mem {s t : Tree} (h : t.hasError = false) (hs : s ∈ t.preorder) :
    s.value.isError = false := by
  have hnone := hasError_eq_false_of_mem h hs
  rw [hasError_eq, Bool.or_eq_false_iff, Bool.or_eq_false_iff] at hnone
  exact hnone.1.2

/-! ### The node that is reported -/

/-- The node at whose place the error of a tree is reported. -/
inductive Culprit (t : Tree) : Tree → Prop where
  /-- It is the first, in preorder, that is an error by itself. -/
  | first {c : Tree} {before after : List Tree} : t.preorder = before ++ c :: after →
      (∀ s ∈ before, s.value.isError = false) → c.value.isError → Culprit t c
  /-- If none is, it is the whole tree. -/
  | whole : (∀ s ∈ t.preorder, s.value.isError = false) → Culprit t t

theorem firstError?_eq (t : Tree) : t.firstError? = t.preorder.find? (·.value.isError) := by
  rw [firstError?, Rose.walk_eq_preorder]

theorem culprit_firstError? (t : Tree) : t.Culprit (t.firstError?.getD t) := by
  rw [firstError?_eq]
  cases h : t.preorder.find? (·.value.isError) with
  | none =>
    refine .whole fun s hs => ?_
    simpa using List.find?_eq_none.mp h s hs
  | some c =>
    obtain ⟨hc, before, after, hsplit, hbefore⟩ := List.find?_eq_some_iff_append.mp h
    exact .first hsplit (fun s hs => by simpa using hbefore s hs) hc

/-! ### Trees whose nodes lie in place -/

/-- The children of a node begin and end within it, and follow one another in order and
without overlap. -/
@[mk_iff]
structure InPlace (t : Tree) : Prop where
  inside : ∀ c ∈ t.children, t.value.start ≤ c.value.start ∧ c.value.start ≤ t.value.stop ∧
    c.value.stop ≤ t.value.stop
  apart : t.children.Pairwise fun c d =>
    c.value.start ≤ d.value.start ∧ c.value.stop ≤ d.value.start

instance (t : Tree) : Decidable t.InPlace :=
  decidable_of_iff' _ (inPlace_iff t)

/-- What stands in a tree begins within it. -/
theorem start_bounds_of_mem {s t : Tree} (h : t.Everywhere InPlace) (hs : s ∈ t.preorder) :
    t.value.start ≤ s.value.start ∧ (s = t ∨ s.value.start ≤ t.value.stop) := by
  induction t using Rose.induct with
  | node l cs ih =>
    rcases Rose.mem_preorder_iff.mp hs with rfl | ⟨c, hc, hs⟩
    · exact ⟨Nat.le_refl _, .inl rfl⟩
    · obtain ⟨hstart, hwithin, hstop⟩ := h.self.inside c hc
      obtain ⟨hbelow, rfl | hbelow'⟩ := ih c hc (h.child hc) hs
      · exact ⟨hstart, .inr hwithin⟩
      · exact ⟨Nat.le_trans hstart hbelow, .inr (Nat.le_trans hbelow' hstop)⟩

/-- The preorder of a tree whose nodes lie in place goes from left to right. -/
theorem pairwise_start_preorder {t : Tree} (h : t.Everywhere InPlace) :
    t.preorder.Pairwise fun r s => r.value.start ≤ s.value.start := by
  induction t using Rose.induct with
  | node l cs ih =>
    rw [Rose.preorder_node]
    refine .cons (fun s hs => ?_) (List.pairwise_flatMap.mpr ⟨fun c hc => ih c hc (h.child hc), ?_⟩)
    · have hmem : s ∈ (Rose.node l cs).preorder := by
        rw [Rose.preorder_node]
        exact List.mem_cons_of_mem _ hs
      exact (start_bounds_of_mem h hmem).1
    · refine h.self.apart.imp_of_mem fun {c d} hc hd hcd r hr s hs => ?_
      obtain ⟨-, hrc⟩ := start_bounds_of_mem (h.child hc) hr
      obtain ⟨hsd, -⟩ := start_bounds_of_mem (h.child hd) hs
      -- `c` itself may end where it begins or even go on to `d`, what is below it may not
      rcases hrc with rfl | hrc
      · exact Nat.le_trans hcd.1 hsd
      · exact Nat.le_trans hrc (Nat.le_trans hcd.2 hsd)

/-- No error begins before the one that is reported. -/
theorem Culprit.start_le {c s t : Tree} (h : t.Culprit c) (hplace : t.Everywhere InPlace)
    (hs : s ∈ t.preorder) (herror : s.value.isError) : c.value.start ≤ s.value.start := by
  cases h with
  | @first c before after hsplit hbefore _ =>
    rw [hsplit] at hs
    rcases List.mem_append.mp hs with hs | hs
    · rw [hbefore s hs] at herror
      exact absurd herror Bool.false_ne_true
    · have hpairwise := pairwise_start_preorder hplace
      rw [hsplit] at hpairwise
      have hafter := (List.pairwise_append.mp hpairwise).2.1
      rcases List.mem_cons.mp hs with rfl | hs
      · exact Nat.le_refl _
      · exact List.rel_of_pairwise_cons hafter hs
  | whole hnone =>
    rw [hnone s hs] at herror
    exact absurd herror Bool.false_ne_true

end Ruby.Tree

namespace Node

/-! ### What is reported -/

/-- The error at an offset of a text. -/
def errorAt (src : Source) (offset : Nat) : SyntaxError :=
  { path := src.path, line := (src.position offset).line, column := (src.position offset).column }

theorem exists_parseTree_eq_error (src : Source) {t : Tree} (h : t.hasError) :
    ∃ c, t.Culprit c ∧ parseTree src t = .error (errorAt src c.value.start) := by
  refine ⟨_, t.culprit_firstError?, ?_⟩
  rw [parseTree, if_pos h]
  rfl

theorem parseTree_of_not_hasError {src : Source} {t : Tree} (h : t.hasError = false) :
    parseTree src t = .ok (ofTree src t) := by
  rw [parseTree, h]
  rfl

theorem exists_parseTree_eq_error_iff {src : Source} {t : Tree} :
    (∃ e, parseTree src t = .error e) ↔ t.hasError := by
  constructor
  · rintro ⟨e, he⟩
    cases herror : t.hasError with
    | true => rfl
    | false =>
      rw [parseTree_of_not_hasError herror] at he
      cases he
  · intro herror
    obtain ⟨c, -, he⟩ := exists_parseTree_eq_error src herror
    exact ⟨_, he⟩

/-- **A tree is rejected for its errors, at the first of them.**  A text is rejected exactly if
its tree has an error, which is to say that a node of the tree is marked, unreadable or missing;
of a tree that is accepted no node is any of these.  The error is reported at the line and
the column of the first node, in preorder over all children, that is unreadable or missing, or of
the root if there is none; and if the nodes lie in place, none of these nodes begins before it. -/
theorem parse_reports_first_error (reader : TreeReader) (path : Option String) (text : String) :
    ((∃ e, parse reader path text = .error e) ↔ (reader text).hasError) ∧
      ((reader text).hasError ↔ ∃ s ∈ (reader text).preorder,
        s.value.flagged ∨ s.value.type = Ruby.Tree.errorType ∨ s.value.missing) ∧
      (∀ root, parse reader path text = .ok root →
        root = ofTree (.ofText path text) (reader text) ∧
          ∀ s ∈ (reader text).preorder,
            s.value.type ≠ Ruby.Tree.errorType ∧ s.value.missing = false) ∧
      ∀ e, parse reader path text = .error e →
        ∃ c, (reader text).Culprit c ∧ e = errorAt (.ofText path text) c.value.start ∧
          (c.value.start ≤ text.utf8ByteSize →
            ⟨e.line, e.column⟩ = Position.counted (Utf8.bytes text) c.value.start) ∧
          ((reader text).Everywhere Ruby.Tree.InPlace →
            ∀ s ∈ (reader text).preorder,
              s.value.type = Ruby.Tree.errorType ∨ s.value.missing →
              c.value.start ≤ s.value.start) := by
  have hmarks : (reader text).hasError ↔ ∃ s ∈ (reader text).preorder,
      s.value.flagged ∨ s.value.type = Ruby.Tree.errorType ∨ s.value.missing := by
    rw [Ruby.Tree.hasError_iff]
    simp only [Label.isError_iff]
  rw [parse]
  refine ⟨exists_parseTree_eq_error_iff, hmarks, fun root hroot => ?_, fun e he => ?_⟩
  · cases herror : (reader text).hasError with
    | true =>
      obtain ⟨c, -, he⟩ := exists_parseTree_eq_error (.ofText path text) herror
      rw [he] at hroot
      cases hroot
    | false =>
      rw [parseTree_of_not_hasError herror] at hroot
      refine ⟨(Except.ok.inj hroot).symm, fun s hs => ?_⟩
      have hnone := Ruby.Tree.isError_eq_false_of_mem herror hs
      rw [Label.isError, Bool.or_eq_false_iff, beq_eq_false_iff_ne] at hnone
      exact hnone
  · have herror : (reader text).hasError := exists_parseTree_eq_error_iff.mp ⟨e, he⟩
    obtain ⟨c, hculprit, hparse⟩ := exists_parseTree_eq_error (.ofText path text) herror
    have heq : errorAt (.ofText path text) c.value.start = e :=
      Except.error.inj (hparse.symm.trans he)
    subst heq
    refine ⟨c, hculprit, rfl, Source.position_ofText path, fun hplace s hs hmark => ?_⟩
    exact hculprit.start_le hplace hs (Label.isError_iff.mpr hmark)

/-! ### A text that lacks a bracket -/

open Ruby.Tree (construct token)

/-- A call whose bracket is not closed, and a bracket that nothing opened. -/
def unbalancedText : String := "a(\n  b\nc ]\n"

/-- The concrete tree of `unbalancedText`, where the bracket that lacks has no width. -/
def unbalanced : Tree :=
  construct "program" 0 11 none [
    construct "call" 0 6 none [
      construct "identifier" 0 1 (some "method") [],
      construct "argument_list" 1 6 (some "arguments") [
        token "(" 1,
        construct "identifier" 5 6 none [],
        .node { type := ")", named := false, missing := true, flagged := false, start := 6,
                stop := 6, field := none } []]],
    construct "identifier" 7 8 none [],
    construct "ERROR" 9 10 none [token "]" 9]]

/-- What is reported is the place of the bracket that lacks, two levels down. -/
theorem parse_reports_first_error_unbalanced :
    unbalanced.Everywhere Ruby.Tree.InPlace ∧
      ∃ e, parse (fun _ => unbalanced) (some "a.rb") unbalancedText = .error e ∧
        e.message = "Syntax error at a.rb:2:4" ∧
        ∃ c, unbalanced.Culprit c ∧
          e = errorAt (.ofText (some "a.rb") unbalancedText) c.value.start ∧
          ∀ s ∈ unbalanced.preorder, s.value.type = Ruby.Tree.errorType ∨ s.value.missing →
            c.value.start ≤ s.value.start := by
  have hplace : unbalanced.Everywhere Ruby.Tree.InPlace := by decide +kernel
  have herror : unbalanced.hasError := by decide +kernel
  obtain ⟨hrejects, -, -, hplaces⟩ :=
    parse_reports_first_error (fun _ => unbalanced) (some "a.rb") unbalancedText
  obtain ⟨e, he⟩ := hrejects.mpr herror
  obtain ⟨c, hculprit, hat, -, hfirst⟩ := hplaces e he
  refine ⟨hplace, e, he, ?_, c, hculprit, hat, hfirst hplace⟩
  have hmessage : (errorAt (.ofText (some "a.rb") unbalancedText)
      (unbalanced.firstError?.getD unbalanced).value.start).message =
        "Syntax error at a.rb:2:4" := by
    decide +kernel
  rw [parse, parseTree, if_pos herror] at he
  cases he
  exact hmessage

end Node

end TapLint
