/-
Asking for the dependencies that a body declares.

A name is collected as the literal of the declaration has it, and a query is taken without the
colon that it may begin with, so that a symbol can be asked for as it is written.  A declared name
is found by itself unless it begins with a colon of its own:

* `Declared` — a declaration in the body, outside of `on_…` calls, names the dependency;
* `mem_collect_iff` — these are the names that are collected;
* `has_self_iff` — which of some names are found by themselves.

The main statement is `found_by_own_name`.
-/
import TapLint.Formula.Basic
import TapLint.Proofs.UnconditionalDependencies
import TapLint.Ruby.Program

namespace TapLint.Dependencies

/-! ### The names that are declared -/

/-- A call in an optional body declares the dependency: it is a `depends_on` with no `on_…` call
around it, and its first argument gives the name. -/
def Declared (body : Option Node) (name : String) : Prop :=
  ∃ entry ∈ Node.walkWithAncestors? body, declares entry ∧
    ∃ a, entry.1.arguments.head? = some a ∧ a.dependencyName = .ok name

theorem value_nameOf_eq_some_iff {call : Node} {name : String} :
    (nameOf call).value = some name ↔
      ∃ a, call.arguments.head? = some a ∧ a.dependencyName = .ok name := by
  have hok : ∀ a : Node, a.dependencyName.toOption = some name ↔ a.dependencyName = .ok name := by
    intro a
    cases a.dependencyName with
    | ok given =>
      rw [Except.ok.injEq]
      exact Option.some_inj
    | error why => exact iff_of_false nofun nofun
  rw [value_nameOf, Option.bind_eq_some_iff]
  simp only [hok]

theorem mem_collect_iff {body : Option Node} {name : String} :
    name ∈ (collect body).value ↔ Declared body name := by
  rw [value_collect, List.mem_flatMap, Declared]
  refine exists_congr fun entry => and_congr_right fun _ => ?_
  rw [contribution_eq, ← value_nameOf_eq_some_iff]
  by_cases h : declares entry
  · rw [if_pos h, Option.mem_toList]
    exact ⟨fun hname => ⟨h, hname⟩, And.right⟩
  · rw [if_neg h]
    exact iff_of_false List.not_mem_nil fun hboth => h hboth.1

/-! ### What is found -/

section

variable {names : List String} {name : String}

/-- A name is found with one more colon before it, whatever it begins with. -/
theorem has_colon_append (h : name ∈ names) : has names (":" ++ name) :=
  has_iff.mpr ⟨name, h, .inl rfl⟩

/-- A name is found by itself if no colon is taken from it, or if the rest is a name, too. -/
theorem has_self_iff (h : name ∈ names) :
    has names name ↔ name.toList.head? ≠ some ':' ∨ ∃ rest ∈ names, name = ":" ++ rest := by
  rw [has_iff]
  constructor
  · rintro ⟨other, hother, hcolon | ⟨-, hbare⟩⟩
    · exact .inr ⟨other, hother, hcolon⟩
    · exact .inl hbare
  · rintro (hbare | ⟨rest, hrest, hcolon⟩)
    · exact ⟨name, h, .inr ⟨rfl, hbare⟩⟩
    · exact ⟨rest, hrest, .inl hcolon⟩

theorem mem_of_has {query : String} (h : has names query) :
    query ∈ names ∨ ∃ rest ∈ names, query = ":" ++ rest := by
  obtain ⟨other, hother, hcolon | ⟨hsame, -⟩⟩ := has_iff.mp h
  · exact .inr ⟨other, hother, hcolon⟩
  · rw [hsame]
    exact .inl hother

end

/-- **A name is found by itself unless it begins with a colon.**  The names that are collected from
a body are those that it declares.  One that does not begin with a colon is found by itself.  One
that does is found with a second colon before it, and by itself exactly if what follows the colon
is declared as well.  And nothing else is found: a query that holds is one of the names, or one of
them after a colon. -/
theorem found_by_own_name (body : Option Node) :
    let names := (collect body).value
    (∀ n, n ∈ names ↔ Declared body n) ∧
      (∀ n ∈ names, n.toList.head? ≠ some ':' → has names n) ∧
      (∀ n ∈ names, n.toList.head? = some ':' →
        has names (":" ++ n) ∧ (has names n ↔ ∃ rest ∈ names, n = ":" ++ rest)) ∧
      ∀ query, has names query → query ∈ names ∨ ∃ rest ∈ names, query = ":" ++ rest := by
  intro names
  refine ⟨fun n => mem_collect_iff, fun n hn hbare => ?_, fun n hn hcolon => ?_,
    fun query => mem_of_has⟩
  · exact (has_self_iff hn).mpr (.inl hbare)
  · refine ⟨has_colon_append hn, ?_⟩
    rw [has_self_iff hn]
    exact or_iff_right (not_not_intro hcolon)

/-! ### Names with a colon -/

/-- A formula with a name that begins with a colon, one that is also declared without it, and that
other one. -/
def colonText : String :=
  "class A < Formula\n  depends_on \":q\"\n  depends_on \":r\" => :build\n  depends_on :r\nend\n"

/-- The body of that formula. -/
def colonBody : Option Node :=
  (Formula.ofSource Ruby.Tree.ofText colonText none none).value.toOption.bind Formula.body

theorem value_collect_colonBody : (collect colonBody).value = [":q", ":r", "r"] := by
  decide +kernel

theorem found_by_own_name_colonBody :
    has (collect colonBody).value "r" ∧ has (collect colonBody).value ":r" ∧
      has (collect colonBody).value "::q" ∧ Declared colonBody ":q" := by
  obtain ⟨hdeclared, hbare, hcolon, -⟩ := found_by_own_name colonBody
  rw [value_collect_colonBody] at hdeclared hbare hcolon ⊢
  refine ⟨hbare "r" (by decide) (by decide), ?_, ?_, ?_⟩
  · exact (hcolon ":r" (by decide) (by decide)).2.mpr ⟨"r", by decide, rfl⟩
  · exact (hcolon ":q" (by decide) (by decide)).1
  · exact (hdeclared ":q").mp (by decide)

/-- A name that begins with a colon is collected and not found by itself. -/
theorem colonName_not_found : ∃ n ∈ (collect colonBody).value, ¬has (collect colonBody).value n := by
  rw [value_collect_colonBody]
  exact ⟨":q", by decide, by decide⟩

end TapLint.Dependencies
