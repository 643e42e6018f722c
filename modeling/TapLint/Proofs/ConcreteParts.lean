/-
The parts by which a concrete node is known.

The conversion picks children by their field in calls, pairs and classes and all
named children elsewhere.  `kept` lists what it picks, in its order, as subtrees
of the concrete tree; a class whose superclass comes first (`SuperclassFirst`)
has all its statements after the superclass (`exists_split_superclass`).
-/
import TapLint.Proofs.Preorder
import TapLint.Syntax.OfTree

namespace TapLint.Ruby.Tree

/-! ### What is picked -/

/-- Whether a node fills a field of its parent. -/
def fills (name : String) (c : Tree) : Bool :=
  c.value.field == some name

/-- The fields of a call that its conversion keeps, apart from the method. -/
def callFields : List String := ["receiver", "arguments", "block"]

/-- The fields of a pair. -/
def pairFields : List String := ["key", "value"]

/-- The first children that fill some fields, in the order of the fields. -/
def filling (names : List String) (t : Tree) : List Tree :=
  names.flatMap fun name => (t.field? name).toList

/-- The children that are constructs: named, and no comments. -/
def parts (t : Tree) : List Tree :=
  t.children.filter (·.value.isPart)

/-- Whether a concrete node is a call. -/
def isCall (t : Tree) : Bool :=
  t.value.type == "call" || t.value.type == "method_call"

/-- What stands between the brackets of a call. -/
def argumentParts (t : Tree) : List Tree :=
  match t.field? "arguments" with
  | some a => a.parts
  | none => []

/-- The expression that a class inherits from. -/
def superclassPart (t : Tree) : Option Tree :=
  (t.field? "superclass").bind fun s => s.parts.head?

/-- Whether a child of a class is a statement: a part that is neither taken for
the name nor for the superclass. -/
def isStatement (t c : Tree) : Bool :=
  c.value.isPart && !(t.field? "name").any (fun n => Node.sameStretch n.value c.value) &&
    !(t.field? "superclass").any (fun s => Node.sameStretch s.value c.value)

/-- The statements of a class. -/
def statements (t : Tree) : List Tree :=
  t.children.filter t.isStatement

/-- The nodes below that the conversion of a node is made of, in the order in
which it has them. -/
def kept (t : Tree) : List Tree :=
  match Node.kindOf t.value.type with
  | .call => (t.field? "receiver").toList ++ t.argumentParts ++ (t.field? "block").toList
  | .pair => (t.field? "key").toList ++ (t.field? "value").toList
  | .classDecl => t.superclassPart.toList ++ t.statements
  | _ => t.parts

/-- The superclass of a class comes before all other parts but the name. -/
def SuperclassFirst (t : Tree) : Prop :=
  (t.field? "superclass").isSome →
    ∀ c ∈ (t.children.eraseP (fills "name")).takeWhile (!fills "superclass" ·),
      c.value.isPart = false

instance (t : Tree) : Decidable t.SuperclassFirst :=
  inferInstanceAs (Decidable ((t.field? "superclass").isSome → _))

/-! ### Membership -/

theorem mem_children_of_field? {t c : Tree} {name : String} (h : t.field? name = some c) :
    c ∈ t.children :=
  List.mem_of_find?_eq_some h

theorem mem_parts {t c : Tree} : c ∈ t.parts ↔ c ∈ t.children ∧ c.value.isPart := by
  rw [parts, List.mem_filter]

theorem mem_children_of_mem_parts {t c : Tree} (h : c ∈ t.parts) : c ∈ t.children :=
  (mem_parts.mp h).1

theorem mem_argumentParts {t c : Tree} :
    c ∈ t.argumentParts ↔ ∃ a, t.field? "arguments" = some a ∧ c ∈ a.parts := by
  rw [argumentParts]
  cases t.field? "arguments" <;> simp

theorem superclassPart_eq_some {t c : Tree} :
    t.superclassPart = some c ↔ ∃ s, t.field? "superclass" = some s ∧ s.parts.head? = some c := by
  rw [superclassPart, Option.bind_eq_some_iff]

theorem mem_children_of_mem_statements {t c : Tree} (h : c ∈ t.statements) : c ∈ t.children :=
  (List.mem_filter.mp h).1

/-- What is kept of a node stands below one of its children. -/
theorem exists_child_of_mem_kept {t c : Tree} (h : c ∈ t.kept) :
    ∃ d ∈ t.children, c ∈ d.preorder := by
  have direct : ∀ d ∈ t.children, ∃ e ∈ t.children, d ∈ e.preorder :=
    fun d hd => ⟨d, hd, Rose.self_mem_preorder d⟩
  have below : ∀ d ∈ t.children, ∀ e ∈ parts d, ∃ d ∈ t.children, e ∈ d.preorder :=
    fun d hd e he => ⟨d, hd, Rose.mem_preorder_of_mem_children (mem_children_of_mem_parts he)⟩
  rw [kept] at h
  split at h
  · simp only [List.mem_append, Option.mem_toList] at h
    rcases h with (h | h) | h
    · exact direct c (mem_children_of_field? h)
    · obtain ⟨a, ha, hc⟩ := mem_argumentParts.mp h
      exact below a (mem_children_of_field? ha) c hc
    · exact direct c (mem_children_of_field? h)
  · simp only [List.mem_append, Option.mem_toList] at h
    rcases h with h | h <;> exact direct c (mem_children_of_field? h)
  · simp only [List.mem_append, Option.mem_toList] at h
    rcases h with h | h
    · obtain ⟨s, hs, hc⟩ := superclassPart_eq_some.mp h
      exact below s (mem_children_of_field? hs) c (List.mem_of_head? hc)
    · exact direct c (mem_children_of_mem_statements h)
  · exact direct c (mem_children_of_mem_parts h)

/-! ### Classes -/

theorem sameStretch_self (l : Label) : Node.sameStretch l l := by
  simp [Node.sameStretch]

theorem isStatement_name {t n : Tree} (h : t.field? "name" = some n) : t.isStatement n = false := by
  simp [isStatement, h, sameStretch_self]

theorem isStatement_superclass {t s : Tree} (h : t.field? "superclass" = some s) :
    t.isStatement s = false := by
  simp [isStatement, h, sameStretch_self]

/-- A member before the first that passes `!q` is still there when the first that
passes `p` is taken out, unless it is that one. -/
theorem mem_takeWhile_eraseP_or {α : Type} {p q : α → Bool} {c : α} {l : List α}
    (h : c ∈ l.takeWhile q) : c ∈ (l.eraseP p).takeWhile q ∨ l.find? p = some c := by
  induction l with
  | nil => exact absurd h List.not_mem_nil
  | cons d l ih =>
    rw [List.takeWhile_cons] at h
    split at h
    next hq =>
      by_cases hp : p d
      · rw [List.eraseP_cons_of_pos hp, List.find?_cons_of_pos hp]
        rcases List.mem_cons.mp h with rfl | h
        · exact .inr rfl
        · exact .inl h
      · rw [List.eraseP_cons_of_neg hp, List.find?_cons_of_neg hp, List.takeWhile_cons_of_pos hq]
        rcases List.mem_cons.mp h with rfl | h
        · exact .inl List.mem_cons_self
        · exact (ih h).imp_left (List.mem_cons_of_mem d)
    next => exact absurd h List.not_mem_nil

theorem mem_eraseP_or {α : Type} {p : α → Bool} {c : α} {l : List α} (h : c ∈ l) :
    c ∈ l.eraseP p ∨ l.find? p = some c := by
  induction l with
  | nil => exact absurd h List.not_mem_nil
  | cons d l ih =>
    by_cases hp : p d
    · rw [List.eraseP_cons_of_pos hp, List.find?_cons_of_pos hp]
      rcases List.mem_cons.mp h with rfl | h
      · exact .inr rfl
      · exact .inl h
    · rw [List.eraseP_cons_of_neg hp, List.find?_cons_of_neg hp]
      rcases List.mem_cons.mp h with rfl | h
      · exact .inl List.mem_cons_self
      · exact (ih h).imp_left (List.mem_cons_of_mem d)

/-- The children of a class around its superclass: before it stands no part but
the name. -/
theorem exists_split_superclass {t s : Tree} (h : SuperclassFirst t)
    (hs : t.field? "superclass" = some s) :
    ∃ pre post, t.children = pre ++ s :: post ∧
      (∀ c ∈ pre, fills "superclass" c = false) ∧
      ∀ c ∈ pre, c.value.isPart → t.field? "name" = some c := by
  obtain ⟨hfills, pre, post, hsplit, hpre⟩ := List.find?_eq_some_iff_append.mp hs
  have hpre : ∀ c ∈ pre, fills "superclass" c = false := fun c hc => by
    simpa [fills] using hpre c hc
  refine ⟨pre, post, hsplit, hpre, fun c hc hpart => ?_⟩
  have hwhile : c ∈ t.children.takeWhile (!fills "superclass" ·) := by
    rw [hsplit, List.takeWhile_append_of_pos fun d hd => by rw [hpre d hd]; rfl]
    exact List.mem_append_left _ hc
  rcases mem_takeWhile_eraseP_or hwhile with hrest | hname
  · have hnot := h (by rw [hs]; rfl) c hrest
    exact absurd hpart (by rw [hnot]; exact Bool.false_ne_true)
  · exact hname

/-- The statements of a class stand after its superclass. -/
theorem statements_eq_of_split {t s : Tree} {pre post : List Tree}
    (hs : t.field? "superclass" = some s) (hsplit : t.children = pre ++ s :: post)
    (hpre : ∀ c ∈ pre, c.value.isPart → t.field? "name" = some c) :
    t.statements = post.filter t.isStatement := by
  have hnone : pre.filter t.isStatement = [] := by
    refine List.filter_eq_nil_iff.mpr fun c hc hstatement => ?_
    have hpart : c.value.isPart := by
      rw [isStatement, Bool.and_eq_true, Bool.and_eq_true] at hstatement
      exact hstatement.1.1
    rw [isStatement_name (hpre c hc hpart)] at hstatement
    exact Bool.false_ne_true hstatement
  have hself := isStatement_superclass hs
  rw [statements, hsplit, List.filter_append, hnone, List.nil_append,
    List.filter_cons_of_neg (by rw [hself]; exact Bool.false_ne_true)]

/-! ### A tree in full -/

/-- A construct of a tree that is written out. -/
def construct (type : String) (start stop : Nat) (field : Option String) (cs : List Tree) : Tree :=
  .node { type, named := true, missing := false, flagged := false, start, stop, field } cs

/-- A keyword or a punctuation mark, whose type is its text. -/
def token (text : String) (start : Nat) : Tree :=
  .node { type := text, named := false, missing := false, flagged := false, start,
          stop := start + text.length, field := none } []

/-- A class that inherits from what a call gives, with three statements. -/
def sampleText : String :=
  "class A < B.c(d: e(f))\n" ++
  "  depends_on :linux\n" ++
  "  uses_from_macos \"q\" => g.h\n" ++
  "  on_macos do\n" ++
  "    depends_on \"b\"\n" ++
  "    uses_from_macos x, \"b\"\n" ++
  "  end\n" ++
  "end\n"

/-- The concrete tree of `sampleText`, with its keywords and punctuation marks. -/
def sample : Tree :=
  construct "program" 0 142 none [
    construct "class" 0 141 none [
      token "class" 0,
      construct "constant" 6 7 (some "name") [],
      construct "superclass" 8 22 (some "superclass") [
        token "<" 8,
        construct "call" 10 22 none [
          construct "constant" 10 11 (some "receiver") [],
          token "." 11,
          construct "identifier" 12 13 (some "method") [],
          construct "argument_list" 13 22 (some "arguments") [
            token "(" 13,
            construct "pair" 14 21 none [
              construct "hash_key_symbol" 14 15 (some "key") [],
              token ":" 15,
              construct "call" 17 21 (some "value") [
                construct "identifier" 17 18 (some "method") [],
                construct "argument_list" 18 21 (some "arguments") [
                  token "(" 18,
                  construct "identifier" 19 20 none [],
                  token ")" 20]]],
            token ")" 21]]],
      construct "body_statement" 25 137 (some "body") [
        construct "call" 25 42 none [
          construct "identifier" 25 35 (some "method") [],
          construct "argument_list" 36 42 (some "arguments") [
            construct "simple_symbol" 36 42 none []]],
        construct "call" 45 71 none [
          construct "identifier" 45 60 (some "method") [],
          construct "argument_list" 61 71 (some "arguments") [
            construct "pair" 61 71 none [
              construct "string" 61 64 (some "key") [
                token "\"" 61,
                construct "string_content" 62 63 none [],
                token "\"" 63],
              token "=>" 65,
              construct "call" 68 71 (some "value") [
                construct "identifier" 68 69 (some "receiver") [],
                token "." 69,
                construct "identifier" 70 71 (some "method") []]]]],
        construct "call" 74 137 none [
          construct "identifier" 74 82 (some "method") [],
          construct "do_block" 83 137 (some "block") [
            token "do" 83,
            construct "body_statement" 90 131 (some "body") [
              construct "call" 90 104 none [
                construct "identifier" 90 100 (some "method") [],
                construct "argument_list" 101 104 (some "arguments") [
                  construct "string" 101 104 none [
                    token "\"" 101,
                    construct "string_content" 102 103 none [],
                    token "\"" 103]]],
              construct "call" 109 131 none [
                construct "identifier" 109 124 (some "method") [],
                construct "argument_list" 125 131 (some "arguments") [
                  construct "identifier" 125 126 none [],
                  token "," 126,
                  construct "string" 128 131 none [
                    token "\"" 128,
                    construct "string_content" 129 130 none [],
                    token "\"" 130]]]],
            token "end" 134]]],
      token "end" 138]]

end TapLint.Ruby.Tree
