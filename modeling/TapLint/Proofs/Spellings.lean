/-
The spellings of a literal.

One value can be written in several ways: `:w`, `w:` before the value of a pair, `:"w"`,
`"w"`, `'w'` or `%q(w)`.  The grammar has a shape for each, and the value is got out of
it by a rule of its own:

* `Delimited` — a literal between two tokens, with or without something there;
* `Spells` — the shapes that spell a value;
* `Delimited.content_eq` — what stands between the tokens is the value, also if it is empty;
* `Delimited.text_eq` — the text is the tokens with the value between them;
* `dropColon_eq_iff_of_bare` — what a pattern asks for, if the value has no colon before it.

The main statement is `literal_of_spells`.
-/
import TapLint.Proofs.Locations
import TapLint.Proofs.UnconditionalDependencies

namespace TapLint.Node

open Ruby (Tree)
open Ruby.Tree (construct token)

variable {path : Option String} {text w : String}

/-! ### The shapes -/

/-- A literal from an opening token to a closing one, with `w` between them.  What the grammar
has there, parts of the text or of an interpolation, does not matter. -/
structure Delimited (path : Option String) (text w : String) (opening closing t : Tree) :
    Prop where
  type_eq : t.value.type = "delimited_symbol" ∨ t.value.type = "string"
  children_eq : ∃ contents, t.children = opening :: (contents ++ [closing])
  opening_named : opening.value.named = false
  closing_named : closing.value.named = false
  start_eq : t.value.start = opening.value.start
  stop_eq : t.value.stop = closing.value.stop
  between : (Source.ofText path text).slice opening.value.stop closing.value.start = w
  ordered : opening.value.start ≤ opening.value.stop ∧
    opening.value.stop ≤ closing.value.start ∧ closing.value.start ≤ closing.value.stop
  valid : ∀ i ∈ [opening.value.start, opening.value.stop, closing.value.start, closing.value.stop],
    String.Pos.Raw.IsValid text ⟨i⟩

/-- The concrete nodes that spell `w` in a text. -/
inductive Spells (path : Option String) (text w : String) (t : Tree) : Prop where
  | symbol (type_eq : t.value.type = "simple_symbol")
      (text_eq : textOf (.ofText path text) t.value = ":" ++ w)
  | hashKey (type_eq : t.value.type = "hash_key_symbol")
      (text_eq : textOf (.ofText path text) t.value = w)
  | delimited {opening closing : Tree} (h : Delimited path text w opening closing t)

/-! ### Their values -/

theorem dropColon_colon_append (s : String) : dropColon (":" ++ s) = s :=
  Dependencies.dropColon_eq_iff.mpr (.inl rfl)

namespace Delimited

variable {opening closing t : Tree}

theorem content_eq (h : Delimited path text w opening closing t) :
    delimitedContent (.ofText path text) t.value
      (t.children.map (convert (.ofText path text))) = w := by
  obtain ⟨contents, hchildren⟩ := h.children_eq
  rw [hchildren, List.map_cons, List.map_append, List.map_singleton, delimitedContent,
    List.head?_cons, ← List.cons_append, List.getLast?_concat]
  simp only [label_convert, h.opening_named, h.closing_named]
  -- the two tokens are two children, whatever stands between them
  rw [if_pos (by simp)]
  exact h.between

theorem isLiteral_ofTree (h : Delimited path text w opening closing t) (src : Source) :
    (ofTree src t).isLiteral := by
  rw [isLiteral, kind_ofTree]
  rcases h.type_eq with htype | htype <;> rw [htype] <;> rfl

theorem literal_ofTree (h : Delimited path text w opening closing t) :
    (ofTree (.ofText path text) t).literal = some w := by
  rcases h.type_eq with htype | htype
  · rw [literal_ofTree_symbol _ (by rw [htype]; rfl), symbolContent, htype]
    exact congrArg some h.content_eq
  · rw [literal_ofTree_string _ (by rw [htype]; rfl), h.content_eq]

/-- The text of a delimited literal is that of the tokens, with the value between them. -/
theorem text_eq (h : Delimited path text w opening closing t) :
    (ofTree (.ofText path text) t).text =
      textOf (.ofText path text) opening.value ++ w ++
        textOf (.ofText path text) closing.value := by
  obtain ⟨hopening, hbetween, hclosing⟩ := h.ordered
  have hvalid := h.valid
  simp only [List.forall_mem_cons, List.not_mem_nil] at hvalid
  obtain ⟨hstart, hinside, hbehind, hstop, -⟩ := hvalid
  rw [text_ofTree, textOf, h.start_eq, h.stop_eq]
  rw [Source.slice_append path hstart hbehind hstop (Nat.le_trans hopening hbetween)
    hclosing]
  rw [Source.slice_append path hstart hinside hbehind hopening hbetween, h.between]
  rfl

end Delimited

namespace Spells

variable {t : Tree}

theorem isLiteral_ofTree (h : Spells path text w t) (src : Source) :
    (ofTree src t).isLiteral := by
  cases h with
  | symbol htype _ | hashKey htype _ => rw [isLiteral, kind_ofTree, htype]; rfl
  | delimited h => exact h.isLiteral_ofTree src

/-- Each of the shapes gives the value that it spells. -/
theorem literal_ofTree (h : Spells path text w t) :
    (ofTree (.ofText path text) t).literal = some w := by
  cases h with
  | symbol htype htext =>
    rw [literal_ofTree_symbol _ (by rw [htype]; rfl), symbolContent, htype, htext]
    exact congrArg some (dropColon_colon_append w)
  | hashKey htype htext =>
    rw [literal_ofTree_symbol _ (by rw [htype]; rfl), symbolContent, htype, htext]
    rfl
  | delimited h => exact h.literal_ofTree

end Spells

/-! ### What is made of a value -/

theorem content_of_literal {n : Node} (hn : n.isLiteral) (hw : n.literal = some w) :
    n.content = w := by
  rw [content, if_pos hn, hw, Option.getD_some]

/-- A literal names what it says. -/
theorem dependencyName_of_isLiteral {n : Node} (hn : n.isLiteral) :
    n.dependencyName = .ok n.content := by
  rw [isLiteral] at hn
  rw [dependencyName]
  cases hkind : n.kind
  case string | symbol => rfl
  all_goals
    rw [hkind] at hn
    cases hn

/-- A hash names what its first key says. -/
theorem dependencyName_of_head?_keys {hash n : Node} (hkind : hash.kind = .hash)
    (hkeys : hash.keys.head? = some n) (hn : n.isLiteral) :
    hash.dependencyName = .ok n.content := by
  obtain ⟨ks, hks⟩ := List.head?_eq_some_iff.mp hkeys
  rw [dependencyName, hkind, hks]
  exact if_pos hn

theorem dropColon_eq_iff_of_bare (hw : w.toList.head? ≠ some ':') {p : String} :
    dropColon p = w ↔ p = w ∨ p = ":" ++ w := by
  rw [Dependencies.dropColon_eq_iff]
  constructor
  · rintro (h | ⟨h, -⟩)
    · exact .inr h
    · exact .inl h
  · rintro (rfl | h)
    · exact .inr ⟨rfl, hw⟩
    · exact .inl h

theorem accepts_literal_iff {n : Node} (hn : n.isLiteral) {p : String} :
    Pattern.accepts n (.literal p) ↔ n.literal = some (dropColon p) := by
  rw [Pattern.accepts, hn, Bool.true_and, beq_iff_eq]

/-- **All spellings of a literal are equivalent.**  Let `w` not begin with a colon.  The symbol
`:w`, the key `w` before a colon, and the symbols and strings with `w` between two tokens all
become literals with the value `w`, the last ones with a text that is the tokens and the value
between them.  Each of them names the dependency `w`, as an argument and as the first key of a
hash, and is accepted by the patterns `w` and `:w` and by no others, while these two accept
among all literals just those with the value `w`. -/
theorem literal_of_spells (hw : w.toList.head? ≠ some ':') {t : Tree}
    (h : Spells path text w t) :
    let src := Source.ofText path text
    let n := ofTree src t
    n.isLiteral ∧ n.literal = some w ∧
      (∀ opening closing, Delimited path text w opening closing t →
        n.text = textOf src opening.value ++ w ++ textOf src closing.value) ∧
      n.dependencyName = .ok w ∧
      (∀ hash : Node, hash.kind = .hash → hash.keys.head? = some n →
        hash.dependencyName = .ok w) ∧
      (∀ p, Pattern.accepts n (.literal p) ↔ p = w ∨ p = ":" ++ w) ∧
      ∀ m : Node, m.isLiteral → ∀ p ∈ [w, ":" ++ w],
        (Pattern.accepts m (.literal p) ↔ m.literal = some w) := by
  intro src n
  have hliteral : n.isLiteral := h.isLiteral_ofTree src
  have hvalue : n.literal = some w := h.literal_ofTree
  have hcontent : n.content = w := content_of_literal hliteral hvalue
  refine ⟨hliteral, hvalue, fun _ _ hdelimited => hdelimited.text_eq, ?_, ?_, ?_, ?_⟩
  · rw [dependencyName_of_isLiteral hliteral, hcontent]
  · intro hash hkind hkeys
    rw [dependencyName_of_head?_keys hkind hkeys hliteral, hcontent]
  · intro p
    rw [accepts_literal_iff hliteral, hvalue, ← dropColon_eq_iff_of_bare hw, Option.some_inj]
    exact eq_comm
  · intro m hm p hp
    have hpattern : dropColon p = w := (dropColon_eq_iff_of_bare hw).mpr (by simpa using hp)
    rw [accepts_literal_iff hm, hpattern]

/-! ### A symbol between quotes -/

/-- A hash with a quoted key that is not ASCII. -/
def quotedKeyText : String := "\x7b:\"é\" => 1\x7d"

/-- The token that opens the key. -/
def quotedKeyOpening : Tree := token ":\"" 1

/-- The token that closes the key. -/
def quotedKeyClosing : Tree := token "\"" 5

/-- The key. -/
def quotedKey : Tree :=
  construct "delimited_symbol" 1 6 (some "key") [
    quotedKeyOpening, construct "string_content" 3 5 none [], quotedKeyClosing]

/-- The concrete tree of `quotedKeyText`. -/
def quotedKeyHash : Tree :=
  construct "hash" 0 12 none [
    token "\x7b" 0,
    construct "pair" 1 11 none [
      quotedKey, token "=>" 7, construct "integer" 10 11 (some "value") []],
    token "\x7d" 11]

/-- The key opens with a token of two bytes, and its value is one character of two bytes. -/
theorem literal_of_spells_quotedKey :
    let src := Source.ofText none quotedKeyText
    let n := ofTree src quotedKey
    let hash := ofTree src quotedKeyHash
    "é".toList.head? ≠ some ':' ∧ Spells none quotedKeyText "é" quotedKey ∧
      n.literal = some "é" ∧ n.text = ":\"" ++ "é" ++ "\"" ∧
      hash.kind = .hash ∧ hash.keys.head? = some n ∧ hash.dependencyName = .ok "é" ∧
      Pattern.accepts n (.literal ":é") := by
  intro src n hash
  have hw : "é".toList.head? ≠ some ':' := by decide
  have hdelimited : Delimited none quotedKeyText "é" quotedKeyOpening quotedKeyClosing quotedKey :=
    { type_eq := .inl rfl
      children_eq := ⟨[construct "string_content" 3 5 none []], rfl⟩
      opening_named := rfl
      closing_named := rfl
      start_eq := rfl
      stop_eq := rfl
      between := by decide +kernel
      ordered := by decide +kernel
      valid := by decide +kernel }
  have hspells : Spells none quotedKeyText "é" quotedKey := .delimited hdelimited
  have hkind : hash.kind = .hash := by rw [kind_ofTree]; rfl
  have hkeys : hash.keys.head? = some n := by decide +kernel
  obtain ⟨-, hvalue, htext, -, hname, haccepts, -⟩ := literal_of_spells hw hspells
  have hopening : textOf src quotedKeyOpening.value = ":\"" := by decide +kernel
  have hclosing : textOf src quotedKeyClosing.value = "\"" := by decide +kernel
  refine ⟨hw, hspells, hvalue, ?_, hkind, hkeys, hname hash hkind hkeys, ?_⟩
  · rw [htext _ _ hdelimited, hopening, hclosing]
  · exact (haccepts ":é").mpr (.inr rfl)

end TapLint.Node
