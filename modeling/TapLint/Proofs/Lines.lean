/-
The lines of a text.

A text is cut at its line feeds, as a path is cut at its slashes:

* `Path.splitChars_eq_splitOn` — cutting at a character;
* `Text.linesOf` — the lines of a text;
* `Text.OnLine` — whether a text has only one;
* `Text.linesOf_intercalate` — joining texts by line feeds keeps their lines.
-/
import Mathlib.Data.List.Basic
import TapLint.Files.Path

namespace TapLint

/-! ### Cutting -/

/-- What is in a piece of a list was in the list and is not what the list is split at. -/
theorem mem_of_mem_splitOn {sep c : Char} {cs piece : List Char} (h : piece ∈ cs.splitOn sep)
    (hc : c ∈ piece) : c ∈ cs ∧ c ≠ sep := by
  induction cs generalizing piece with
  | nil =>
    rw [List.splitOn_nil, List.mem_singleton] at h
    rw [h] at hc
    exact absurd hc List.not_mem_nil
  | cons d cs ih =>
    rw [List.splitOn_cons_eq_if_modifyHead] at h
    split at h
    next =>
      rcases List.mem_cons.mp h with rfl | h
      · exact absurd hc List.not_mem_nil
      · exact (ih h hc).imp_left (List.mem_cons_of_mem d)
    next hd =>
      -- the first piece goes on to the left, and the others stay
      obtain ⟨first, others, hsplit⟩ := List.exists_cons_of_ne_nil (List.splitOn_ne_nil sep cs)
      rw [hsplit, List.modifyHead_cons] at h
      rcases List.mem_cons.mp h with rfl | h
      · rcases List.mem_cons.mp hc with rfl | hc
        · exact ⟨List.mem_cons_self, fun heq => hd (beq_iff_eq.mpr heq)⟩
        · exact (ih (hsplit ▸ List.mem_cons_self) hc).imp_left (List.mem_cons_of_mem d)
      · exact (ih (hsplit ▸ List.mem_cons_of_mem first h) hc).imp_left (List.mem_cons_of_mem d)

theorem not_mem_of_mem_splitOn {sep : Char} {cs piece : List Char} (h : piece ∈ cs.splitOn sep) :
    sep ∉ piece :=
  fun hc => (mem_of_mem_splitOn h hc).2 rfl

theorem Path.splitChars_eq_splitOn (sep : Char) (cs : List Char) :
    splitChars sep cs = cs.splitOn sep := by
  induction cs with
  | nil => rfl
  | cons c cs ih =>
    obtain ⟨first, others, hsplit⟩ := List.exists_cons_of_ne_nil (List.splitOn_ne_nil sep cs)
    rw [splitChars, List.splitOn_cons_eq_if_modifyHead, ih, hsplit]
    by_cases hc : c = sep <;> simp [hc]

/-! ### Lines of a text -/

namespace Text

/-- The lines of a text, of which each but the last is ended by a line feed. -/
def linesOf (s : String) : List String := (s.split '\n').toList.map (·.copy)

/-- Whether a text has no line feed in it. -/
def OnLine (s : String) : Prop := '\n' ∉ s.toList

instance : DecidablePred OnLine := fun s => inferInstanceAs (Decidable ('\n' ∉ s.toList))

theorem onLine_append {s t : String} : OnLine (s ++ t) ↔ OnLine s ∧ OnLine t := by
  rw [OnLine, String.toList_append, List.mem_append, not_or]
  rfl

/-- A number has nothing but digits in it. -/
theorem not_mem_toString {c : Char} (hc : c.isDigit = false) (n : Nat) :
    c ∉ (toString n).toList := by
  rw [Nat.toString_eq_repr, Nat.toList_repr]
  intro hmem
  have hdigit : c.isDigit := Nat.isDigit_of_mem_toDigits (by omega) (by omega) hmem
  rw [hc] at hdigit
  cases hdigit

theorem onLine_toString (n : Nat) : OnLine (toString n) := not_mem_toString (by decide) n

theorem linesOf_eq (s : String) : linesOf s = (s.toList.splitOn '\n').map String.ofList :=
  String.toList_split_char

theorem linesOf_of_onLine {s : String} (h : OnLine s) : linesOf s = [s] := by
  rw [linesOf_eq, List.splitOn_eq_singleton h, List.map_singleton, String.ofList_toList]

theorem linesOf_append (s t : String) : linesOf (s ++ "\n" ++ t) = linesOf s ++ linesOf t := by
  have hjoined : (s ++ "\n" ++ t).toList = s.toList ++ '\n' :: t.toList := by
    simp
  rw [linesOf_eq, hjoined, List.splitOn_append_cons_self, List.map_append, ← linesOf_eq,
    ← linesOf_eq]

theorem linesOf_intercalate {texts : List String} (hne : texts ≠ []) :
    linesOf (String.intercalate "\n" texts) = texts.flatMap linesOf := by
  induction texts with
  | nil => exact absurd rfl hne
  | cons s texts ih =>
    cases texts with
    | nil => rw [String.intercalate_singleton, List.flatMap_singleton]
    | cons t texts =>
      rw [String.intercalate_cons_cons, linesOf_append, ih (List.cons_ne_nil t texts),
        ← List.flatMap_cons]

theorem onLine_of_mem_linesOf {s line : String} (h : line ∈ linesOf s) : OnLine line := by
  rw [linesOf_eq] at h
  obtain ⟨cs, hcs, rfl⟩ := List.mem_map.mp h
  rw [OnLine, String.toList_ofList]
  exact not_mem_of_mem_splitOn hcs

theorem mem_of_mem_linesOf {s line : String} {c : Char} (h : line ∈ linesOf s)
    (hc : c ∈ line.toList) : c ∈ s.toList := by
  rw [linesOf_eq] at h
  obtain ⟨cs, hcs, rfl⟩ := List.mem_map.mp h
  rw [String.toList_ofList] at hc
  exact (mem_of_mem_splitOn hcs hc).1

/-- Texts are the lines of what they are joined to if none of them is broken. -/
theorem flatMap_linesOf_eq_self_iff {texts : List String} :
    texts.flatMap linesOf = texts ↔ ∀ s ∈ texts, OnLine s := by
  constructor
  · intro h s hs
    rw [← h] at hs
    obtain ⟨t, -, hline⟩ := List.mem_flatMap.mp hs
    exact onLine_of_mem_linesOf hline
  · intro h
    rw [List.flatMap_congr fun s hs => linesOf_of_onLine (h s hs)]
    exact List.flatMap_singleton' texts

end Text

end TapLint
