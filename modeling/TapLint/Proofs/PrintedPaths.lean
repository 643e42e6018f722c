/-
Paths are read back from their printed form.

Reading a path drops what does not count (empty parts, single dots, a third slash at the start),
and printing puts nothing of it back.  So the path that a text is read as is printed in a form
that is read as the same path:

* `splitChars_intercalate` — cutting undoes joining;
* `isPlain_ofString` — what every path has that was read from a text;
* `ofString_shown` — such a path is read from its printed form.
-/
import TapLint.Proofs.Lines

namespace TapLint.Path

/-! ### Cutting and joining -/

section Cutting

variable {sep : Char}

/-- The segments of a text do not have the character that it is cut at. -/
theorem not_mem_of_mem_splitChars {cs segment : List Char} (h : segment ∈ splitChars sep cs) :
    sep ∉ segment := by
  rw [splitChars_eq_splitOn] at h
  exact not_mem_of_mem_splitOn h

/-- Cutting undoes joining. -/
theorem splitChars_intercalate {segments : List (List Char)} (hne : segments ≠ [])
    (h : ∀ s ∈ segments, sep ∉ s) : splitChars sep ([sep].intercalate segments) = segments := by
  rw [splitChars_eq_splitOn, List.splitOn_intercalate sep h hne]

theorem splitChars_replicate (n : Nat) (cs : List Char) :
    splitChars sep (List.replicate n sep ++ cs) = List.replicate n [] ++ splitChars sep cs := by
  induction n with
  | zero => rfl
  | succ n ih =>
    rw [List.replicate_succ, List.cons_append, splitChars, if_pos rfl, ih, List.replicate_succ,
      List.cons_append]

end Cutting

/-! ### The slashes at the start -/

theorem anchorOf_le (cs : List Char) : anchorOf cs ≤ 2 := by
  unfold anchorOf
  split <;> omega

/-- Up to two slashes count, if no further one follows. -/
theorem anchorOf_replicate {n : Nat} (hn : n ≤ 2) {cs : List Char} (h : cs.head? ≠ some '/') :
    anchorOf (List.replicate n '/' ++ cs) = n := by
  cases cs with
  | nil =>
    match n with
    | 0 | 1 | 2 => rfl
    | n + 3 => omega
  | cons c cs =>
    have hc : c ≠ '/' := fun heq => h (heq ▸ rfl)
    match n with
    | 0 | 1 | 2 => simp [anchorOf, List.replicate_succ, hc]
    | n + 3 => omega

/-! ### Paths that were read -/

/-- What every path has that was read from a text. -/
structure IsPlain (p : Path) : Prop where
  anchor_le : p.anchor ≤ 2
  /-- A part is a name, with no slash in it. -/
  part : ∀ s ∈ p.parts, s.toList ≠ [] ∧ s.toList ≠ ['.'] ∧ '/' ∉ s.toList

theorem isPlain_ofString (s : String) : (ofString s).IsPlain where
  anchor_le := anchorOf_le s.toList
  part t ht := by
    rw [ofString] at ht
    obtain ⟨segment, hsegment, rfl⟩ := List.mem_map.mp ht
    rw [List.mem_filter, decide_eq_true_eq] at hsegment
    rw [String.toList_ofList]
    exact ⟨hsegment.2.1, hsegment.2.2, not_mem_of_mem_splitChars hsegment.1⟩

/-- The characters of the parts of a path, joined by slashes. -/
def joined (p : Path) : List Char := ['/'].intercalate (p.parts.map String.toList)

theorem toList_intercalate_parts (p : Path) :
    (String.intercalate "/" p.parts).toList = p.joined := by
  rw [String.toList_intercalate, joined]
  rfl

/-- A path with slashes at the start, or with parts, is printed as these. -/
theorem toList_shown {p : Path} (h : p.anchor ≠ 0 ∨ p.parts ≠ []) :
    p.shown.toList = List.replicate p.anchor '/' ++ p.joined := by
  rw [shown]
  by_cases hanchor : p.anchor = 0
  · have hparts : p.parts ≠ [] := h.resolve_left (absurd hanchor)
    rw [if_pos hanchor, if_neg (by simpa using hparts), toList_intercalate_parts, hanchor]
    rfl
  · rw [if_neg hanchor, String.toList_append, String.toList_ofList, toList_intercalate_parts]

theorem IsPlain.head?_joined {p : Path} (h : p.IsPlain) : p.joined.head? ≠ some '/' := by
  rw [joined]
  cases hparts : p.parts with
  | nil => simp
  | cons s parts =>
    obtain ⟨hne, -, hslash⟩ := h.part s (hparts ▸ List.mem_cons_self)
    obtain ⟨c, cs, hcs⟩ := List.exists_cons_of_ne_nil hne
    have hc : c ≠ '/' := by
      rintro rfl
      exact hslash (hcs ▸ List.mem_cons_self)
    cases parts <;> simp [hcs, hc, List.intercalate_cons_cons]

/-- The parts of a path are read from what is printed of them. -/
theorem IsPlain.filter_splitChars_joined {p : Path} (h : p.IsPlain) :
    (splitChars '/' p.joined).filter (fun s => s ≠ [] ∧ s ≠ ['.']) =
      p.parts.map String.toList := by
  cases hparts : p.parts with
  | nil =>
    rw [joined, hparts]
    rfl
  | cons s parts =>
    have hplain : ∀ cs ∈ p.parts.map String.toList, cs ≠ [] ∧ cs ≠ ['.'] ∧ '/' ∉ cs := by
      intro cs hcs
      obtain ⟨t, ht, rfl⟩ := List.mem_map.mp hcs
      exact h.part t ht
    have hne : p.parts.map String.toList ≠ [] := by simp [hparts]
    rw [joined, splitChars_intercalate hne fun cs hcs => (hplain cs hcs).2.2, ← hparts]
    refine List.filter_eq_self.mpr fun cs hcs => ?_
    simpa using ⟨(hplain cs hcs).1, (hplain cs hcs).2.1⟩

/-- A path is read from its printed form. -/
theorem ofString_shown {p : Path} (h : p.IsPlain) : ofString p.shown = p := by
  by_cases hdot : p.anchor = 0 ∧ p.parts = []
  · obtain ⟨anchor, parts⟩ := p
    obtain ⟨rfl, rfl⟩ := hdot
    rfl
  · have hshown := toList_shown (p := p) (Decidable.not_and_iff_not_or_not.mp hdot)
    have hempty : (List.replicate p.anchor ([] : List Char)).filter
        (fun s => decide (s ≠ [] ∧ s ≠ ['.'])) = [] := by
      simp
    rw [ofString, hshown, anchorOf_replicate h.anchor_le h.head?_joined, splitChars_replicate,
      List.filter_append, hempty, List.nil_append, h.filter_splitChars_joined, List.map_map]
    have hsame : (String.ofList ∘ String.toList) = id := by
      funext s
      exact String.ofList_toList
    rw [hsame, List.map_id]

end TapLint.Path
