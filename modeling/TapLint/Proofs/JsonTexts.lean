/-
Values are read back from JSON texts.

A printed value has white space only where its layout puts some, and reading passes over white
space, so that both layouts are read alike:

* `Layout.IsBlank` — what a layout may add to a text;
* `value?_print` — a value is read from its text, whatever follows that does not carry on a
  number;
* `items?_afterItem`, `fields?_fieldFrom` — so are the members of a container, one after the other.

The main statement is `parse?_print`.
-/
import TapLint.Proofs.JsonTokens

namespace TapLint.Json

/-! ### White space -/

/-- Nothing but white space. -/
def IsBlank (ws : List Char) : Prop := ∀ c ∈ ws, isSpace c = true

theorem skip_append {ws : List Char} (h : IsBlank ws) (cs : List Char) :
    skip (ws ++ cs) = skip cs :=
  List.dropWhile_append_of_pos h

theorem skip_cons {c : Char} (h : isSpace c = false) (cs : List Char) :
    skip (c :: cs) = c :: cs := by
  simp [skip, h]

/-- White space in front of a value is passed over. -/
theorem value?_append {ws : List Char} (h : IsBlank ws) (fuel : Nat) (cs : List Char) :
    value? fuel (ws ++ cs) = value? fuel cs := by
  cases fuel with
  | zero => rw [value?, value?]
  | succ fuel => rw [value?, value?, skip_append h]

/-- A layout that adds white space to the marks of the grammar, and nothing else. -/
structure Layout.IsBlank (layout : Layout) : Prop where
  opening : ∀ depth, Json.IsBlank (layout.opening depth)
  between : ∀ depth, ∃ ws, layout.between depth = ',' :: ws ∧ Json.IsBlank ws
  closing : ∀ depth, Json.IsBlank (layout.closing depth)
  colon : ∃ ws, layout.colon = ':' :: ws ∧ Json.IsBlank ws

theorem isBlank_nil : IsBlank [] := fun _ h => absurd h List.not_mem_nil

theorem isBlank_newLine (depth : Nat) : IsBlank (newLine depth) := by
  intro c hc
  rcases List.mem_cons.mp hc with rfl | hc
  · rfl
  · rw [(List.mem_replicate.mp hc).2]
    rfl

theorem Layout.isBlank_compact : Layout.compact.IsBlank where
  opening _ := isBlank_nil
  between _ := ⟨[], rfl, isBlank_nil⟩
  closing _ := isBlank_nil
  colon := ⟨[], rfl, isBlank_nil⟩

theorem Layout.isBlank_pretty : Layout.pretty.IsBlank where
  opening depth := isBlank_newLine (depth + 1)
  between depth := ⟨_, rfl, isBlank_newLine (depth + 1)⟩
  closing depth := isBlank_newLine depth
  colon := ⟨[' '], rfl, by simp [Json.IsBlank, isSpace]⟩

/-! ### Values -/

/-- How the text of a number begins. -/
def BeginsNumber (cs : List Char) : Prop :=
  ∃ c rest, cs = c :: rest ∧ (c = '-' ∨ isDigit c = true)

theorem beginsNumber_printInt (n : Int) : BeginsNumber (printInt n) := by
  cases n with
  | ofNat n =>
    obtain ⟨d, ds, hds, hd⟩ := exists_digit_toDigits n
    exact ⟨d, ds, hds, .inr hd⟩
  | negSucc n => exact ⟨'-', _, rfl, .inl rfl⟩

theorem beginsNumber_printDecimal (negative : Bool) (n : Nat) (e : Int) :
    BeginsNumber (printDecimal negative n e) := by
  cases negative with
  | false =>
    obtain ⟨d, ds, hds, hd⟩ := exists_digit_toDigits n
    exact ⟨d, _, by rw [printDecimal, hds]; rfl, .inr hd⟩
  | true => exact ⟨'-', _, rfl, .inl rfl⟩

/-- A number begins with none of the characters that other values begin with. -/
theorem ne_of_beginsNumber {c d : Char} (hc : c = '-' ∨ isDigit c = true)
    (hdash : d ≠ '-') (hd : isDigit d = false) : c ≠ d := by
  rintro rfl
  rcases hc with hc | hc
  · exact hdash hc
  · rw [hd] at hc
    cases hc

theorem isSpace_of_beginsNumber {c : Char} (hc : c = '-' ∨ isDigit c = true) :
    isSpace c = false := by
  have hne := fun d => ne_of_beginsNumber (d := d) hc
  simp [isSpace, hne ' ' (by decide) rfl, hne '\n' (by decide) rfl, hne '\r' (by decide) rfl,
    hne '\t' (by decide) rfl]

/-- What begins like a number is read as one. -/
theorem value?_of_beginsNumber {cs : List Char} (h : BeginsNumber cs) (fuel : Nat)
    (rest : List Char) : value? (fuel + 1) (cs ++ rest) = number? (cs ++ rest) := by
  obtain ⟨c, cs, rfl, hc⟩ := h
  have hne := fun d => ne_of_beginsNumber (d := d) hc
  rw [List.cons_append, value?, skip_cons (isSpace_of_beginsNumber hc)]
  simp [hne '"' (by decide) rfl, hne '[' (by decide) rfl, hne '\x7b' (by decide) rfl,
    hne 't' (by decide) rfl, hne 'f' (by decide) rfl, hne 'n' (by decide) rfl]

variable {layout : Layout}

/-- The text of a value begins with no white space, and closes nothing. -/
theorem exists_cons_print (layout : Layout) (depth : Nat) (v : Json) :
    ∃ c cs, print layout depth v = c :: cs ∧ isSpace c = false ∧ c ≠ ']' := by
  have hnumber : ∀ cs, BeginsNumber cs →
      ∃ c rest, cs = c :: rest ∧ isSpace c = false ∧ c ≠ ']' := by
    rintro _ ⟨c, rest, rfl, hc⟩
    exact ⟨c, rest, rfl, isSpace_of_beginsNumber hc, ne_of_beginsNumber hc (by decide) rfl⟩
  cases v with
  | null => exact ⟨_, _, by rw [print], rfl, by decide⟩
  | bool b => cases b <;> exact ⟨_, _, by rw [print], rfl, by decide⟩
  | int n =>
    rw [print]
    exact hnumber _ (beginsNumber_printInt n)
  | decimal negative n e =>
    rw [print]
    exact hnumber _ (beginsNumber_printDecimal negative n e)
  | string s => exact ⟨_, _, by rw [print]; rfl, rfl, by decide⟩
  | array vs =>
    cases vs with
    | nil => exact ⟨_, _, by rw [print], rfl, by decide⟩
    | cons v vs => exact ⟨_, _, by rw [print]; rfl, rfl, by decide⟩
  | object fs =>
    cases fs with
    | nil => exact ⟨_, _, by rw [print], rfl, by decide⟩
    | cons f fs => exact ⟨_, _, by rw [print]; rfl, rfl, by decide⟩

/-! ### What follows a value -/

theorem endsNumber_nil : EndsNumber [] := fun _ h => by cases h

theorem endsNumber_cons {c : Char} (hc : c = ',' ∨ c = ']' ∨ c = '\x7d' ∨ isSpace c = true)
    (cs : List Char) : EndsNumber (c :: cs) := by
  intro d hd
  cases hd
  have hspace : isSpace c = true ↔ c = ' ' ∨ c = '\n' ∨ c = '\r' ∨ c = '\t' := by
    simp [isSpace, or_assoc]
  rw [hspace] at hc
  rcases hc with rfl | rfl | rfl | rfl | rfl | rfl | rfl <;> decide

/-- White space, or a mark of the grammar, does not carry on a number. -/
theorem endsNumber_append {ws cs : List Char} (hws : IsBlank ws) (hcs : EndsNumber cs) :
    EndsNumber (ws ++ cs) := by
  cases ws with
  | nil => exact hcs
  | cons c ws => exact endsNumber_cons (.inr (.inr (.inr (hws c List.mem_cons_self)))) _

/-- The text of an array from behind one of its items. -/
def afterItem (layout : Layout) (depth : Nat) (vs : List Json) (rest : List Char) : List Char :=
  printItems layout depth vs ++ (layout.closing depth ++ ']' :: rest)

/-- The text of an object from behind one of its fields. -/
def afterField (layout : Layout) (depth : Nat) (fs : List (String × Json)) (rest : List Char) :
    List Char :=
  printFields layout depth fs ++ (layout.closing depth ++ '\x7d' :: rest)

theorem endsNumber_afterItem (h : layout.IsBlank) (depth : Nat) (vs : List Json)
    (rest : List Char) : EndsNumber (afterItem layout depth vs rest) := by
  cases vs with
  | nil =>
    rw [afterItem, printItems, List.nil_append]
    exact endsNumber_append (h.closing depth) (endsNumber_cons (.inr (.inl rfl)) rest)
  | cons v vs =>
    obtain ⟨ws, hws, -⟩ := h.between depth
    rw [afterItem, printItems, hws]
    exact endsNumber_cons (.inl rfl) _

theorem endsNumber_afterField (h : layout.IsBlank) (depth : Nat) (fs : List (String × Json))
    (rest : List Char) : EndsNumber (afterField layout depth fs rest) := by
  cases fs with
  | nil =>
    rw [afterField, printFields, List.nil_append]
    exact endsNumber_append (h.closing depth) (endsNumber_cons (.inr (.inr (.inl rfl))) rest)
  | cons f fs =>
    obtain ⟨ws, hws, -⟩ := h.between depth
    rw [afterField, printFields, hws]
    exact endsNumber_cons (.inl rfl) _

theorem skip_afterItem_nil (h : layout.IsBlank) (depth : Nat) (rest : List Char) :
    skip (afterItem layout depth [] rest) = ']' :: rest := by
  rw [afterItem, printItems, List.nil_append, skip_append (h.closing depth), skip_cons rfl]

theorem exists_skip_afterItem_cons (h : layout.IsBlank) (depth : Nat) (v : Json) (vs : List Json)
    (rest : List Char) : ∃ ws, IsBlank ws ∧ skip (afterItem layout depth (v :: vs) rest) =
      ',' :: (ws ++ (print layout (depth + 1) v ++ afterItem layout depth vs rest)) := by
  obtain ⟨ws, hbetween, hws⟩ := h.between depth
  refine ⟨ws, hws, ?_⟩
  rw [afterItem, printItems, hbetween, afterItem]
  simp only [List.cons_append, List.append_assoc]
  rw [skip_cons rfl]

/-- The text of an object from one of its fields on. -/
def fieldFrom (layout : Layout) (depth : Nat) (k : String) (v : Json) (after : List Char) :
    List Char :=
  printString k ++ (layout.colon ++ (print layout (depth + 1) v ++ after))

theorem skip_afterField_nil (h : layout.IsBlank) (depth : Nat) (rest : List Char) :
    skip (afterField layout depth [] rest) = '\x7d' :: rest := by
  rw [afterField, printFields, List.nil_append, skip_append (h.closing depth), skip_cons rfl]

theorem exists_skip_afterField_cons (h : layout.IsBlank) (depth : Nat) (k : String) (v : Json)
    (fs : List (String × Json)) (rest : List Char) :
    ∃ ws, IsBlank ws ∧ skip (afterField layout depth ((k, v) :: fs) rest) =
      ',' :: (ws ++ fieldFrom layout depth k v (afterField layout depth fs rest)) := by
  obtain ⟨ws, hbetween, hws⟩ := h.between depth
  refine ⟨ws, hws, ?_⟩
  rw [afterField, printFields, hbetween, fieldFrom, afterField]
  simp only [List.cons_append, List.append_assoc]
  rw [skip_cons rfl]

/-- Between two items there is a comma at least. -/
theorem length_printItems_cons (h : layout.IsBlank) (depth : Nat) (v : Json) (vs : List Json) :
    (print layout (depth + 1) v).length + (printItems layout depth vs).length <
      (printItems layout depth (v :: vs)).length := by
  obtain ⟨ws, hbetween, -⟩ := h.between depth
  rw [printItems, hbetween]
  simp only [List.length_append, List.length_cons]
  omega

/-- Between two fields there is a comma at least. -/
theorem length_printFields_cons (h : layout.IsBlank) (depth : Nat) (k : String) (v : Json)
    (fs : List (String × Json)) :
    (print layout (depth + 1) v).length + (printFields layout depth fs).length <
      (printFields layout depth ((k, v) :: fs)).length := by
  obtain ⟨ws, hbetween, -⟩ := h.between depth
  rw [printFields, hbetween]
  simp only [List.length_append, List.length_cons]
  omega

/-! ### Reading step by step -/

section Steps

variable {fuel : Nat} {cs after more rest : List Char} {v : Json} {vs : List Json}

theorem items?_last (hv : value? fuel cs = some (v, after)) (hafter : skip after = ']' :: rest) :
    items? (fuel + 1) cs = some ([v], rest) := by
  rw [items?, hv]
  simp [hafter]

theorem items?_more (hv : value? fuel cs = some (v, after)) (hafter : skip after = ',' :: more)
    (hvs : items? fuel more = some (vs, rest)) :
    items? (fuel + 1) cs = some (v :: vs, rest) := by
  rw [items?, hv]
  simp [hafter, hvs]

/-- An array with items in it, which begin where its bracket and white space end. -/
theorem value?_array {ws : List Char} (hws : IsBlank ws) (depth : Nat)
    (hvs : items? fuel (print layout depth v ++ after) = some (vs, rest)) :
    value? (fuel + 1) ('[' :: (ws ++ (print layout depth v ++ after))) =
      some (.array vs, rest) := by
  obtain ⟨c, cs, hcs, hspace, hc⟩ := exists_cons_print layout depth v
  rw [hcs, List.cons_append] at hvs
  rw [value?, skip_cons rfl, hcs]
  simp [skip_append hws, skip_cons hspace, hc, hvs]

variable {depth : Nat} {k : String} {fs : List (String × Json)}

/-- The key of a field is read from its text, and so is the colon behind it. -/
theorem exists_read_key (h : layout.IsBlank) {ws : List Char} (hws : IsBlank ws) (k : String)
    (v : Json) (after : List Char) :
    ∃ afterKey space, string? (skip (ws ++ fieldFrom layout depth k v after)) =
        some (k.toList, afterKey) ∧ IsBlank space ∧
      skip afterKey = ':' :: (space ++ (print layout (depth + 1) v ++ after)) := by
  obtain ⟨space, hcolon, hspace⟩ := h.colon
  refine ⟨layout.colon ++ (print layout (depth + 1) v ++ after), space, ?_, hspace, ?_⟩
  · rw [skip_append hws, ← string?_printString]
    rfl
  · rw [hcolon, List.cons_append, skip_cons rfl]

theorem fields?_last (h : layout.IsBlank) {ws : List Char} (hws : IsBlank ws)
    (hv : value? fuel (print layout (depth + 1) v ++ after) = some (v, after))
    (hafter : skip after = '\x7d' :: rest) :
    fields? (fuel + 1) (ws ++ fieldFrom layout depth k v after) = some ([(k, v)], rest) := by
  obtain ⟨afterKey, space, hkey, hspace, hcolon⟩ := exists_read_key h hws k v after
  rw [fields?, hkey]
  simp [hcolon, value?_append hspace, hv, hafter]

theorem fields?_more (h : layout.IsBlank) {ws : List Char} (hws : IsBlank ws)
    (hv : value? fuel (print layout (depth + 1) v ++ after) = some (v, after))
    (hafter : skip after = ',' :: more) (hfs : fields? fuel more = some (fs, rest)) :
    fields? (fuel + 1) (ws ++ fieldFrom layout depth k v after) = some ((k, v) :: fs, rest) := by
  obtain ⟨afterKey, space, hkey, hspace, hcolon⟩ := exists_read_key h hws k v after
  rw [fields?, hkey]
  simp [hcolon, value?_append hspace, hv, hafter, hfs]

/-- An object with fields in it, the first of which begins with the quote of its key. -/
theorem value?_object {ws : List Char} (hws : IsBlank ws)
    (hfs : fields? fuel (fieldFrom layout depth k v after) = some (fs, rest)) :
    value? (fuel + 1) ('\x7b' :: (ws ++ fieldFrom layout depth k v after)) =
      some (.object fs, rest) := by
  simp only [fieldFrom, printString, List.append_assoc, List.cons_append, List.nil_append] at hfs ⊢
  rw [value?, skip_cons rfl]
  simp [skip_append hws, skip_cons (c := '"') rfl, hfs]

end Steps

theorem value?_printString (s : String) (fuel : Nat) (rest : List Char) :
    value? (fuel + 1) (printString s ++ rest) = some (.string s, rest) := by
  have hs := string?_printString s rest
  simp only [printString, List.append_assoc, List.cons_append, List.nil_append, string?] at hs ⊢
  rw [value?, skip_cons rfl]
  simp [hs]

mutual

/-- A value is read from its text. -/
theorem value?_print (h : layout.IsBlank) (depth fuel : Nat) (rest : List Char) :
    (v : Json) → (print layout depth v).length < fuel → EndsNumber rest →
      value? fuel (print layout depth v ++ rest) = some (v, rest)
  | .null, hfuel, hrest => by
    obtain ⟨fuel, rfl⟩ : ∃ n, fuel = n + 1 := ⟨fuel - 1, by omega⟩
    rw [print, value?]
    rfl
  | .bool b, hfuel, hrest => by
    obtain ⟨fuel, rfl⟩ : ∃ n, fuel = n + 1 := ⟨fuel - 1, by omega⟩
    cases b <;> rw [print, value?] <;> rfl
  | .int n, hfuel, hrest => by
    obtain ⟨fuel, rfl⟩ : ∃ n, fuel = n + 1 := ⟨fuel - 1, by omega⟩
    rw [print, value?_of_beginsNumber (beginsNumber_printInt n), number?_printInt n hrest]
  | .decimal negative n e, hfuel, hrest => by
    obtain ⟨fuel, rfl⟩ : ∃ n, fuel = n + 1 := ⟨fuel - 1, by omega⟩
    rw [print, value?_of_beginsNumber (beginsNumber_printDecimal negative n e),
      number?_printDecimal negative n e hrest]
  | .string s, hfuel, hrest => by
    obtain ⟨fuel, rfl⟩ : ∃ n, fuel = n + 1 := ⟨fuel - 1, by omega⟩
    rw [print, value?_printString]
  | .array [], hfuel, hrest => by
    obtain ⟨fuel, rfl⟩ : ∃ n, fuel = n + 1 := ⟨fuel - 1, by omega⟩
    rw [print, value?]
    rfl
  | .array (v :: vs), hfuel, hrest => by
    rw [print] at hfuel ⊢
    simp only [List.length_append, List.length_cons, List.length_nil] at hfuel
    obtain ⟨fuel, rfl⟩ : ∃ n, fuel = n + 2 := ⟨fuel - 2, by omega⟩
    have hv : value? fuel (print layout (depth + 1) v ++ afterItem layout depth vs rest) =
        some (v, afterItem layout depth vs rest) :=
      value?_print h (depth + 1) fuel _ v (by omega) (endsNumber_afterItem h depth vs rest)
    have htext : '[' :: layout.opening depth ++ print layout (depth + 1) v ++
        printItems layout depth vs ++ layout.closing depth ++ [']'] ++ rest =
        '[' :: (layout.opening depth ++
          (print layout (depth + 1) v ++ afterItem layout depth vs rest)) := by
      simp [afterItem]
    rw [htext]
    exact value?_array (h.opening depth) (depth + 1)
      (items?_afterItem h depth fuel rest v _ vs hv (by omega))
  | .object [], hfuel, hrest => by
    obtain ⟨fuel, rfl⟩ : ∃ n, fuel = n + 1 := ⟨fuel - 1, by omega⟩
    rw [print, value?]
    rfl
  | .object ((k, v) :: fs), hfuel, hrest => by
    rw [print] at hfuel ⊢
    simp only [List.length_append, List.length_cons, List.length_nil] at hfuel
    obtain ⟨fuel, rfl⟩ : ∃ n, fuel = n + 2 := ⟨fuel - 2, by omega⟩
    have hv : value? fuel (print layout (depth + 1) v ++ afterField layout depth fs rest) =
        some (v, afterField layout depth fs rest) :=
      value?_print h (depth + 1) fuel _ v (by omega) (endsNumber_afterField h depth fs rest)
    have htext : '\x7b' :: layout.opening depth ++ printString k ++ layout.colon ++
        print layout (depth + 1) v ++ printFields layout depth fs ++ layout.closing depth ++
        ['\x7d'] ++ rest = '\x7b' :: (layout.opening depth ++
          fieldFrom layout depth k v (afterField layout depth fs rest)) := by
      simp [fieldFrom, afterField]
    rw [htext]
    exact value?_object (h.opening depth)
      (fields?_fieldFrom h depth fuel rest k v isBlank_nil fs hv (by omega))

/-- When an item has been read, the items that follow it are read. -/
theorem items?_afterItem (h : layout.IsBlank) (depth fuel : Nat) (rest : List Char) (v : Json)
    (cs : List Char) : (vs : List Json) →
      value? fuel cs = some (v, afterItem layout depth vs rest) →
      (printItems layout depth vs).length < fuel → items? (fuel + 1) cs = some (v :: vs, rest)
  | [], hv, _ => items?_last hv (skip_afterItem_nil h depth rest)
  | w :: vs, hv, hfuel => by
    obtain ⟨ws, hws, hskip⟩ := exists_skip_afterItem_cons h depth w vs rest
    have hfuel' := length_printItems_cons h depth w vs
    obtain ⟨fuel, rfl⟩ : ∃ n, fuel = n + 1 := ⟨fuel - 1, by omega⟩
    have hw : value? fuel (ws ++ (print layout (depth + 1) w ++ afterItem layout depth vs rest)) =
        some (w, afterItem layout depth vs rest) := by
      rw [value?_append hws]
      exact value?_print h (depth + 1) fuel _ w (by omega) (endsNumber_afterItem h depth vs rest)
    exact items?_more hv hskip (items?_afterItem h depth fuel rest w _ vs hw (by omega))

/-- When the value of a field is read, so is the field, and so are the fields that follow it. -/
theorem fields?_fieldFrom (h : layout.IsBlank) (depth fuel : Nat) (rest : List Char) (k : String)
    (v : Json) {ws : List Char} (hws : IsBlank ws) : (fs : List (String × Json)) →
      value? fuel (print layout (depth + 1) v ++ afterField layout depth fs rest) =
        some (v, afterField layout depth fs rest) →
      (printFields layout depth fs).length < fuel →
      fields? (fuel + 1) (ws ++ fieldFrom layout depth k v (afterField layout depth fs rest)) =
        some ((k, v) :: fs, rest)
  | [], hv, _ => fields?_last h hws hv (skip_afterField_nil h depth rest)
  | (l, w) :: fs, hv, hfuel => by
    obtain ⟨ws', hws', hskip⟩ := exists_skip_afterField_cons h depth l w fs rest
    have hfuel' := length_printFields_cons h depth l w fs
    obtain ⟨fuel, rfl⟩ : ∃ n, fuel = n + 1 := ⟨fuel - 1, by omega⟩
    have hw : value? fuel (print layout (depth + 1) w ++ afterField layout depth fs rest) =
        some (w, afterField layout depth fs rest) :=
      value?_print h (depth + 1) fuel _ w (by omega) (endsNumber_afterField h depth fs rest)
    exact fields?_more h hws hv hskip
      (fields?_fieldFrom h depth fuel rest l w hws' fs hw (by omega))

end

/-- **A text that holds a value alone is read as that value**, in any layout. -/
theorem parse?_print (h : layout.IsBlank) (v : Json) :
    parse? (String.ofList (print layout 0 v)) = some v := by
  have hv := value?_print h 0 ((print layout 0 v).length + 1) [] v (Nat.lt_succ_self _)
    endsNumber_nil
  rw [List.append_nil] at hv
  rw [parse?, String.toList_ofList]
  simp [hv, skip]

end TapLint.Json
