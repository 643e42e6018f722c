/-
Offsets are read back from lines and columns.

A line and a column are all that is printed of a place.  Every byte that is read moves them
forward, so two places of a text are never printed alike, and the line feeds say how far a line
is from the start:

* `counted_strictMono` — a later offset has a later position;
* `throughLineFeed` — how many bytes there are up to a line feed;
* `offset_counted` — an offset is counted back from its position;
* `shownAt_inj` — a line and a column are read off what is printed of them.

The main statement is `positions_determine_offsets`.
-/
import TapLint.Proofs.Lines
import TapLint.Proofs.ReadingOrder

namespace TapLint

namespace Position

/-! ### The order of offsets -/

variable {data : List UInt8} {i j : Nat}

theorem counted_succ (h : i < data.length) :
    counted data (i + 1) = (counted data i).advance data[i] := by
  rw [← after_take, ← after_take, List.take_succ_eq_append_getElem h, after_concat]

theorem counted_strictMono (hij : i < j) (hj : j ≤ data.length) :
    counted data i < counted data j := by
  have hi : i < data.length := Nat.lt_of_lt_of_le hij hj
  calc
    counted data i < (counted data i).advance data[i] := lt_advance _ _
    _ = counted data (i + 1) := (counted_succ hi).symm
    _ ≤ counted data j := counted_mono data hij

/-! ### Counting back -/

/-- The number of bytes up to and including the `n`-th line feed; none for `n = 0`. -/
def throughLineFeed : Nat → List UInt8 → Nat
  | 0, _ => 0
  | _ + 1, [] => 0
  | n + 1, b :: bs => 1 + throughLineFeed (if b = lineFeed then n else n + 1) bs

/-- A line feed with `n` others before it is the one that is reached for `n + 1`. -/
theorem throughLineFeed_append_cons (before rest : List UInt8) :
    throughLineFeed (before.count lineFeed + 1) (before ++ lineFeed :: rest) =
      before.length + 1 := by
  induction before with
  | nil => simp [throughLineFeed]
  | cons b before ih =>
    rw [List.cons_append, throughLineFeed, List.length_cons, Nat.add_comm 1]
    by_cases hb : b = lineFeed
    · rw [if_pos hb, hb, List.count_cons_self, ih]
    · rw [if_neg hb, List.count_cons_of_ne hb, ih]

/-- The offset that has a position in a text. -/
def offset (data : List UInt8) (p : Position) : Nat :=
  throughLineFeed (p.line - 1) data + p.column - 1

theorem offset_counted (h : i ≤ data.length) : offset data (counted data i) = i := by
  induction i with
  | zero => simp [offset, counted, throughLineFeed]
  | succ i ih =>
    have hi : i < data.length := h
    have hback := ih (Nat.le_of_lt hi)
    rw [counted_succ hi, advance]
    split
    next hb =>
      -- a new line begins behind the line feed at `i`
      have hfeed := throughLineFeed_append_cons (data.take i) (data.drop (i + 1))
      rw [← hb, List.getElem_cons_drop, List.take_append_drop, hb,
        List.length_take_of_le (Nat.le_of_lt hi)] at hfeed
      have hline : (counted data i).line + 1 - 1 = (data.take i).count lineFeed + 1 :=
        Nat.add_comm 1 _
      rw [offset, hline, hfeed, Nat.add_sub_cancel]
    next =>
      -- the line stays, so the column alone has grown
      have hcolumn : 0 < (counted data i).column :=
        Nat.lt_add_right _ Nat.one_pos
      rw [offset] at hback ⊢
      dsimp only
      omega

end Position

namespace Location

/-- Where a location ends, as it is read. -/
def ends (l : Location) : Position := ⟨l.endLine, l.endColumn⟩

theorem eq_of_toList_toString_eq {m n : Nat} (h : (toString m).toList = (toString n).toList) :
    m = n := by
  rw [Nat.toString_eq_repr, Nat.toString_eq_repr, Nat.toList_repr, Nat.toList_repr] at h
  rw [← Nat.ofDigitChars_ten_toDigits (n := m), h, Nat.ofDigitChars_ten_toDigits]

/-- A line and a column are read off what is printed of them. -/
theorem shownAt_inj {path : Option String} {line column line' column' : Nat} :
    shownAt path line column = shownAt path line' column' ↔ line = line' ∧ column = column' := by
  refine ⟨fun h => ?_, fun ⟨hline, hcolumn⟩ => by rw [hline, hcolumn]⟩
  have hchars := congrArg String.toList h
  simp only [shownAt, String.toList_append, List.append_assoc] at hchars
  have hrest := List.append_cancel_left (List.append_cancel_left hchars)
  -- what is left begins with the line, and the next colon ends it
  have hcolon : ∀ n : Nat, ':' ∉ (toString n).toList := Text.not_mem_toString (by decide)
  obtain ⟨hline, -, hcolumn⟩ :=
    (List.append_cons_inj_of_notMem (hcolon _) (hcolon _)).mp hrest
  exact ⟨eq_of_toList_toString_eq hline, eq_of_toList_toString_eq hcolumn⟩

end Location

namespace Source

open Position (throughLineFeed)

/-- **Positions determine offsets.**  Of two offsets of a byte string, its end included, the later
one has the later position, a line counting more than a column.  So no two offsets are printed
alike, and an offset is the number of bytes up to and including the line feed that ends the line
before, and the columns before its own.  These are the lines and columns that the nodes of a
converted tree have where they begin and where they end. -/
theorem positions_determine_offsets (path : Option String) (data : Array UInt8) :
    let src := ofBytes path data
    (∀ i j, i < j → j ≤ data.size →
      (src.position i).line < (src.position j).line ∨
        (src.position i).line = (src.position j).line ∧
          (src.position i).column < (src.position j).column) ∧
      (∀ i j, i ≤ data.size → j ≤ data.size →
        Location.shownAt path (src.position i).line (src.position i).column =
          Location.shownAt path (src.position j).line (src.position j).column → i = j) ∧
      (∀ i, i ≤ data.size →
        i = throughLineFeed ((src.position i).line - 1) data.toList +
          (src.position i).column - 1) ∧
      ∀ t, ∀ n ∈ (Node.ofTree src t).walk,
        n.location.path = path ∧ n.location.begins = src.position n.location.start ∧
          n.location.ends = src.position n.location.stop := by
  intro src
  have hback : ∀ i, i ≤ data.size → i = Position.offset data.toList (src.position i) := by
    intro i hi
    rw [position_ofBytes path hi, Position.offset_counted (by rwa [Array.length_toList])]
  refine ⟨fun i j hij hj => ?_, fun i j hi hj hshown => ?_, hback, fun t n hn => ?_⟩
  · have hlt : Position.counted data.toList i < Position.counted data.toList j :=
      Position.counted_strictMono hij (by rwa [Array.length_toList])
    rw [← position_ofBytes path hj, ← position_ofBytes path (Nat.le_of_lt (hij.trans_le hj))] at hlt
    exact Position.lt_iff.mp hlt
  · -- what is printed gives the position, and the position gives the offset
    obtain ⟨hline, hcolumn⟩ := Location.shownAt_inj.mp hshown
    have hsame : src.position i = src.position j := by
      rw [Position.mk.injEq]
      exact ⟨hline, hcolumn⟩
    rw [hback i hi, hback j hj, hsame]
  · rw [Node.walk, Rose.walk_eq_preorder] at hn
    obtain ⟨r, -, s, -, hlocation, -⟩ := Node.exists_stretch_of_mem hn
    rw [hlocation]
    exact ⟨rfl, rfl, rfl⟩

/-- In `accentedText` the offset 8 ends the first line and 9 begins the second one; the hash ends
with the text, 7 bytes behind the 9 up to the line feed. -/
theorem positions_determine_offsets_accented :
    let data := Node.accentedText.toUTF8.data
    let src := ofBytes (some "a.rb") data
    (8 < 9 ∧ 9 ≤ data.size ∧ src.position 8 = ⟨1, 9⟩ ∧ src.position 9 = ⟨2, 1⟩) ∧
      ((src.position 8).line < (src.position 9).line ∨
        (src.position 8).line = (src.position 9).line ∧
          (src.position 8).column < (src.position 9).column) ∧
      Location.shownAt (some "a.rb") (src.position 8).line (src.position 8).column ≠
        Location.shownAt (some "a.rb") (src.position 9).line (src.position 9).column ∧
      ∃ n ∈ (Node.ofTree src Node.accented).walk, n.kind = .hash ∧
        n.location.ends = ⟨2, 8⟩ ∧ n.location.stop = 16 ∧
        16 = throughLineFeed (n.location.ends.line - 1) data.toList +
          n.location.ends.column - 1 := by
  intro data src
  have hsize : 16 ≤ data.size := by decide +kernel
  have hplaces : src.position 8 = ⟨1, 9⟩ ∧ src.position 9 = ⟨2, 1⟩ := by decide +kernel
  have hhash : ∃ n ∈ (Node.ofTree src Node.accented).walk, n.kind = .hash ∧
      n.location.ends = ⟨2, 8⟩ ∧ n.location.stop = 16 := by decide +kernel
  obtain ⟨horder, hprint, hback, hnodes⟩ := positions_determine_offsets (some "a.rb") data
  obtain ⟨n, hn, hkind, hends, hstop⟩ := hhash
  refine ⟨⟨by decide, by omega, hplaces⟩, horder 8 9 (by decide) (by omega), fun hshown => ?_,
    n, hn, hkind, hends, hstop, ?_⟩
  · exact absurd (hprint 8 9 (by omega) (by omega) hshown) (by decide)
  · rw [(hnodes Node.accented n hn).2.2, hstop]
    exact hback 16 hsize

end Source

end TapLint
