/-
Reading a text block by block.

A block may end inside a character.  The bytes that are read of it are the only ones that are left
over, and they are read again in front of the next block:

* `Cut` — where a text can be cut: between two characters or inside one;
* `exists_cut` — the bytes of a text can be cut nowhere else;
* `readBlocks_eq` — so what is read does not depend on where the blocks end;
* `streamed_of_strict` — bytes that hold a text give this text.
-/
import TapLint.Files.Text
import TapLint.Proofs.Decoding

namespace TapLint.Utf8

/-! ### Cuts -/

/-- What has been read of a text since its last whole character, what is still to come, and the
characters that the two of them hold. -/
inductive Cut : List UInt8 → List UInt8 → List Char → Prop where
  | between (cs : List Char) : Cut [] (encode cs) cs
  | inside {c : Char} {read more : List UInt8} (cs : List Char) :
      read ≠ [] → more ≠ [] → read ++ more = String.utf8EncodeChar c →
      Cut read (more ++ encode cs) (c :: cs)

variable {read rest : List UInt8} {cs : List Char}

theorem encode_cons (c : Char) (cs : List Char) :
    encode (c :: cs) = String.utf8EncodeChar c ++ encode cs := List.flatMap_cons

theorem Cut.append_eq (h : Cut read rest cs) : read ++ rest = encode cs := by
  cases h with
  | between => rfl
  | inside cs _ _ hchar => rw [← List.append_assoc, hchar, encode_cons]

/-- The bytes of a text are cut behind some of its characters, or inside the next one. -/
theorem exists_cut (h : read ++ rest = encode cs) :
    ∃ before after part, cs = before ++ after ∧ read = encode before ++ part ∧
      Cut part rest after := by
  induction cs generalizing read with
  | nil =>
    obtain ⟨rfl, rfl⟩ := List.append_eq_nil_iff.mp h
    exact ⟨[], [], [], rfl, rfl, .between []⟩
  | cons c cs ih =>
    rw [encode_cons] at h
    obtain ⟨more, hchar, rfl⟩ | ⟨more, rfl, hrest⟩ := List.append_eq_append_iff.mp h
    · by_cases hread : read = []
      · subst hread
        rw [List.nil_append] at h
        exact ⟨[], c :: cs, [], rfl, rfl, h ▸ encode_cons c cs ▸ .between _⟩
      · by_cases hmore : more = []
        · subst hmore
          rw [List.append_nil] at hchar
          refine ⟨[c], cs, [], rfl, ?_, .between cs⟩
          rw [encode_cons, hchar, List.append_nil]
          exact (List.append_nil read).symm
        · exact ⟨[], c :: cs, read, rfl, rfl, .inside cs hread hmore hchar.symm⟩
    · -- the whole of the first character is read
      obtain ⟨before, after, part, rfl, rfl, hcut⟩ := ih hrest.symm
      exact ⟨c :: before, after, part, rfl, by rw [encode_cons, List.append_assoc], hcut⟩

/-! ### One block -/

theorem feed_append (s : State) (ps qs : List Piece) (b : UInt8) :
    feed (s, ps ++ qs) b = ((feed (s, ps) b).1, (feed (s, ps) b).2 ++ qs) := by
  rw [feed, feed, List.append_assoc]

/-- Reading adds to the pieces so far and leaves them as they are. -/
theorem foldl_feed_append (bs : List UInt8) (s : State) (ps qs : List Piece) :
    bs.foldl feed (s, ps ++ qs) =
      ((bs.foldl feed (s, ps)).1, (bs.foldl feed (s, ps)).2 ++ qs) := by
  induction bs generalizing s ps with
  | nil => rfl
  | cons b bs ih => rw [List.foldl_cons, List.foldl_cons, feed_append, ih]

theorem pieces_encode_append (cs : List Char) (bs : List UInt8) :
    pieces (encode cs ++ bs) = cs.map .char ++ pieces bs := by
  have h := foldl_feed_append bs none [] (cs.map Piece.char).reverse
  rw [List.nil_append] at h
  rw [pieces, List.foldl_append, foldl_feed_encode, List.append_nil, h, pieces]
  simp

/-- A character that a block breaks off gives no piece but that of the end. -/
theorem pieces_of_inside {c : Char} {more : List UInt8} (hread : read ≠ []) (hmore : more ≠ [])
    (hchar : read ++ more = String.utf8EncodeChar c) :
    pieces read = [.bad .unexpectedEnd read] := by
  rcases hfold : read.foldl feed (none, []) with ⟨s, ps⟩
  have hkeeps := foldl_feed_keeps read (s := none) trivial []
  have hwhole := foldl_feed_utf8EncodeChar c []
  rw [hfold] at hkeeps
  rw [← hchar, List.foldl_append, hfold, ← List.nil_append ps, foldl_feed_append] at hwhole
  -- the pieces so far are among those of the whole character, which are the character alone
  obtain ⟨-, hps⟩ | ⟨-, hps⟩ := List.append_eq_singleton_iff.mp (Prod.mk.inj hwhole).2
  · have hlonger : String.utf8EncodeChar c ++ s.held = read := by
      simpa [hps, Piece.bytes, State.held] using hkeeps
    have hlength := congrArg List.length hlonger
    have hpositive := List.length_pos_iff.mpr hmore
    rw [← hchar, List.length_append, List.length_append] at hlength
    omega
  · have hheld : s.held = read := by simpa [hps, State.held] using hkeeps
    cases s with
    | none => exact absurd hheld.symm hread
    | some o =>
      rw [pieces, hfold, hps, ← hheld]
      rfl

/-! ### Several blocks -/

theorem collect_map_char_append_bad (position : Nat) (sofar cs : List Char) (fault : Fault)
    (bs : List UInt8) :
    ∃ n, collect position sofar (cs.map .char ++ [.bad fault bs]) = .error ⟨fault, n, bs⟩ := by
  induction cs generalizing position sofar with
  | nil => exact ⟨position, rfl⟩
  | cons c cs ih => exact ih (position + c.utf8Size) (c :: sofar)

theorem takeWhile_isChar (cs : List Char) (fault : Fault) (bs : List UInt8) :
    ((cs.map Piece.char ++ [Piece.bad fault bs]).takeWhile Piece.isChar).map Piece.shown = cs := by
  induction cs with
  | nil => rfl
  | cons c cs ih => simpa [List.takeWhile_cons, Piece.isChar, Piece.shown] using ih

theorem eq_nil_of_encode_eq_nil (h : encode cs = []) : cs = [] := by
  have hpieces := pieces_encode cs
  rw [h] at hpieces
  exact List.map_eq_nil_iff.mp hpieces.symm

/-- Wherever the blocks end, the text is read. -/
theorem readBlocks_eq {blocks : List (List UInt8)} (h : Cut read blocks.flatten cs) :
    readBlocks read blocks = (cs, none) := by
  induction blocks generalizing read cs with
  | nil =>
    generalize hrest : ([] : List (List UInt8)).flatten = rest at h
    cases h with
    | between =>
      rw [eq_nil_of_encode_eq_nil hrest.symm]
      rfl
    | inside _ _ hmore => exact absurd (List.append_eq_nil_iff.mp hrest.symm).1 hmore
  | cons block blocks ih =>
    have happend := h.append_eq
    rw [List.flatten_cons, ← List.append_assoc] at happend
    obtain ⟨before, after, part, rfl, hread, hcut⟩ := exists_cut happend
    rw [readBlocks, hread, pieces_encode_append]
    have hrest := ih hcut
    generalize blocks.flatten = tail at hcut
    cases hcut with
    | between =>
      have hnone : pieces [] = [] := rfl
      rw [hnone, List.append_nil, collect_map_char]
      simp [hrest]
    | inside after hpart hmore hchar =>
      obtain ⟨n, hn⟩ := collect_map_char_append_bad 0 [] before .unexpectedEnd part
      rw [pieces_of_inside hpart hmore hchar, hn]
      simp [hrest, takeWhile_isChar]

theorem flatten_blocks {size : Nat} (hsize : 0 < size) {bound : Nat} {bs : List UInt8}
    (hbound : bs.length ≤ bound) : (blocks size bound bs).flatten = bs := by
  induction bound generalizing bs with
  | zero =>
    rw [List.length_eq_zero_iff.mp (Nat.le_zero.mp hbound)]
    rfl
  | succ bound ih =>
    cases bs with
    | nil => rfl
    | cons b bs =>
      have hrest : ((b :: bs).drop size).length ≤ bound := by
        rw [List.length_drop]
        rw [List.length_cons] at hbound ⊢
        omega
      rw [blocks, List.flatten_cons, ih hrest, List.take_append_drop]

/-- **Reading block by block is reading as a whole**, where the bytes hold a text. -/
theorem streamed_of_strict {size : Nat} (hsize : 0 < size) {bs : List UInt8} {text : String}
    (h : strict bs = .ok text) : streamed size bs = (text, none) := by
  rw [strict_eq_ok_iff, bytes_eq_encode] at h
  subst h
  have hcut : Cut [] (blocks size ((encode text.toList).length + 1) (encode text.toList)).flatten
      text.toList := by
    rw [flatten_blocks hsize (Nat.le_succ _)]
    exact .between _
  rw [streamed, readBlocks_eq hcut]
  simp only [String.ofList_toList]

end TapLint.Utf8

namespace TapLint

/-- A file that is read as a stream gives the text that it is read as otherwise. -/
theorem Text.streamed_of_strict {bs : List UInt8} {text : String}
    (h : Utf8.strict bs = .ok text) : streamed bs = (unifyLineEnds text, none) := by
  rw [streamed, Utf8.streamed_of_strict (by decide) h]

/-- Whether a path leads to a file that holds a text. -/
def Files.HoldsText (files : Files) (path : Path) (text : String) : Prop :=
  ∃ bytes, files.entry? path = some (.file bytes) ∧ Utf8.strict bytes = .ok text

end TapLint
