/-
Reading bytes loses none of them.

The automaton cuts any bytes into characters and ill-formed parts.  Every byte that it has read
is in a piece or in the character that has begun, and a character is complete just when the bytes
read since it began are those that it is written with:

* `Begun` — the characters that can have begun, with the bytes read of them;
* `Begun.encode` — the last byte completes the encoding of the character;
* `flatMap_bytes_pieces` — the pieces of a byte string are the byte string;
* `strict_eq_ok_iff` — so a text is read, strictly, from the bytes that it is written with and
  from no others.
-/
import TapLint.Proofs.Utf8

namespace TapLint.Utf8

/-- The bytes of a piece. -/
def Piece.bytes : Piece → List UInt8
  | .char c => String.utf8EncodeChar c
  | .bad _ bytes => bytes

/-- The bytes read of a character that has begun. -/
def State.held : State → List UInt8
  | none => []
  | some o => o.read.reverse

/-- Whether a byte continues a character. -/
def Continues (b : UInt8) : Prop := 0x80 ≤ b.toNat ∧ b.toNat ≤ 0xBF

/-- The first two bytes of a character of three bytes. -/
structure OpensThree (b₁ b₂ : UInt8) : Prop where
  low : 0xE0 ≤ b₁.toNat
  high : b₁.toNat < 0xF0
  continues : Continues b₂
  /-- It cannot be written with two bytes. -/
  long : b₁.toNat = 0xE0 → 0xA0 ≤ b₂.toNat
  /-- It is no surrogate. -/
  scalar : b₁.toNat = 0xED → b₂.toNat ≤ 0x9F

/-- The first two bytes of a character of four bytes. -/
structure OpensFour (b₁ b₂ : UInt8) : Prop where
  low : 0xF0 ≤ b₁.toNat
  high : b₁.toNat < 0xF5
  continues : Continues b₂
  /-- It cannot be written with three bytes. -/
  long : b₁.toNat = 0xF0 → 0x90 ≤ b₂.toNat
  /-- It lies within U+10FFFF. -/
  scalar : b₁.toNat = 0xF4 → b₂.toNat ≤ 0x8F

/-! ### The number of bytes of a character -/

theorem lead_cases {b : UInt8} {o : Open} (h : lead b = some o) :
    (b.toNat < 0x80 ∧ o = ⟨b.toNat, 0, 0x80, 0xBF, [b]⟩) ∨
      (0xC2 ≤ b.toNat ∧ b.toNat < 0xE0 ∧ o = ⟨b.toNat - 0xC0, 1, 0x80, 0xBF, [b]⟩) ∨
      (0xE0 ≤ b.toNat ∧ b.toNat < 0xF0 ∧
        o = ⟨b.toNat - 0xE0, 2, if b.toNat = 0xE0 then 0xA0 else 0x80,
          if b.toNat = 0xED then 0x9F else 0xBF, [b]⟩) ∨
      (0xF0 ≤ b.toNat ∧ b.toNat < 0xF5 ∧
        o = ⟨b.toNat - 0xF0, 3, if b.toNat = 0xF0 then 0x90 else 0x80,
          if b.toNat = 0xF4 then 0x8F else 0xBF, [b]⟩) := by
  by_cases h1 : b.toNat < 0x80
  · rw [lead_one h1, Option.some_inj] at h
    exact .inl ⟨h1, h.symm⟩
  by_cases h2 : b.toNat < 0xC2
  · simp only [lead, if_neg h1, if_pos h2] at h
    cases h
  by_cases h3 : b.toNat < 0xE0
  · rw [lead_two (by omega) h3, Option.some_inj] at h
    exact .inr (.inl ⟨by omega, h3, h.symm⟩)
  by_cases h4 : b.toNat < 0xF0
  · rw [lead_three (by omega) h4, Option.some_inj] at h
    exact .inr (.inr (.inl ⟨by omega, h4, h.symm⟩))
  by_cases h5 : b.toNat < 0xF5
  · rw [lead_four (by omega) h5, Option.some_inj] at h
    exact .inr (.inr (.inr ⟨by omega, h5, h.symm⟩))
  · simp only [lead, if_neg h1, if_neg h2, if_neg h3, if_neg h4, if_neg h5] at h
    cases h

/-! ### The bytes that a character is written with -/

theorem val_ofNat {v : Nat} (h : v.isValidChar) : (Char.ofNat v).val.toNat = v := by
  rw [Char.ofNat, dif_pos h]
  rfl

theorem ofNat_eq {n : Nat} {b : UInt8} (h : n = b.toNat) : UInt8.ofNat n = b := by
  rw [h, UInt8.ofNat_toNat]

variable {b₁ b₂ b₃ b₄ : UInt8} {v : Nat}

theorem encode_one (h : b₁.toNat < 0x80) :
    String.utf8EncodeChar (Char.ofNat b₁.toNat) = [b₁] := by
  have hval : (Char.ofNat b₁.toNat).val.toNat = b₁.toNat := val_ofNat (.inl (by omega))
  rw [String.utf8EncodeChar, hval, if_pos (by omega), UInt8.ofNat_toNat]

theorem encode_two (hlow : 0xC2 ≤ b₁.toNat) (hhigh : b₁.toNat < 0xE0) (h₂ : Continues b₂)
    (hv : v = (b₁.toNat - 0xC0) * 64 + (b₂.toNat - 0x80)) :
    String.utf8EncodeChar (Char.ofNat v) = [b₁, b₂] := by
  obtain ⟨hlow₂, hhigh₂⟩ := h₂
  have hval : (Char.ofNat v).val.toNat = v := val_ofNat (.inl (by omega))
  rw [String.utf8EncodeChar, hval, if_neg (by omega), if_pos (by omega)]
  rw [ofNat_eq (b := b₁) (by omega), ofNat_eq (b := b₂) (by omega)]

theorem encode_three (h : OpensThree b₁ b₂) (h₃ : Continues b₃)
    (hv : v = ((b₁.toNat - 0xE0) * 64 + (b₂.toNat - 0x80)) * 64 + (b₃.toNat - 0x80)) :
    String.utf8EncodeChar (Char.ofNat v) = [b₁, b₂, b₃] := by
  obtain ⟨hlow, hhigh, ⟨hlow₂, hhigh₂⟩, hlong, hscalar⟩ := h
  obtain ⟨hlow₃, hhigh₃⟩ := h₃
  have hvalid : v.isValidChar := by
    rw [Nat.isValidChar]
    omega
  rw [String.utf8EncodeChar, val_ofNat hvalid, if_neg (by omega), if_neg (by omega),
    if_pos (by omega)]
  rw [ofNat_eq (b := b₁) (by omega), ofNat_eq (b := b₂) (by omega), ofNat_eq (b := b₃) (by omega)]

theorem encode_four (h : OpensFour b₁ b₂) (h₃ : Continues b₃) (h₄ : Continues b₄)
    (hv : v = (((b₁.toNat - 0xF0) * 64 + (b₂.toNat - 0x80)) * 64 + (b₃.toNat - 0x80)) * 64 +
      (b₄.toNat - 0x80)) :
    String.utf8EncodeChar (Char.ofNat v) = [b₁, b₂, b₃, b₄] := by
  obtain ⟨hlow, hhigh, ⟨hlow₂, hhigh₂⟩, hlong, hscalar⟩ := h
  obtain ⟨hlow₃, hhigh₃⟩ := h₃
  obtain ⟨hlow₄, hhigh₄⟩ := h₄
  have hvalid : v.isValidChar := by
    rw [Nat.isValidChar]
    omega
  rw [String.utf8EncodeChar, val_ofNat hvalid, if_neg (by omega), if_neg (by omega),
    if_neg (by omega)]
  rw [ofNat_eq (b := b₁) (by omega), ofNat_eq (b := b₂) (by omega), ofNat_eq (b := b₃) (by omega),
    ofNat_eq (b := b₄) (by omega)]

/-! ### Characters that have begun -/

/-- What the automaton knows of a character that has begun, by the number of its bytes and of
those that have been read. -/
inductive Begun : Open → Prop where
  | two {b₁ : UInt8} : 0xC2 ≤ b₁.toNat → b₁.toNat < 0xE0 →
      Begun ⟨b₁.toNat - 0xC0, 1, 0x80, 0xBF, [b₁]⟩
  | three {b₁ : UInt8} : 0xE0 ≤ b₁.toNat → b₁.toNat < 0xF0 →
      Begun ⟨b₁.toNat - 0xE0, 2, if b₁.toNat = 0xE0 then 0xA0 else 0x80,
        if b₁.toNat = 0xED then 0x9F else 0xBF, [b₁]⟩
  | threeTwo {b₁ b₂ : UInt8} : OpensThree b₁ b₂ →
      Begun ⟨(b₁.toNat - 0xE0) * 64 + (b₂.toNat - 0x80), 1, 0x80, 0xBF, [b₂, b₁]⟩
  | four {b₁ : UInt8} : 0xF0 ≤ b₁.toNat → b₁.toNat < 0xF5 →
      Begun ⟨b₁.toNat - 0xF0, 3, if b₁.toNat = 0xF0 then 0x90 else 0x80,
        if b₁.toNat = 0xF4 then 0x8F else 0xBF, [b₁]⟩
  | fourTwo {b₁ b₂ : UInt8} : OpensFour b₁ b₂ →
      Begun ⟨(b₁.toNat - 0xF0) * 64 + (b₂.toNat - 0x80), 2, 0x80, 0xBF, [b₂, b₁]⟩
  | fourThree {b₁ b₂ b₃ : UInt8} : OpensFour b₁ b₂ → Continues b₃ →
      Begun ⟨((b₁.toNat - 0xF0) * 64 + (b₂.toNat - 0x80)) * 64 + (b₃.toNat - 0x80), 1, 0x80, 0xBF,
        [b₃, b₂, b₁]⟩

variable {o : Open} {b : UInt8}

theorem begun_of_lead (h : lead b = some o) (hmore : o.more ≠ 0) : Begun o := by
  rcases lead_cases h with ⟨-, rfl⟩ | ⟨hlow, hhigh, rfl⟩ | ⟨hlow, hhigh, rfl⟩ | ⟨hlow, hhigh, rfl⟩
  · exact absurd rfl hmore
  · exact .two hlow hhigh
  · exact .three hlow hhigh
  · exact .four hlow hhigh

/-- A further byte within the bounds that is not the last one. -/
theorem Begun.next (h : Begun o) (hlow : o.low ≤ b.toNat) (hhigh : b.toNat ≤ o.high)
    (hmore : o.more ≠ 1) :
    Begun ⟨o.bits * 64 + (b.toNat - 0x80), o.more - 1, 0x80, 0xBF, b :: o.read⟩ := by
  cases h with
  | two | threeTwo | fourThree => exact absurd rfl hmore
  | @three b₁ hlow₁ hhigh₁ =>
    simp only at hlow hhigh
    refine .threeTwo ⟨hlow₁, hhigh₁, ⟨?_, ?_⟩, ?_, ?_⟩
    all_goals split at hlow <;> split at hhigh <;> omega
  | @four b₁ hlow₁ hhigh₁ =>
    simp only at hlow hhigh
    refine .fourTwo ⟨hlow₁, hhigh₁, ⟨?_, ?_⟩, ?_, ?_⟩
    all_goals split at hlow <;> split at hhigh <;> omega
  | fourTwo h => exact .fourThree h ⟨hlow, hhigh⟩

/-- The last byte completes the encoding of the character. -/
theorem Begun.encode (h : Begun o) (hlow : o.low ≤ b.toNat) (hhigh : b.toNat ≤ o.high)
    (hmore : o.more = 1) :
    String.utf8EncodeChar (Char.ofNat (o.bits * 64 + (b.toNat - 0x80))) =
      o.read.reverse ++ [b] := by
  cases h with
  | three | four | fourTwo => cases hmore
  | two hlow₁ hhigh₁ => exact encode_two hlow₁ hhigh₁ ⟨hlow, hhigh⟩ rfl
  | threeTwo h => exact encode_three h ⟨hlow, hhigh⟩ rfl
  | fourThree h h₃ => exact encode_four h h₃ ⟨hlow, hhigh⟩ rfl

/-! ### Nothing is lost -/

/-- Whether a character that has begun, if there is one, can have begun so. -/
def State.Sound : State → Prop
  | none => True
  | some o => Begun o

theorem start_keeps (b : UInt8) :
    (start b).1.Sound ∧ (start b).2.flatMap Piece.bytes ++ State.held (start b).1 = [b] := by
  rw [start]
  cases hb : lead b with
  | none => exact ⟨trivial, rfl⟩
  | some o =>
    dsimp only
    by_cases hmore : o.more = 0
    · rw [if_pos hmore]
      refine ⟨trivial, ?_⟩
      rcases lead_cases hb with ⟨hlow, rfl⟩ | ⟨-, -, rfl⟩ | ⟨-, -, rfl⟩ | ⟨-, -, rfl⟩
      · simp [Piece.bytes, State.held, encode_one hlow]
      all_goals cases hmore
    · rw [if_neg hmore]
      refine ⟨begun_of_lead hb hmore, ?_⟩
      rcases lead_cases hb with ⟨-, rfl⟩ | ⟨-, -, rfl⟩ | ⟨-, -, rfl⟩ | ⟨-, -, rfl⟩ <;> rfl

/-- What a step puts into pieces and what it holds back are what was held and the byte. -/
theorem step_keeps {s : State} (hs : s.Sound) (b : UInt8) :
    (step s b).1.Sound ∧
      (step s b).2.flatMap Piece.bytes ++ State.held (step s b).1 = s.held ++ [b] := by
  cases s with
  | none => exact start_keeps b
  | some o =>
    rw [step]
    split
    next hbounds =>
      split
      next hlast =>
        refine ⟨trivial, ?_⟩
        simp [Piece.bytes, State.held, Begun.encode hs hbounds.1 hbounds.2 hlast]
      next hmore =>
        refine ⟨Begun.next hs hbounds.1 hbounds.2 hmore, ?_⟩
        simp [State.held]
    next =>
      -- the byte breaks the character off and is read again as a first byte
      obtain ⟨hsound, hkeeps⟩ := start_keeps b
      refine ⟨hsound, ?_⟩
      simp only [List.flatMap_cons, Piece.bytes, List.append_assoc, hkeeps]
      rfl

theorem foldl_feed_keeps (bs : List UInt8) {s : State} (hs : s.Sound) (sofar : List Piece) :
    (bs.foldl feed (s, sofar)).2.reverse.flatMap Piece.bytes ++
        State.held (bs.foldl feed (s, sofar)).1 =
      sofar.reverse.flatMap Piece.bytes ++ s.held ++ bs := by
  induction bs generalizing s sofar with
  | nil => simp
  | cons b bs ih =>
    obtain ⟨hsound, hkeeps⟩ := step_keeps hs b
    rw [List.foldl_cons, feed, ih hsound, List.reverse_append, List.reverse_reverse,
      List.flatMap_append, List.append_assoc _ _ (State.held _), hkeeps]
    simp

/-- The pieces of a byte string, put together, are the byte string. -/
theorem flatMap_bytes_pieces (bs : List UInt8) : (pieces bs).flatMap Piece.bytes = bs := by
  have hclose : ∀ s : State, (close s).flatMap Piece.bytes = s.held := by
    intro s
    cases s <;> simp [close, State.held, Piece.bytes]
  have hshort : ∀ s : State, (close s).reverse = close s := by
    intro s
    cases s <;> rfl
  have h := foldl_feed_keeps bs (s := none) trivial []
  rw [pieces]
  simpa [hclose, hshort, State.held] using h

/-! ### Strict reading -/

theorem collect_eq_ok {ps : List Piece} {position : Nat} {sofar cs : List Char}
    (h : collect position sofar ps = .ok cs) :
    ∃ ds : List Char, cs = sofar.reverse ++ ds ∧ ps = ds.map .char := by
  induction ps generalizing position sofar with
  | nil =>
    rw [collect] at h
    cases h
    exact ⟨[], by simp, rfl⟩
  | cons p ps ih =>
    cases p with
    | bad fault bytes =>
      rw [collect] at h
      cases h
    | char c =>
      rw [collect] at h
      obtain ⟨ds, rfl, rfl⟩ := ih h
      exact ⟨c :: ds, by simp, rfl⟩

/-- A text is read strictly from the bytes that it is written with, and from no others. -/
theorem strict_eq_ok_iff {bs : List UInt8} {t : String} : strict bs = .ok t ↔ bs = bytes t := by
  constructor
  · intro h
    rw [strict] at h
    cases hcollect : collect 0 [] (pieces bs) with
    | error e =>
      rw [hcollect] at h
      cases h
    | ok cs =>
      rw [hcollect] at h
      cases h
      obtain ⟨ds, rfl, hpieces⟩ := collect_eq_ok hcollect
      rw [← flatMap_bytes_pieces bs, hpieces, List.flatMap_map, bytes_eq_encode]
      simp [encode, Piece.bytes]
  · rintro rfl
    rw [bytes_eq_encode, strict_encode, String.ofList_toList]

end TapLint.Utf8
