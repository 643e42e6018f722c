/-
Reading back what was written in UTF-8.

The automaton goes byte by byte and never looks ahead.  From a place between two
characters it reads the bytes of a character as that character and stands between
characters again, so that what encodes some characters is read as these and nothing is
replaced:

* `foldl_feed_utf8EncodeChar` — the bytes of one character;
* `pieces_encode` — the bytes of some characters;
* `strict_encode`, `lossy_encode` — both ways of reading agree on them;
* `exists_strict_extract` — so they do on the bytes between two places of a text that lie
  between characters.
-/
import TapLint.Text.Utf8

namespace TapLint.Utf8

/-- The bytes that some characters are written with. -/
def encode (cs : List Char) : List UInt8 := cs.flatMap String.utf8EncodeChar

/-- The bytes of a text. -/
def bytes (s : String) : List UInt8 := s.toUTF8.data.toList

theorem bytes_eq_encode (s : String) : bytes s = encode s.toList := by
  rw [bytes, String.toUTF8_eq_toByteArray, ← String.utf8Encode_toList, List.utf8Encode, encode]
  rw [List.data_toByteArray]

theorem length_bytes (s : String) : (bytes s).length = s.utf8ByteSize := by
  rw [bytes, Array.length_toList]
  rfl

/-! ### One byte -/

variable {o : Open} {b : UInt8} {sofar : List Piece}

theorem feed_ascii (hb : lead b = some o) (hmore : o.more = 0) :
    feed (none, sofar) b = (none, .char (Char.ofNat o.bits) :: sofar) := by
  simp [feed, step, start, hb, hmore]

theorem feed_first (hb : lead b = some o) (hmore : o.more ≠ 0) :
    feed (none, sofar) b = (some o, sofar) := by
  simp [feed, step, start, hb, hmore]

theorem feed_more (hlow : o.low ≤ b.toNat) (hhigh : b.toNat ≤ o.high) (hmore : o.more ≠ 1) :
    feed (some o, sofar) b =
      (some ⟨o.bits * 64 + (b.toNat - 0x80), o.more - 1, 0x80, 0xBF, b :: o.read⟩, sofar) := by
  simp [feed, step, hlow, hhigh, hmore]

theorem feed_last (hlow : o.low ≤ b.toNat) (hhigh : b.toNat ≤ o.high) (hmore : o.more = 1) :
    feed (some o, sofar) b =
      (none, .char (Char.ofNat (o.bits * 64 + (b.toNat - 0x80))) :: sofar) := by
  simp [feed, step, hlow, hhigh, hmore]

theorem lead_one (h : b.toNat < 0x80) : lead b = some ⟨b.toNat, 0, 0x80, 0xBF, [b]⟩ := by
  simp only [lead, if_pos h]

theorem lead_two (hlow : 0xC2 ≤ b.toNat) (hhigh : b.toNat < 0xE0) :
    lead b = some ⟨b.toNat - 0xC0, 1, 0x80, 0xBF, [b]⟩ := by
  simp only [lead]
  rw [if_neg (by omega), if_neg (by omega), if_pos hhigh]

theorem lead_three (hlow : 0xE0 ≤ b.toNat) (hhigh : b.toNat < 0xF0) :
    lead b = some ⟨b.toNat - 0xE0, 2, if b.toNat = 0xE0 then 0xA0 else 0x80,
      if b.toNat = 0xED then 0x9F else 0xBF, [b]⟩ := by
  simp only [lead]
  rw [if_neg (by omega), if_neg (by omega), if_neg (by omega), if_pos hhigh]

theorem lead_four (hlow : 0xF0 ≤ b.toNat) (hhigh : b.toNat < 0xF5) :
    lead b = some ⟨b.toNat - 0xF0, 3, if b.toNat = 0xF0 then 0x90 else 0x80,
      if b.toNat = 0xF4 then 0x8F else 0xBF, [b]⟩ := by
  simp only [lead]
  rw [if_neg (by omega), if_neg (by omega), if_neg (by omega), if_neg (by omega), if_pos hhigh]

/-! ### One character -/

theorem toNat_ofNat_of_lt {n : Nat} (h : n < 256) : (UInt8.ofNat n).toNat = n := by
  rw [UInt8.toNat_ofNat', Nat.mod_eq_of_lt h]

theorem toNat_continuation (n : Nat) : (UInt8.ofNat (n % 64 + 128)).toNat = n % 64 + 128 :=
  toNat_ofNat_of_lt (by omega)

variable {v : Nat}

theorem foldl_feed_one (h : v ≤ 0x7F) (sofar : List Piece) :
    [UInt8.ofNat v].foldl feed (none, sofar) = (none, .char (Char.ofNat v) :: sofar) := by
  have hb : (UInt8.ofNat v).toNat = v := toNat_ofNat_of_lt (by omega)
  rw [List.foldl_cons, List.foldl_nil, feed_ascii (lead_one (by omega)) rfl, hb]

theorem foldl_feed_two (hlow : 0x7F < v) (hhigh : v ≤ 0x7FF) (sofar : List Piece) :
    [UInt8.ofNat (v / 64 % 32 + 192), UInt8.ofNat (v % 64 + 128)].foldl feed (none, sofar) =
      (none, .char (Char.ofNat v) :: sofar) := by
  have hb₁ : (UInt8.ofNat (v / 64 % 32 + 192)).toNat = v / 64 + 192 := by
    rw [toNat_ofNat_of_lt (by omega)]; omega
  have hb₂ := toNat_continuation v
  have hbits : (v / 64 + 192 - 0xC0) * 64 + (v % 64 + 128 - 0x80) = v := by omega
  rw [List.foldl_cons, feed_first (lead_two (by omega) (by omega)) (by simp),
    List.foldl_cons, feed_last (by simp only; omega) (by simp only; omega) rfl, List.foldl_nil]
  simp only [hb₁, hb₂, hbits]

/-- The second byte has narrower bounds after E0 and ED, which characters that are not
written with fewer bytes and are no surrogates keep. -/
theorem foldl_feed_three (hlow : 0x7FF < v) (hhigh : v ≤ 0xFFFF)
    (hsurrogate : v < 0xD800 ∨ 0xDFFF < v) (sofar : List Piece) :
    [UInt8.ofNat (v / 4096 % 16 + 224), UInt8.ofNat (v / 64 % 64 + 128),
        UInt8.ofNat (v % 64 + 128)].foldl feed (none, sofar) =
      (none, .char (Char.ofNat v) :: sofar) := by
  have hb₁ : (UInt8.ofNat (v / 4096 % 16 + 224)).toNat = v / 4096 + 224 := by
    rw [toNat_ofNat_of_lt (by omega)]; omega
  have hb₂ := toNat_continuation (v / 64)
  have hb₃ := toNat_continuation v
  have hbits : ((v / 4096 + 224 - 0xE0) * 64 + (v / 64 % 64 + 128 - 0x80)) * 64 +
      (v % 64 + 128 - 0x80) = v := by omega
  rw [List.foldl_cons, feed_first (lead_three (by omega) (by omega)) (by simp), List.foldl_cons,
    feed_more (by simp only; split <;> omega) (by simp only; split <;> omega) (by simp),
    List.foldl_cons, feed_last (by simp only; omega) (by simp only; omega) rfl, List.foldl_nil]
  simp only [hb₁, hb₂, hb₃, hbits]

/-- The second byte has narrower bounds after F0 and F4, which characters that are not
written with fewer bytes and lie within U+10FFFF keep. -/
theorem foldl_feed_four (hlow : 0xFFFF < v) (hhigh : v < 0x110000) (sofar : List Piece) :
    [UInt8.ofNat (v / 262144 % 8 + 240), UInt8.ofNat (v / 4096 % 64 + 128),
        UInt8.ofNat (v / 64 % 64 + 128), UInt8.ofNat (v % 64 + 128)].foldl feed (none, sofar) =
      (none, .char (Char.ofNat v) :: sofar) := by
  have hb₁ : (UInt8.ofNat (v / 262144 % 8 + 240)).toNat = v / 262144 + 240 := by
    rw [toNat_ofNat_of_lt (by omega)]; omega
  have hb₂ := toNat_continuation (v / 4096)
  have hb₃ := toNat_continuation (v / 64)
  have hb₄ := toNat_continuation v
  have hbits : (((v / 262144 + 240 - 0xF0) * 64 + (v / 4096 % 64 + 128 - 0x80)) * 64 +
      (v / 64 % 64 + 128 - 0x80)) * 64 + (v % 64 + 128 - 0x80) = v := by omega
  rw [List.foldl_cons, feed_first (lead_four (by omega) (by omega)) (by simp), List.foldl_cons,
    feed_more (by simp only; split <;> omega) (by simp only; split <;> omega) (by simp),
    List.foldl_cons, feed_more (by simp only; omega) (by simp only; omega) (by simp),
    List.foldl_cons, feed_last (by simp only; omega) (by simp only; omega) rfl, List.foldl_nil]
  simp only [hb₁, hb₂, hb₃, hb₄, hbits]

/-- The bytes of a character are read as that character. -/
theorem foldl_feed_utf8EncodeChar (c : Char) (sofar : List Piece) :
    (String.utf8EncodeChar c).foldl feed (none, sofar) = (none, .char c :: sofar) := by
  -- there are no surrogates, and nothing beyond U+10FFFF
  have hvalid : c.val.toNat < 0xD800 ∨ 0xDFFF < c.val.toNat ∧ c.val.toNat < 0x110000 := c.valid
  have hchar : Char.ofNat c.val.toNat = c := Char.ofNat_toNat c
  generalize hv : c.val.toNat = v at hvalid hchar
  rw [String.utf8EncodeChar, hv, ← hchar]
  -- one case for each number of bytes
  by_cases h1 : v ≤ 0x7F
  · rw [if_pos h1]
    exact foldl_feed_one h1 sofar
  by_cases h2 : v ≤ 0x7FF
  · rw [if_neg h1, if_pos h2]
    exact foldl_feed_two (by omega) h2 sofar
  by_cases h3 : v ≤ 0xFFFF
  · rw [if_neg h1, if_neg h2, if_pos h3]
    exact foldl_feed_three (by omega) h3 (by omega) sofar
  · rw [if_neg h1, if_neg h2, if_neg h3]
    exact foldl_feed_four (by omega) (by omega) sofar

/-! ### Some characters -/

theorem foldl_feed_encode (cs : List Char) (sofar : List Piece) :
    (encode cs).foldl feed (none, sofar) = (none, (cs.map .char).reverse ++ sofar) := by
  induction cs generalizing sofar with
  | nil => rfl
  | cons c cs ih =>
    rw [encode, List.flatMap_cons, List.foldl_append, foldl_feed_utf8EncodeChar, ← encode, ih]
    simp

/-- What encodes some characters is cut into these, and nothing in it is ill-formed. -/
theorem pieces_encode (cs : List Char) : pieces (encode cs) = cs.map .char := by
  simp [pieces, foldl_feed_encode, close]

theorem lossy_encode (cs : List Char) : lossy (encode cs) = String.ofList cs := by
  rw [lossy, pieces_encode, List.map_map]
  simp [Function.comp_def, Piece.shown]

theorem collect_map_char (position : Nat) (sofar cs : List Char) :
    collect position sofar (cs.map .char) = .ok (sofar.reverse ++ cs) := by
  induction cs generalizing position sofar with
  | nil => simp [collect]
  | cons c cs ih => simp [collect, ih]

theorem strict_encode (cs : List Char) : strict (encode cs) = .ok (String.ofList cs) := by
  rw [strict, pieces_encode, collect_map_char]
  rfl

/-! ### Between two characters -/

/-- The bytes from one place between characters to another are those of some characters. -/
theorem exists_extract_eq_encode {s : String} {i j : Nat} (hi : String.Pos.Raw.IsValid s ⟨i⟩)
    (hj : String.Pos.Raw.IsValid s ⟨j⟩) :
    ∃ cs, (bytes s).extract i j = encode cs := by
  by_cases hle : i ≤ j
  · obtain ⟨cs, hcs⟩ := (String.Pos.Raw.isValidUTF8_extract_iff ⟨i⟩ ⟨j⟩ hle hj.le_rawEndPos).mpr
      (.inr ⟨hi, hj⟩)
    refine ⟨cs, ?_⟩
    have hbytes := congrArg (fun b => b.data.toList) hcs
    simp only [ByteArray.data_extract, Array.toList_extract, List.utf8Encode,
      List.data_toByteArray] at hbytes
    rw [bytes, String.toUTF8_eq_toByteArray, encode]
    exact hbytes
  · refine ⟨[], ?_⟩
    simp [encode, List.extract]
    omega

/-- Both ways of reading agree on them, and what is read is written with the same bytes. -/
theorem exists_strict_extract {s : String} {i j : Nat} (hi : String.Pos.Raw.IsValid s ⟨i⟩)
    (hj : String.Pos.Raw.IsValid s ⟨j⟩) :
    ∃ t, strict ((bytes s).extract i j) = .ok t ∧ lossy ((bytes s).extract i j) = t ∧
      bytes t = (bytes s).extract i j := by
  obtain ⟨cs, hcs⟩ := exists_extract_eq_encode hi hj
  rw [hcs]
  refine ⟨String.ofList cs, strict_encode cs, lossy_encode cs, ?_⟩
  rw [bytes_eq_encode, String.toList_ofList]

end TapLint.Utf8
