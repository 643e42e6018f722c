/-
Strings and numbers are read back from JSON texts.

What may follow a token matters for numbers only, which go on as long as there are digits; a
string ends where its quote says so.

* `Escapes` — the ways to write a character inside a string, from each of which it is read;
* `string?_printString` — a string is read from its text;
* `number?_printInt`, `number?_printDecimal` — a number is read from its text.
-/
import TapLint.Json.Parser

namespace TapLint.Json

/-! ### Escapes -/

/-- A printable character of ASCII. -/
def IsVisible (c : Char) : Prop := 0x20 ≤ c.toNat ∧ c.toNat ≤ 0x7E

instance (c : Char) : Decidable (IsVisible c) := inferInstanceAs (Decidable (_ ∧ _))

/-- The ways to write a character inside a string. -/
inductive Escapes (c : Char) : List Char → Prop
  | short (x : Char) (hx : x ≠ 'u') (h : unescape? x = some c) : Escapes c ['\\', x]
  | plain (hquote : c ≠ '"') (hslash : c ≠ '\\') (h : IsVisible c) : Escapes c [c]
  | unit (h : c.toNat < 0x10000) : Escapes c (escapeUnit c.toNat)
  | pair (h : 0x10000 ≤ c.toNat) : Escapes c
      (escapeUnit (0xD800 + (c.toNat - 0x10000) / 0x400) ++
        escapeUnit (0xDC00 + (c.toNat - 0x10000) % 0x400))

theorem escapes_escapeChar (c : Char) : Escapes c (escapeChar c) := by
  have hcode : ∀ d : Char, c.toNat = d.toNat → d = c := fun d h => Char.toNat_inj.mp h.symm
  unfold escapeChar
  simp only
  split
  next h => exact .short '"' (by decide) (by rw [h]; rfl)
  next hquote =>
  split
  next h => exact .short '\\' (by decide) (by rw [h]; rfl)
  next hslash =>
  split
  next h => exact .plain hquote hslash h
  split
  next h => exact .short 'n' (by decide) (congrArg some (hcode '\n' h))
  split
  next h => exact .short 'r' (by decide) (congrArg some (hcode '\r' h))
  split
  next h => exact .short 't' (by decide) (congrArg some (hcode '\t' h))
  split
  next h => exact .short 'f' (by decide) (congrArg some (hcode '\x0c' h))
  split
  next h => exact .short 'b' (by decide) (congrArg some (hcode '\x08' h))
  split
  next h => exact .unit h
  next h => exact .pair (by omega)

theorem hexValue?_digitChar : ∀ n < 16, hexValue? (Nat.digitChar n) = some n := by decide

theorem hexValue?_hexDigit (n : Nat) : hexValue? (hexDigit n) = some (n % 16) :=
  hexValue?_digitChar (n % 16) (Nat.mod_lt n (by omega))

/-- A unit is read from its four digits. -/
theorem unit?_hexDigit {n : Nat} (h : n < 65536) :
    unit? (hexDigit (n / 4096)) (hexDigit (n / 256)) (hexDigit (n / 16)) (hexDigit n) =
      some n := by
  have hsum : n / 4096 % 16 * 4096 + n / 256 % 16 * 256 + n / 16 % 16 * 16 + n % 16 = n := by
    omega
  simp only [unit?, hexValue?_hexDigit, Option.bind_eq_bind, Option.bind_some, hsum]
  rfl

theorem toNat_not_surrogate (c : Char) : c.toNat < 0xD800 ∨ 0xDFFF < c.toNat := by
  have h : c.toNat < 0xD800 ∨ 0xDFFF < c.toNat ∧ c.toNat < 0x110000 := c.valid
  omega

theorem toNat_lt (c : Char) : c.toNat < 0x110000 := by
  have h : c.toNat < 0xD800 ∨ 0xDFFF < c.toNat ∧ c.toNat < 0x110000 := c.valid
  omega

section Strings

variable (sofar cs : List Char)

/-- A unit that is no surrogate is a character. -/
theorem stringBody_escapeUnit {n : Nat} (hlow : n < 0xD800 ∨ 0xDFFF < n) (hhigh : n < 65536) :
    stringBody none sofar (escapeUnit n ++ cs) = stringBody none (Char.ofNat n :: sofar) cs := by
  have hnot : isHigh n = false ∧ isLow n = false := by
    simp only [isHigh, isLow, Bool.and_eq_false_iff, decide_eq_false_iff_not]
    omega
  simp [escapeUnit, stringBody, unit?_hexDigit hhigh, single, hnot]

/-- Two surrogates are one character. -/
theorem stringBody_escapeUnit_pair {high low : Nat} (hhigh : isHigh high) (hlow : isLow low) :
    stringBody none sofar (escapeUnit high ++ (escapeUnit low ++ cs)) =
      stringBody none (joinPair high low :: sofar) cs := by
  have hhigh' : high < 65536 := by
    simp only [isHigh, Bool.and_eq_true, decide_eq_true_eq] at hhigh
    omega
  have hlow' : low < 65536 := by
    simp only [isLow, Bool.and_eq_true, decide_eq_true_eq] at hlow
    omega
  simp [escapeUnit, stringBody, unit?_hexDigit hhigh', unit?_hexDigit hlow', hhigh, hlow]

theorem stringBody_unescape {c x : Char} (hc : c ≠ 'u') (h : unescape? c = some x) :
    stringBody none sofar ('\\' :: c :: cs) = stringBody none (x :: sofar) cs := by
  simp [stringBody, hc, h, settle]

theorem stringBody_plain {c : Char} (hquote : c ≠ '"') (hslash : c ≠ '\\') (h : 0x20 ≤ c.toNat) :
    stringBody none sofar (c :: cs) = stringBody none (c :: sofar) cs := by
  have hcontrol : ¬c.toNat < 0x20 := by omega
  simp [stringBody, hslash, hcontrol, settle]

/-- A character outside the basic plane is read from its two surrogates. -/
theorem stringBody_surrogates {c : Char} (h : 0x10000 ≤ c.toNat) :
    stringBody none sofar (escapeUnit (0xD800 + (c.toNat - 0x10000) / 0x400) ++
        (escapeUnit (0xDC00 + (c.toNat - 0x10000) % 0x400) ++ cs)) =
      stringBody none (c :: sofar) cs := by
  have hlast : c.toNat < 0x110000 := toNat_lt c
  have hhigh : isHigh (0xD800 + (c.toNat - 0x10000) / 0x400) := by
    simp only [isHigh, Bool.and_eq_true, decide_eq_true_eq]
    omega
  have hlow : isLow (0xDC00 + (c.toNat - 0x10000) % 0x400) := by
    simp only [isLow, Bool.and_eq_true, decide_eq_true_eq]
    omega
  have hcode : 0x10000 + (0xD800 + (c.toNat - 0x10000) / 0x400 - 0xD800) * 0x400 +
      (0xDC00 + (c.toNat - 0x10000) % 0x400 - 0xDC00) = c.toNat := by
    omega
  rw [stringBody_escapeUnit_pair sofar cs hhigh hlow, joinPair, hcode, Char.ofNat_toNat]

/-- A character is read from each way to write it. -/
theorem Escapes.stringBody_append {c : Char} {written : List Char} (hc : Escapes c written) :
    stringBody none sofar (written ++ cs) = stringBody none (c :: sofar) cs := by
  cases hc with
  | short x hx h => exact stringBody_unescape sofar cs hx h
  | plain hquote hslash h => exact stringBody_plain sofar cs hquote hslash h.1
  | unit h =>
    rw [stringBody_escapeUnit sofar cs (toNat_not_surrogate c) h, Char.ofNat_toNat]
  | pair h => rw [List.append_assoc, stringBody_surrogates sofar cs h]

/-- A string is read from its text. -/
theorem string?_printString (s : String) (rest : List Char) :
    string? (printString s ++ rest) = some (s.toList, rest) := by
  have hbody : ∀ xs sofar, stringBody none sofar (xs.flatMap escapeChar ++ '"' :: rest) =
      some (sofar.reverse ++ xs, rest) := by
    intro xs
    induction xs with
    | nil => intro sofar; simp [stringBody, settle]
    | cons x xs ih =>
      intro sofar
      rw [List.flatMap_cons, List.append_assoc, (escapes_escapeChar x).stringBody_append, ih]
      simp
  simp only [printString, List.cons_append, List.append_assoc, List.nil_append, string?]
  rw [hbody, List.reverse_nil, List.nil_append]

end Strings

/-! ### Digits -/

theorem isDigit_of_mem_toDigits {n : Nat} {c : Char} (h : c ∈ Nat.toDigits 10 n) :
    isDigit c = true := by
  have hc : c.isDigit = true := Nat.isDigit_of_mem_toDigits (by omega) (by omega) h
  simpa [Char.isDigit, isDigit, Char.le_def] using hc

theorem valueOf_toDigits (n : Nat) : valueOf (Nat.toDigits 10 n) = n := by
  rw [valueOf, ← Nat.ofDigitChars_eq_foldl, Nat.ofDigitChars_ten_toDigits]

/-- A number has no zero in front. -/
theorem head?_toDigits {n : Nat} (h : 0 < n) : (Nat.toDigits 10 n).head? ≠ some '0' := by
  induction n using Nat.strongRecOn with
  | ind n ih =>
    by_cases hn : n < 10
    · rw [Nat.toDigits_of_lt_base hn]
      have hdigit : ∀ m < 10, 0 < m → Nat.digitChar m ≠ '0' := by decide
      simpa using hdigit n hn h
    · have hfront := ih (n / 10) (by omega) (by omega)
      obtain ⟨d, ds, hds⟩ :=
        List.exists_cons_of_ne_nil (Nat.toDigits_ne_nil (n := n / 10) (b := 10))
      rw [hds] at hfront
      rw [Nat.toDigits_of_base_le (by omega) (by omega), hds]
      exact hfront

theorem exists_digit_toDigits (n : Nat) :
    ∃ d ds, Nat.toDigits 10 n = d :: ds ∧ isDigit d = true := by
  obtain ⟨d, ds, hds⟩ := List.exists_cons_of_ne_nil (Nat.toDigits_ne_nil (n := n) (b := 10))
  exact ⟨d, ds, hds, isDigit_of_mem_toDigits (hds ▸ List.mem_cons_self)⟩

/-- A text that does not go on with a digit. -/
def NoDigit (rest : List Char) : Prop := ∀ c ∈ rest.head?, isDigit c = false

theorem digits_append {ds rest : List Char} (hds : ∀ c ∈ ds, isDigit c = true)
    (hrest : NoDigit rest) : digits (ds ++ rest) = (ds, rest) := by
  have hstop : rest.takeWhile isDigit = [] ∧ rest.dropWhile isDigit = rest := by
    cases rest with
    | nil => exact ⟨rfl, rfl⟩
    | cons c rest =>
      have hc : isDigit c = false := hrest c rfl
      simp [hc]
  rw [digits, List.takeWhile_append_of_pos hds, List.dropWhile_append_of_pos hds, hstop.1,
    hstop.2, List.append_nil]

/-- The digits of a number are read, and nothing more. -/
theorem digits_toDigits (n : Nat) {rest : List Char} (hrest : NoDigit rest) :
    digits (Nat.toDigits 10 n ++ rest) = (Nat.toDigits 10 n, rest) :=
  digits_append (fun _ => isDigit_of_mem_toDigits) hrest

theorem whole?_toDigits (n : Nat) {rest : List Char} (hrest : NoDigit rest) :
    whole? (Nat.toDigits 10 n ++ rest) = some (Nat.toDigits 10 n, rest) := by
  rw [whole?, digits_toDigits n hrest]
  split
  next h => exact absurd (congrArg Prod.fst h) Nat.toDigits_ne_nil
  next h =>
    have h : Nat.toDigits 10 n = _ := congrArg Prod.fst h
    rcases Nat.eq_zero_or_pos n with rfl | hn
    · rw [Nat.toDigits_zero] at h
      cases h
    · exact absurd (by rw [h]; rfl) (head?_toDigits hn)
  next h => rw [h]

/-! ### Numbers -/

/-- A number without a sign begins with a digit. -/
theorem number?_toDigits (n : Nat) (rest : List Char) :
    number? (Nat.toDigits 10 n ++ rest) = unsigned? false (Nat.toDigits 10 n ++ rest) := by
  obtain ⟨d, ds, hds, hd⟩ := exists_digit_toDigits n
  have hsign : d ≠ '-' := by
    rintro rfl
    cases hd
  simp [hds, number?, hsign]

/-- A text that does not carry on a number. -/
def EndsNumber (rest : List Char) : Prop :=
  ∀ c ∈ rest.head?, isDigit c = false ∧ c ≠ '.' ∧ c ≠ 'e' ∧ c ≠ 'E'

theorem EndsNumber.noDigit {rest : List Char} (h : EndsNumber rest) : NoDigit rest :=
  fun c hc => (h c hc).1

theorem fraction?_of_ne {rest : List Char} (h : ∀ c ∈ rest.head?, c ≠ '.') :
    fraction? rest = some ([], rest) := by
  cases rest with
  | nil => rfl
  | cons c rest =>
    have hc : c ≠ '.' := h c rfl
    simp [fraction?, hc]

theorem exponent?_of_ne {rest : List Char} (h : ∀ c ∈ rest.head?, c ≠ 'e' ∧ c ≠ 'E') :
    exponent? rest = some (none, rest) := by
  cases rest with
  | nil => rfl
  | cons c rest =>
    have hc : c ≠ 'e' ∧ c ≠ 'E' := h c rfl
    simp [exponent?, hc]

theorem exponentDigits?_toDigits (negative : Bool) (n : Nat) {rest : List Char}
    (hrest : NoDigit rest) : exponentDigits? negative (Nat.toDigits 10 n ++ rest) =
      some (some (if negative then -(n : Int) else n), rest) := by
  rw [exponentDigits?, digits_toDigits n hrest]
  split
  next h => exact absurd (congrArg Prod.fst h) Nat.toDigits_ne_nil
  next h =>
    obtain ⟨rfl, rfl⟩ := Prod.mk.inj h
    simp only [valueOf_toDigits]

/-- An exponent is read from its text. -/
theorem exponent?_printInt (n : Int) {rest : List Char} (hrest : NoDigit rest) :
    exponent? ('e' :: printInt n ++ rest) = some (some n, rest) := by
  cases n with
  | ofNat n =>
    obtain ⟨d, ds, hds, hd⟩ := exists_digit_toDigits n
    have hsign : d ≠ '-' ∧ d ≠ '+' := by
      constructor <;> rintro rfl <;> cases hd
    have hread := exponentDigits?_toDigits false n hrest
    rw [hds] at hread
    rw [printInt, hds]
    simpa [exponent?, hsign] using hread
  | negSucc n =>
    have hread := exponentDigits?_toDigits true (n + 1) hrest
    simpa [exponent?, printInt, Int.negSucc_eq] using hread

/-- What is read of a number without a fraction. -/
theorem unsigned?_toDigits (negative : Bool) (n : Nat) {rest after : List Char} {e : Option Int}
    (hdigit : NoDigit rest) (hpoint : ∀ c ∈ rest.head?, c ≠ '.')
    (he : exponent? rest = some (e, after)) :
    unsigned? negative (Nat.toDigits 10 n ++ rest) =
      some (match e with
        | none => .int (if negative then -(n : Int) else n)
        | some e => .decimal negative n e, after) := by
  rw [unsigned?, whole?_toDigits n hdigit]
  simp only [Option.bind_eq_bind, Option.bind_some, fraction?_of_ne hpoint, he]
  cases e <;> simp [valueOf_toDigits]

/-- An integer is read from its text. -/
theorem number?_printInt (n : Int) {rest : List Char} (hrest : EndsNumber rest) :
    number? (printInt n ++ rest) = some (.int n, rest) := by
  have hexponent : exponent? rest = some (none, rest) :=
    exponent?_of_ne fun c hc => (hrest c hc).2.2
  have hpoint : ∀ c ∈ rest.head?, c ≠ '.' := fun c hc => (hrest c hc).2.1
  cases n with
  | ofNat n =>
    rw [printInt, number?_toDigits, unsigned?_toDigits false n hrest.noDigit hpoint hexponent]
    rfl
  | negSucc n =>
    rw [printInt, List.cons_append, number?,
      unsigned?_toDigits true (n + 1) hrest.noDigit hpoint hexponent]
    rfl

/-- A number with an exponent is read from its text. -/
theorem number?_printDecimal (negative : Bool) (n : Nat) (e : Int) {rest : List Char}
    (hrest : EndsNumber rest) : number? (printDecimal negative n e ++ rest) =
      some (.decimal negative n e, rest) := by
  have hread : ∀ negative, unsigned? negative (Nat.toDigits 10 n ++ ('e' :: printInt e ++ rest)) =
      some (.decimal negative n e, rest) := fun negative =>
    unsigned?_toDigits negative n (by simp [NoDigit, isDigit]) (by simp)
      (exponent?_printInt e hrest.noDigit)
  cases negative with
  | false =>
    rw [printDecimal, if_neg Bool.false_ne_true, List.nil_append, List.append_assoc,
      number?_toDigits, hread]
  | true =>
    rw [printDecimal, if_pos rfl, List.append_assoc, List.append_assoc, List.singleton_append,
      number?, hread]

end TapLint.Json
