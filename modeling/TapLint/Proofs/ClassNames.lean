/-
The names of formulae, there and back.

A formula `berkeley-db@5` is defined by the class `BerkeleyDbAT5`: its words are capitalised and
run together, and `AT` stands before the version.  The name of the class takes this apart again:

* `NameParts` — the words and the version of a name;
* `NameParts.className`, `NameParts.formulaName` — the two ways to write them;
* `lastSegment_append` — a prefix that ends in double colons is dropped;
* `markVersion_className` — the version is found, and no `AT` is taken for one that is none;
* `splitWords_words_append` — there is a hyphen between two words and nowhere else.

The main statement is `nameOfClass_className_and_stable`.
-/
import Mathlib
import TapLint.Formula.ClassName

namespace TapLint

namespace Text

/-- The small form of an ASCII text is found letter by letter. -/
theorem lowerFrom_of_ascii {before cs : List Char} (h : ∀ c ∈ cs, c.toNat < 0x80) :
    lowerFrom before cs = cs.map Char.toLower := by
  induction cs generalizing before with
  | nil => rfl
  | cons c cs ih =>
    obtain ⟨hc, hcs⟩ := List.forall_mem_cons.mp h
    rw [lowerFrom, lowerAt, if_pos hc, ih hcs, List.map_cons, List.singleton_append]

theorem isDigit_of_isDigit {c : Char} (h : c.isDigit) : isDigit c := by
  have hrange : 48 ≤ c.toNat ∧ c.toNat ≤ 57 := Char.isDigit_iff_toNat.mp h
  have hzero : 48 ≤ c.toNat ∧ c.toNat < 48 + 10 := by omega
  rw [isDigit, digitValue?, zeros, List.find?_cons_of_pos (by simpa using hzero)]
  rfl

end Text

namespace Formula

open lastSegment (hasSeparator)

/-! ### The last segment of a name -/

theorem hasSeparator_cons (c : Char) (cs : List Char) :
    hasSeparator (c :: cs) = (c == ':' && cs.head? == some ':' || hasSeparator cs) := by
  by_cases h : c = ':' ∧ cs.head? = some ':'
  · obtain ⟨rfl, ds, rfl⟩ : c = ':' ∧ ∃ ds, cs = ':' :: ds :=
      ⟨h.1, List.head?_eq_some_iff.mp h.2⟩
    rfl
  · have hfalse : (c == ':' && cs.head? == some ':') = false := by
      rw [Bool.eq_false_iff, ne_eq, Bool.and_eq_true, beq_iff_eq, beq_iff_eq]
      exact h
    rw [hfalse, Bool.false_or, hasSeparator]
    rintro ds rfl rfl
    exact h ⟨rfl, rfl⟩

theorem hasSeparator_append (p cs : List Char) : hasSeparator (p ++ ':' :: ':' :: cs) = true := by
  induction p with
  | nil => rfl
  | cons c p ih => rw [List.cons_append, hasSeparator_cons, ih, Bool.or_true]

theorem hasSeparator_of_not_mem {cs : List Char} (h : ':' ∉ cs) : hasSeparator cs = false := by
  induction cs with
  | nil => rfl
  | cons c cs ih =>
    rw [List.mem_cons, not_or] at h
    rw [hasSeparator_cons, ih h.2, beq_eq_false_iff_ne.mpr (Ne.symm h.1)]
    rfl

/-- A name without a `::` is its last segment. -/
theorem lastSegment_of_hasSeparator_eq_false {cs : List Char} (h : hasSeparator cs = false) :
    lastSegment cs = cs := by
  cases cs with
  | nil => rw [lastSegment]
  | cons c cs =>
    rw [hasSeparator_cons, Bool.or_eq_false_iff] at h
    rw [lastSegment, h.2]
    · rfl
    · rintro ds rfl rfl
      simp at h

theorem hasSeparator_lastSegment (cs : List Char) : hasSeparator (lastSegment cs) = false := by
  fun_induction lastSegment cs with
  | case1 => rfl
  | case2 cs ih => exact ih
  | case3 c cs hne hcs ih => exact ih
  | case4 c cs hne hcs =>
    rw [hasSeparator_cons, Bool.eq_false_iff.mpr hcs, Bool.or_false, Bool.eq_false_iff, ne_eq,
      Bool.and_eq_true, beq_iff_eq, beq_iff_eq]
    rintro ⟨rfl, hhead⟩
    obtain ⟨ds, rfl⟩ := List.head?_eq_some_iff.mp hhead
    exact hne ds rfl rfl

theorem lastSegment_subset (cs : List Char) : lastSegment cs ⊆ cs := by
  fun_induction lastSegment cs with
  | case1 => exact List.Subset.refl _
  | case2 cs ih => exact fun d hd => List.mem_cons_of_mem _ (List.mem_cons_of_mem _ (ih hd))
  | case3 c cs _ _ ih => exact fun d hd => List.mem_cons_of_mem _ (ih hd)
  | case4 c cs _ _ => exact List.Subset.refl _

/-- A prefix that qualifies a name: whatever it is, the colons at its end come in pairs, as in
`A::B::` and in `::`.  A colon that is left over belongs to the name: in `A:::B` it is `:B` that
is qualified. -/
def Qualifies (q : List Char) : Prop :=
  ∃ p n, p.getLast? ≠ some ':' ∧ q = p ++ (List.replicate (n + 1) [':', ':']).flatten

theorem lastSegment_pairs (n : Nat) {name : List Char} (hname : ':' ∉ name) :
    lastSegment ((List.replicate n [':', ':']).flatten ++ name) = name := by
  induction n with
  | zero => exact lastSegment_of_hasSeparator_eq_false (hasSeparator_of_not_mem hname)
  | succ n ih =>
    rw [List.replicate_succ, List.flatten_cons, List.append_assoc]
    exact ih

/-- What stands in front of a double colon does not matter, as long as it ends in no colon. -/
theorem lastSegment_append_colons (rest : List Char) :
    ∀ p : List Char, p.getLast? ≠ some ':' →
      lastSegment (p ++ ':' :: ':' :: rest) = lastSegment rest
  | [], _ => by rw [List.nil_append, lastSegment]
  | c :: p, hlast => by
    by_cases hcolons : c = ':' ∧ p.head? = some ':'
    · -- two colons are read at once
      obtain ⟨rfl, ds, rfl⟩ : c = ':' ∧ ∃ ds, p = ':' :: ds :=
        ⟨hcolons.1, List.head?_eq_some_iff.mp hcolons.2⟩
      have hds : ds.getLast? ≠ some ':' := by cases ds <;> simp_all
      rw [List.cons_append, List.cons_append, lastSegment]
      exact lastSegment_append_colons rest ds hds
    · have hp : p.getLast? ≠ some ':' := by cases p <;> simp_all
      have hhead : ∀ ds, c = ':' → p ++ ':' :: ':' :: rest = ':' :: ds → False := by
        rintro ds rfl hds
        cases p <;> simp_all
      rw [List.cons_append, lastSegment, hasSeparator_append, if_pos rfl]
      · exact lastSegment_append_colons rest p hp
      · exact hhead
  termination_by p => p.length

/-- What qualifies a name is dropped from it. -/
theorem lastSegment_append {q name : List Char} (hq : Qualifies q) (hname : ':' ∉ name) :
    lastSegment (q ++ name) = name := by
  obtain ⟨p, n, hp, rfl⟩ := hq
  rw [List.append_assoc, List.replicate_succ, List.flatten_cons, List.append_assoc]
  exact (lastSegment_append_colons _ p hp).trans (lastSegment_pairs n hname)

/-! ### Small letters -/

/-- A small letter or a digit. -/
def IsSmall (c : Char) : Prop := c.isLower ∨ c.isDigit

instance : DecidablePred IsSmall := fun _ => inferInstanceAs (Decidable (_ ∨ _))

theorem IsSmall.not_isUpper {c : Char} (h : IsSmall c) : ¬c.isUpper := by
  rcases h with h | h
  · exact Char.not_isUpper_of_isLower h
  · simp only [Char.isDigit, Char.isUpper, Bool.and_eq_true, decide_eq_true_eq, ge_iff_le,
      UInt32.le_iff_toNat_le, Char.reduceVal, UInt32.reduceToNat] at h ⊢
    omega

theorem IsSmall.toNat_lt {c : Char} (h : IsSmall c) : c.toNat < 0x80 := by
  rw [← Char.toNat_val]
  simp only [IsSmall, Char.isLower, Char.isDigit, Bool.and_eq_true, decide_eq_true_eq, ge_iff_le,
    UInt32.le_iff_toNat_le, Char.reduceVal, UInt32.reduceToNat] at h
  omega

theorem toNat_lt_of_isUpper {c : Char} (h : c.isUpper) : c.toNat < 0x80 := by
  rw [← Char.toNat_val]
  simp only [Char.isUpper, decide_eq_true_eq, ge_iff_le, UInt32.le_iff_toNat_le, Char.reduceVal,
    UInt32.reduceToNat] at h
  omega

theorem map_toLower_of_not_isUpper {cs : List Char} (h : ∀ c ∈ cs, ¬c.isUpper) :
    cs.map Char.toLower = cs :=
  (List.map_congr_left fun c hc => Char.toLower_eq_of_not_isUpper (h c hc)).trans (List.map_id' cs)

/-! ### Names that stay as they are -/

theorem mem_markVersion {c : Char} {cs : List Char} (h : c ∈ markVersion cs) :
    c ∈ cs ∨ c = '@' := by
  fun_induction markVersion cs <;> grind

theorem mem_splitWords {c : Char} {cs : List Char} (h : c ∈ splitWords cs) :
    c ∈ cs ∨ c = '-' := by
  fun_induction splitWords cs <;> grind

theorem head?_markVersion_eq_colon_iff {cs : List Char} :
    (markVersion cs).head? = some ':' ↔ cs.head? = some ':' := by
  fun_cases markVersion cs <;> simp

theorem head?_splitWords (cs : List Char) : (splitWords cs).head? = cs.head? := by
  fun_cases splitWords cs <;> rfl

theorem hasSeparator_markVersion (cs : List Char) :
    hasSeparator (markVersion cs) = hasSeparator cs := by
  fun_induction markVersion cs with
  | case1 d cs _ ih =>
    rw [hasSeparator_cons, ih, hasSeparator_cons 'A', hasSeparator_cons 'T']
    rfl
  | case2 d cs _ ih =>
    rw [hasSeparator_cons, ih, hasSeparator_cons 'A']
    rfl
  | case3 c cs _ ih =>
    have hhead : ((markVersion cs).head? == some ':') = (cs.head? == some ':') := by
      rw [Bool.eq_iff_iff, beq_iff_eq, beq_iff_eq, head?_markVersion_eq_colon_iff]
    rw [hasSeparator_cons, ih, hhead, ← hasSeparator_cons]
  | case4 => rfl

theorem hasSeparator_splitWords (cs : List Char) :
    hasSeparator (splitWords cs) = hasSeparator cs := by
  fun_induction splitWords cs with
  | case1 c d cs hboundary ih =>
    have hc : (c == ':') = false := by
      rw [beq_eq_false_iff_ne]
      rintro rfl
      rw [Bool.and_eq_true] at hboundary
      exact absurd hboundary.1 (by decide)
    rw [hasSeparator_cons, hasSeparator_cons, ih, hasSeparator_cons c, hc]
    rfl
  | case2 c d cs _ ih => rw [hasSeparator_cons, ih, head?_splitWords, ← hasSeparator_cons]
  | case3 cs _ => rfl

theorem toLower_eq_colon_iff {c : Char} : c.toLower = ':' ↔ c = ':' := by
  constructor
  · intro h
    have halpha : c.isAlpha = false := by rw [← Char.isLower_toLower_eq_isAlpha, h]; rfl
    have hupper : ¬c.isUpper := fun hc => by simp [Char.isAlpha, hc] at halpha
    rw [← h, Char.toLower_eq_of_not_isUpper hupper]
  · rintro rfl
    rfl

theorem hasSeparator_map_toLower (cs : List Char) :
    hasSeparator (cs.map Char.toLower) = hasSeparator cs := by
  induction cs with
  | nil => rfl
  | cons c cs ih =>
    have hc : (c.toLower == ':') = (c == ':') := by
      rw [Bool.eq_iff_iff, beq_iff_eq, beq_iff_eq, toLower_eq_colon_iff]
    have hhead : ((cs.map Char.toLower).head? == some ':') = (cs.head? == some ':') := by
      cases cs with
      | nil => rfl
      | cons d cs =>
        rw [Bool.eq_iff_iff, beq_iff_eq, beq_iff_eq, List.map_cons, List.head?_cons,
          List.head?_cons, Option.some_inj, Option.some_inj, toLower_eq_colon_iff]
    rw [List.map_cons, hasSeparator_cons, ih, hc, hhead, ← hasSeparator_cons]

theorem markVersion_of_not_isUpper {cs : List Char} (h : ∀ c ∈ cs, ¬c.isUpper) :
    markVersion cs = cs := by
  fun_induction markVersion cs with
  | case1 d cs _ ih => exact absurd rfl (h 'A' List.mem_cons_self)
  | case2 d cs _ ih => exact absurd rfl (h 'A' List.mem_cons_self)
  | case3 c cs _ ih => rw [ih fun d hd => h d (List.mem_cons_of_mem c hd)]
  | case4 => rfl

/-- Without a capital behind the first character there is nothing to split. -/
theorem splitWords_of_not_isUpper {c : Char} {cs : List Char} (h : ∀ d ∈ cs, ¬d.isUpper) :
    splitWords (c :: cs) = c :: cs := by
  induction cs generalizing c with
  | nil => rw [splitWords]; simp
  | cons d cs ih =>
    obtain ⟨hd, hcs⟩ := List.forall_mem_cons.mp h
    rw [splitWords, Bool.eq_false_iff.mpr hd, Bool.and_false, if_neg Bool.false_ne_true, ih hcs]

theorem toNat_lt_of_mem_splitWords {cs : List Char} (h : ∀ c ∈ cs, c.toNat < 0x80) :
    ∀ c ∈ splitWords (markVersion cs), c.toNat < 0x80 := by
  intro c hc
  rcases mem_splitWords hc with hc | rfl
  · rcases mem_markVersion hc with hc | rfl
    · exact h c hc
    · decide
  · decide

/-- Only the last segment of a class's name has to be put in small letters. -/
theorem toList_nameOfClass {s : String} (h : ∀ c ∈ lastSegment s.toList, c.toNat < 0x80) :
    (nameOfClass s).toList =
      (splitWords (markVersion (lastSegment s.toList))).map Char.toLower := by
  rw [nameOfClass, Text.toLower, String.toList_ofList, String.toList_ofList,
    Text.lowerFrom_of_ascii (toNat_lt_of_mem_splitWords h)]

theorem toNat_lt_of_mem_lastSegment {cs : List Char} (h : ∀ c ∈ cs, c.toNat < 0x80) :
    ∀ c ∈ lastSegment cs, c.toNat < 0x80 :=
  fun c hc => h c (lastSegment_subset cs hc)

theorem toNat_toLower_lt {c : Char} (h : c.toNat < 0x80) : c.toLower.toNat < 0x80 := by
  by_cases hc : c.isUpper
  · have hlower : c.toLower.isLower := by
      rw [Char.isLower_toLower_eq_isAlpha, Char.isAlpha, hc, Bool.true_or]
    exact IsSmall.toNat_lt (.inl hlower)
  · rwa [Char.toLower_eq_of_not_isUpper hc]

/-- The name of an ASCII class is ASCII without capitals. -/
theorem small_nameOfClass {s : String} (h : ∀ c ∈ s.toList, c.toNat < 0x80) :
    ∀ c ∈ (nameOfClass s).toList, c.toNat < 0x80 ∧ ¬c.isUpper := by
  have hsegment := toNat_lt_of_mem_lastSegment h
  rw [toList_nameOfClass hsegment]
  intro c hc
  obtain ⟨d, hd, rfl⟩ := List.mem_map.mp hc
  have hlt : d.toNat < 0x80 := toNat_lt_of_mem_splitWords hsegment d hd
  exact ⟨toNat_toLower_lt hlt, Bool.eq_false_iff.mp (Char.isUpper_toLower_eq_false d)⟩

theorem hasSeparator_nameOfClass {s : String} (h : ∀ c ∈ s.toList, c.toNat < 0x80) :
    hasSeparator (nameOfClass s).toList = false := by
  rw [toList_nameOfClass (toNat_lt_of_mem_lastSegment h), hasSeparator_map_toLower,
    hasSeparator_splitWords, hasSeparator_markVersion, hasSeparator_lastSegment]

/-- A small text without a `::` is its own name. -/
theorem nameOfClass_of_small {s : String} (h : ∀ c ∈ s.toList, c.toNat < 0x80 ∧ ¬c.isUpper)
    (hsegment : hasSeparator s.toList = false) : nameOfClass s = s := by
  have hascii : ∀ c ∈ lastSegment s.toList, c.toNat < 0x80 :=
    toNat_lt_of_mem_lastSegment fun c hc => (h c hc).1
  have hsmall : ∀ c ∈ s.toList, ¬c.isUpper := fun c hc => (h c hc).2
  have hsplit : splitWords s.toList = s.toList := by
    cases hs : s.toList with
    | nil => rw [splitWords]; simp
    | cons c cs =>
      rw [hs] at hsmall
      exact splitWords_of_not_isUpper fun d hd => hsmall d (List.mem_cons_of_mem c hd)
  rw [← String.toList_inj, toList_nameOfClass hascii,
    lastSegment_of_hasSeparator_eq_false hsegment, markVersion_of_not_isUpper hsmall, hsplit,
    map_toLower_of_not_isUpper hsmall]

/-! ### Words -/

/-- A small letter, with small letters and digits behind it. -/
def IsWord (w : List Char) : Prop := ∃ c cs, w = c :: cs ∧ c.isLower ∧ ∀ d ∈ cs, IsSmall d

/-- A word that begins with a capital. -/
def capitalised : List Char → List Char
  | [] => []
  | c :: cs => c.toUpper :: cs

/-- The words and the version of a formula's name.  A word of one letter would run into the next
one, so only the last may be that short. -/
structure NameParts where
  words : List (List Char)
  version : Option (List Char)
  words_ne_nil : words ≠ []
  isWord : ∀ w ∈ words, IsWord w
  two_le_length : ∀ w ∈ words.dropLast, 2 ≤ w.length
  isNumber : ∀ v ∈ version, v ≠ [] ∧ ∀ c ∈ v, c.isDigit

namespace NameParts

/-- The version as the class has it. -/
def classVersion (n : NameParts) : List Char := n.version.elim [] ('A' :: 'T' :: ·)

/-- The version as the formula has it. -/
def formulaVersion (n : NameParts) : List Char := n.version.elim [] ('@' :: ·)

/-- The name of the class: the words capitalised and run together, and the version. -/
def className (n : NameParts) : List Char := n.words.flatMap capitalised ++ n.classVersion

/-- The name of the formula: the words with hyphens between them, and the version. -/
def formulaName (n : NameParts) : List Char := ['-'].intercalate n.words ++ n.formulaVersion

end NameParts

/-! ### The version -/

theorem markVersion_cons {c : Char} {cs : List Char} (h : c ≠ 'A' ∨ cs.head? ≠ some 'T') :
    markVersion (c :: cs) = c :: markVersion cs := by
  rw [markVersion]
  rintro d ds rfl rfl
  simp at h

theorem markVersion_append {w rest : List Char} (h : ∀ c ∈ w, IsSmall c) :
    markVersion (w ++ rest) = w ++ markVersion rest := by
  induction w with
  | nil => rfl
  | cons c w ih =>
    obtain ⟨hc, hw⟩ := List.forall_mem_cons.mp h
    have hne : c ≠ 'A' := by
      rintro rfl
      exact hc.not_isUpper rfl
    rw [List.cons_append, markVersion_cons (.inl hne), ih hw, List.cons_append]

/-- A capitalised word has no part in a version, if it has two characters or no `T` follows. -/
theorem markVersion_capitalised_append {w rest : List Char} (hw : IsWord w)
    (h : 2 ≤ w.length ∨ rest.head? ≠ some 'T') :
    markVersion (capitalised w ++ rest) = capitalised w ++ markVersion rest := by
  obtain ⟨c, cs, rfl, -, hcs⟩ := hw
  have hhead : (cs ++ rest).head? ≠ some 'T' := by
    cases cs with
    | nil => simpa using h
    | cons d ds =>
      rintro ⟨⟩
      exact (hcs 'T' List.mem_cons_self).not_isUpper rfl
  rw [capitalised, List.cons_append, markVersion_cons (.inr hhead), markVersion_append hcs,
    List.cons_append]

theorem markVersion_words_append {words : List (List Char)} {rest : List Char}
    (hwords : ∀ w ∈ words, IsWord w) (hlong : ∀ w ∈ words.dropLast, 2 ≤ w.length)
    (hrest : rest.head? ≠ some 'T') :
    markVersion (words.flatMap capitalised ++ rest) =
      words.flatMap capitalised ++ markVersion rest := by
  induction words with
  | nil => rfl
  | cons w words ih =>
    obtain ⟨hw, hwords⟩ := List.forall_mem_cons.mp hwords
    have htail : markVersion (words.flatMap capitalised ++ rest) =
        words.flatMap capitalised ++ markVersion rest :=
      ih hwords fun v hv => hlong v (by cases words <;> simp_all)
    have hshort : 2 ≤ w.length ∨ (words.flatMap capitalised ++ rest).head? ≠ some 'T' := by
      cases words with
      | nil => exact .inr hrest
      | cons v words => exact .inl (hlong w List.mem_cons_self)
    rw [List.flatMap_cons, List.append_assoc, markVersion_capitalised_append hw hshort, htail,
      List.append_assoc]

theorem markVersion_className (n : NameParts) :
    markVersion n.className = n.words.flatMap capitalised ++ n.formulaVersion := by
  have hrest : n.classVersion.head? ≠ some 'T' := by
    rw [NameParts.classVersion]
    cases n.version <;> simp
  have hversion : markVersion n.classVersion = n.formulaVersion := by
    rw [NameParts.classVersion, NameParts.formulaVersion]
    cases hv : n.version with
    | none => rfl
    | some v =>
      obtain ⟨hne, hdigits⟩ := n.isNumber v hv
      obtain ⟨d, ds, rfl⟩ := List.exists_cons_of_ne_nil hne
      have hd : Text.isDigit d := Text.isDigit_of_isDigit (hdigits d List.mem_cons_self)
      have hsmall : ∀ c ∈ d :: ds, IsSmall c := fun c hc => .inr (hdigits c hc)
      have hkeep : markVersion (d :: ds ++ []) = d :: ds ++ markVersion [] :=
        markVersion_append hsmall
      rw [List.append_nil] at hkeep
      rw [Option.elim_some, Option.elim_some, markVersion, if_pos hd, hkeep, markVersion,
        List.append_nil]
  rw [NameParts.className, markVersion_words_append n.isWord n.two_le_length hrest, hversion]

/-! ### The hyphens -/

theorem splitWords_cons_of_isUpper {c : Char} (cs : List Char) (hc : c.isUpper) :
    splitWords (c :: cs) = c :: splitWords cs := by
  have hsmall : ¬(c.isLower || c.isDigit) = true := by
    intro h
    rw [Bool.or_eq_true] at h
    exact IsSmall.not_isUpper h hc
  cases cs with
  | nil => rw [splitWords_of_not_isUpper (List.forall_mem_nil _), splitWords]; simp
  | cons d cs =>
    rw [splitWords, Bool.eq_false_iff.mpr hsmall, Bool.false_and, if_neg Bool.false_ne_true]

/-- Between small letters or digits and a capital there is a hyphen. -/
theorem splitWords_append {w rest : List Char} {c : Char} (hw : ∀ d ∈ w, IsSmall d)
    (hne : w ≠ []) (hc : c.isUpper) :
    splitWords (w ++ c :: rest) = w ++ '-' :: splitWords (c :: rest) := by
  induction w with
  | nil => exact absurd rfl hne
  | cons d w ih =>
    obtain ⟨hd, hw⟩ := List.forall_mem_cons.mp hw
    cases w with
    | nil =>
      have hboundary : ((d.isLower || d.isDigit) && c.isUpper) = true := by
        rw [Bool.and_eq_true, Bool.or_eq_true]
        exact ⟨hd, hc⟩
      rw [List.singleton_append, splitWords, if_pos hboundary, List.singleton_append]
    | cons e w =>
      have he : ¬((d.isLower || d.isDigit) && e.isUpper) = true := by
        rw [Bool.and_eq_true]
        exact fun h => (hw e List.mem_cons_self).not_isUpper h.2
      rw [List.cons_append, List.cons_append, splitWords, if_neg he, ← List.cons_append,
        ih hw (List.cons_ne_nil e w)]
      rfl

theorem isUpper_toUpper_of_isLower {c : Char} (h : c.isLower) : c.toUpper.isUpper := by
  rw [Char.isUpper_toUpper_eq_isAlpha, Char.isAlpha, h, Bool.or_true]

theorem map_toLower_capitalised {w : List Char} (h : IsWord w) :
    (capitalised w).map Char.toLower = w := by
  obtain ⟨c, cs, rfl, hc, hcs⟩ := h
  have hc : c.toUpper.toLower = c := by
    rw [Char.toLower_toUpper_eq_toLower,
      Char.toLower_eq_of_not_isUpper (Char.not_isUpper_of_isLower hc)]
  rw [capitalised, List.map_cons, hc, map_toLower_of_not_isUpper fun d hd => (hcs d hd).not_isUpper]

/-- Capitalised words that are run together come apart where one word ends and the next one
begins. -/
theorem splitWords_words_append {words : List (List Char)} {rest : List Char}
    (hwords : ∀ w ∈ words, IsWord w) (hlong : ∀ w ∈ words.dropLast, 2 ≤ w.length)
    (hne : words ≠ []) (hrest : ∀ c ∈ rest, ¬c.isUpper) :
    splitWords (words.flatMap capitalised ++ rest) =
      ['-'].intercalate (words.map capitalised) ++ rest := by
  induction words with
  | nil => exact absurd rfl hne
  | cons w words ih =>
    obtain ⟨hw, hnext⟩ := List.forall_mem_cons.mp hwords
    obtain ⟨c, cs, rfl, hc, hcs⟩ := hw
    cases words with
    | nil =>
      have hbehind : ∀ d ∈ cs ++ rest, ¬d.isUpper := by
        intro d hd
        rcases List.mem_append.mp hd with hd | hd
        · exact (hcs d hd).not_isUpper
        · exact hrest d hd
      rw [List.flatMap_singleton, List.map_singleton, List.intercalate_singleton]
      exact splitWords_of_not_isUpper hbehind
    | cons v words =>
      have hcs' : cs ≠ [] := by
        rintro rfl
        have hlength := hlong [c] List.mem_cons_self
        simp at hlength
      have ih := ih hnext (fun u hu => hlong u (List.mem_cons_of_mem _ hu))
        (List.cons_ne_nil v words)
      obtain ⟨d, ds, rfl, hd, -⟩ := hnext v List.mem_cons_self
      rw [List.flatMap_cons, capitalised, List.append_assoc, List.cons_append,
        splitWords_cons_of_isUpper _ (isUpper_toUpper_of_isLower hc)]
      rw [List.flatMap_cons, capitalised, List.cons_append, List.cons_append] at ih ⊢
      rw [splitWords_append hcs hcs' (isUpper_toUpper_of_isLower hd), ih, List.map_cons,
        List.map_cons, List.map_cons, List.intercalate_cons_cons]
      simp [capitalised]

theorem map_toLower_intercalate {words : List (List Char)} (h : ∀ w ∈ words, IsWord w) :
    (['-'].intercalate (words.map capitalised)).map Char.toLower = ['-'].intercalate words := by
  induction words with
  | nil => rfl
  | cons w words ih =>
    obtain ⟨hw, hwords⟩ := List.forall_mem_cons.mp h
    cases words with
    | nil => simp [map_toLower_capitalised hw]
    | cons v words =>
      have ih := ih hwords
      rw [List.map_cons] at ih
      rw [List.map_cons, List.map_cons, List.intercalate_cons_cons, List.map_append,
        List.map_append, map_toLower_capitalised hw, ih, List.intercalate_cons_cons]
      rfl

/-! ### There and back -/

namespace NameParts

theorem not_isUpper_formulaVersion (n : NameParts) : ∀ c ∈ n.formulaVersion, ¬c.isUpper := by
  rw [formulaVersion]
  intro c hc
  cases hv : n.version with
  | none => simp [hv] at hc
  | some v =>
    rw [hv, Option.elim_some] at hc
    rcases List.mem_cons.mp hc with rfl | hc
    · decide
    · exact IsSmall.not_isUpper (.inr ((n.isNumber v hv).2 c hc))

/-- The name of a class has letters and digits only. -/
theorem isUpper_or_isSmall_className (n : NameParts) :
    ∀ c ∈ n.className, c.isUpper ∨ IsSmall c := by
  intro c hc
  rcases List.mem_append.mp hc with hc | hc
  · obtain ⟨w, hw, hc⟩ := List.mem_flatMap.mp hc
    obtain ⟨d, ds, rfl, hd, hds⟩ := n.isWord w hw
    rcases List.mem_cons.mp hc with rfl | hc
    · exact .inl (isUpper_toUpper_of_isLower hd)
    · exact .inr (hds c hc)
  · rw [classVersion] at hc
    cases hv : n.version with
    | none => simp [hv] at hc
    | some v =>
      rw [hv, Option.elim_some, List.mem_cons, List.mem_cons] at hc
      rcases hc with rfl | rfl | hc
      · exact .inl rfl
      · exact .inl rfl
      · exact .inr (.inr ((n.isNumber v hv).2 c hc))

theorem colon_not_mem_className (n : NameParts) : ':' ∉ n.className := by
  intro h
  rcases n.isUpper_or_isSmall_className ':' h with h | h | h <;> exact absurd h (by decide)

theorem toNat_lt_of_mem_className (n : NameParts) : ∀ c ∈ n.className, c.toNat < 0x80 := by
  intro c hc
  rcases n.isUpper_or_isSmall_className c hc with h | h
  · exact toNat_lt_of_isUpper h
  · exact h.toNat_lt

/-- What is made of a class's name, behind its prefix. -/
theorem toLower_splitWords_className (n : NameParts) :
    (splitWords (markVersion n.className)).map Char.toLower = n.formulaName := by
  rw [markVersion_className, splitWords_words_append n.isWord n.two_le_length n.words_ne_nil
    n.not_isUpper_formulaVersion, List.map_append, map_toLower_intercalate n.isWord,
    map_toLower_of_not_isUpper n.not_isUpper_formulaVersion, formulaName]

end NameParts

/-- **The name of a formula survives the trip through the name of its class.**  Whatever
qualifies the class, its name gives back the words and the version that it was put together from.
Any ASCII name of a class becomes one in small letters, and that one is kept as it is. -/
theorem nameOfClass_className_and_stable :
    (∀ (q : List Char) (n : NameParts), q = [] ∨ Qualifies q →
      nameOfClass (String.ofList (q ++ n.className)) = String.ofList n.formulaName) ∧
    ∀ s : String, (∀ c ∈ s.toList, c.toNat < 0x80) →
      nameOfClass (nameOfClass s) = nameOfClass s ∧
        ∀ c ∈ (nameOfClass s).toList, c.toNat < 0x80 ∧ ¬c.isUpper := by
  refine ⟨fun q n hq => ?_, fun s h => ⟨?_, small_nameOfClass h⟩⟩
  · have hsegment : lastSegment (q ++ n.className) = n.className := by
      rcases hq with rfl | hq
      · exact lastSegment_of_hasSeparator_eq_false
          (hasSeparator_of_not_mem n.colon_not_mem_className)
      · exact lastSegment_append hq n.colon_not_mem_className
    have hascii : ∀ c ∈ lastSegment (String.ofList (q ++ n.className)).toList, c.toNat < 0x80 := by
      rw [String.toList_ofList, hsegment]
      exact n.toNat_lt_of_mem_className
    rw [← String.toList_inj, toList_nameOfClass hascii, String.toList_ofList, hsegment,
      n.toLower_splitWords_className, String.toList_ofList]
  · exact nameOfClass_of_small (small_nameOfClass h) (hasSeparator_nameOfClass h)

/-! ### Words that could be taken for a version -/

/-- Words that end in `a` and in `at`, a word of one letter, and a version right behind it. -/
def tangledName : NameParts where
  words := [['d', 'a', 't', 'a'], ['t', '3', 'a', 't'], ['a']]
  version := some ['1', '2']
  words_ne_nil := List.cons_ne_nil _ _
  isWord := by
    simp only [List.forall_mem_cons]
    refine ⟨⟨'d', ['a', 't', 'a'], rfl, by decide, ?_⟩, ⟨'t', ['3', 'a', 't'], rfl, by decide, ?_⟩,
      ⟨'a', [], rfl, by decide, List.forall_mem_nil _⟩, List.forall_mem_nil _⟩
    all_goals simp [IsSmall]
  two_le_length := by decide
  isNumber := by
    rintro v ⟨⟩
    simp

/-- The version is told from the words, and the name of the class from what qualifies it. -/
theorem nameOfClass_className_and_stable_tangledName :
    Qualifies "::A::".toList ∧
      String.ofList ("::A::".toList ++ tangledName.className) = "::A::DataT3atAAT12" ∧
      nameOfClass "::A::DataT3atAAT12" = "data-t3at-a@12" ∧
      nameOfClass "data-t3at-a@12" = "data-t3at-a@12" := by
  have hq : Qualifies "::A::".toList := ⟨"::A".toList, 0, by decide +kernel, by decide +kernel⟩
  have hclass : String.ofList ("::A::".toList ++ tangledName.className) = "::A::DataT3atAAT12" := by
    decide +kernel
  have hname : String.ofList tangledName.formulaName = "data-t3at-a@12" := by decide +kernel
  have hascii : "::A::DataT3atAAT12".toList.all fun c => decide (c.toNat < 0x80) := by
    decide +kernel
  have hback := nameOfClass_className_and_stable.1 "::A::".toList tangledName (.inr hq)
  have hstable := nameOfClass_className_and_stable.2 "::A::DataT3atAAT12"
    fun c hc => of_decide_eq_true (List.all_eq_true.mp hascii c hc)
  rw [hclass, hname] at hback
  rw [hback] at hstable
  exact ⟨hq, hclass, hback, hstable.1⟩

end Formula

end TapLint
