/-
Reports lose nothing as JSON texts.

Both texts of a value are read back as the value, and both are plain ASCII:

* `mem_print` — a text has visible characters, and those that its layout adds;
* `isVisible_or_of_mem_pretty`, `isVisible_of_mem_compact` — what this comes to for the two
  layouts;
* `IsKept`, `isKept` — no value loses anything.

The main statement is `isKept_toJson`.
-/
import TapLint.Proofs.JsonTexts
import TapLint.Report.Json

namespace TapLint.Json

/-! ### The characters of a text -/

theorem isVisible_of_all {cs : List Char} (h : cs.all fun c => decide (IsVisible c)) {c : Char}
    (hc : c ∈ cs) : IsVisible c :=
  of_decide_eq_true (List.all_eq_true.mp h c hc)

theorem isVisible_hexDigit (n : Nat) : IsVisible (hexDigit n) := by
  have hall : ∀ m < 16, IsVisible (Nat.digitChar m) := by decide
  exact hall (n % 16) (Nat.mod_lt n (by omega))

theorem isVisible_of_mem_escapeUnit {n : Nat} {c : Char} (h : c ∈ escapeUnit n) : IsVisible c := by
  simp only [escapeUnit, List.mem_cons, List.not_mem_nil, or_false] at h
  rcases h with rfl | rfl | rfl | rfl | rfl | rfl
  · decide
  · decide
  all_goals exact isVisible_hexDigit _

theorem isVisible_of_unescape? {x c : Char} (h : unescape? x = some c) : IsVisible x := by
  have hletters : ['"', '\\', '/', 'n', 'r', 't', 'f', 'b'].all fun c =>
      decide (IsVisible c) := by decide
  refine isVisible_of_all hletters (Decidable.byContradiction fun hx => ?_)
  simp only [List.mem_cons, List.not_mem_nil, or_false, not_or] at hx
  simp [unescape?, hx] at h

theorem Escapes.isVisible_of_mem {c d : Char} {written : List Char} (hc : Escapes c written)
    (h : d ∈ written) : IsVisible d := by
  cases hc with
  | short x hu hx =>
    rcases List.mem_cons.mp h with rfl | h
    · decide
    · rw [List.mem_singleton.mp h]
      exact isVisible_of_unescape? hx
  | plain hquote hslash hc => rwa [List.mem_singleton.mp h]
  | unit hc => exact isVisible_of_mem_escapeUnit h
  | pair hc =>
    rcases List.mem_append.mp h with h | h <;> exact isVisible_of_mem_escapeUnit h

theorem isVisible_of_mem_printString {s : String} {c : Char} (h : c ∈ printString s) :
    IsVisible c := by
  rw [printString, List.mem_append, List.mem_cons, List.mem_flatMap, List.mem_singleton] at h
  rcases h with (rfl | ⟨d, -, h⟩) | rfl
  · decide
  · exact (escapes_escapeChar d).isVisible_of_mem h
  · decide

theorem isVisible_of_mem_toDigits {n : Nat} {c : Char} (h : c ∈ Nat.toDigits 10 n) :
    IsVisible c := by
  have hc : 0x30 ≤ c.toNat ∧ c.toNat ≤ 0x39 := by
    have hdigit := isDigit_of_mem_toDigits h
    rw [isDigit, Bool.and_eq_true, decide_eq_true_eq, decide_eq_true_eq] at hdigit
    exact hdigit
  exact ⟨by omega, by omega⟩

theorem isVisible_of_mem_printInt {n : Int} {c : Char} (h : c ∈ printInt n) : IsVisible c := by
  cases n with
  | ofNat n => exact isVisible_of_mem_toDigits h
  | negSucc n =>
    rcases List.mem_cons.mp h with rfl | h
    · decide
    · exact isVisible_of_mem_toDigits h

theorem isVisible_of_mem_printDecimal {negative : Bool} {n : Nat} {e : Int} {c : Char}
    (h : c ∈ printDecimal negative n e) : IsVisible c := by
  simp only [printDecimal, List.mem_append, List.mem_cons] at h
  rcases h with (h | h) | rfl | h
  · split at h
    · rw [List.mem_singleton.mp h]
      decide
    · cases h
  · exact isVisible_of_mem_toDigits h
  · decide
  · exact isVisible_of_mem_printInt h

/-- A character that a layout puts around or between the parts of a value. -/
inductive Layout.Adds (layout : Layout) (c : Char) : Prop
  | opening (depth : Nat) (h : c ∈ layout.opening depth)
  | between (depth : Nat) (h : c ∈ layout.between depth)
  | closing (depth : Nat) (h : c ∈ layout.closing depth)
  | colon (h : c ∈ layout.colon)

mutual

/-- A text has visible characters, and those that its layout adds. -/
theorem mem_print {layout : Layout} {depth : Nat} {c : Char} :
    (v : Json) → c ∈ print layout depth v → IsVisible c ∨ layout.Adds c
  | .null, h => by
    rw [print] at h
    exact .inl (isVisible_of_all (by decide) h)
  | .bool true, h => by
    rw [print] at h
    exact .inl (isVisible_of_all (by decide) h)
  | .bool false, h => by
    rw [print] at h
    exact .inl (isVisible_of_all (by decide) h)
  | .int n, h => by
    rw [print] at h
    exact .inl (isVisible_of_mem_printInt h)
  | .decimal negative n e, h => by
    rw [print] at h
    exact .inl (isVisible_of_mem_printDecimal h)
  | .string s, h => by
    rw [print] at h
    exact .inl (isVisible_of_mem_printString h)
  | .array [], h => by
    rw [print] at h
    exact .inl (isVisible_of_all (by decide) h)
  | .array (v :: vs), h => by
    simp only [print, List.mem_append, List.mem_cons, List.not_mem_nil, or_false] at h
    rcases h with ((((rfl | h) | h) | h) | h) | rfl
    · exact .inl (by decide)
    · exact .inr (.opening depth h)
    · exact mem_print v h
    · exact mem_printItems vs h
    · exact .inr (.closing depth h)
    · exact .inl (by decide)
  | .object [], h => by
    rw [print] at h
    exact .inl (isVisible_of_all (by decide) h)
  | .object ((k, v) :: fs), h => by
    simp only [print, List.mem_append, List.mem_cons, List.not_mem_nil, or_false] at h
    rcases h with ((((((rfl | h) | h) | h) | h) | h) | h) | rfl
    · exact .inl (by decide)
    · exact .inr (.opening depth h)
    · exact .inl (isVisible_of_mem_printString h)
    · exact .inr (.colon h)
    · exact mem_print v h
    · exact mem_printFields fs h
    · exact .inr (.closing depth h)
    · exact .inl (by decide)

theorem mem_printItems {layout : Layout} {depth : Nat} {c : Char} :
    (vs : List Json) → c ∈ printItems layout depth vs → IsVisible c ∨ layout.Adds c
  | [], h => by
    rw [printItems] at h
    cases h
  | v :: vs, h => by
    simp only [printItems, List.mem_append] at h
    rcases h with (h | h) | h
    · exact .inr (.between depth h)
    · exact mem_print v h
    · exact mem_printItems vs h

theorem mem_printFields {layout : Layout} {depth : Nat} {c : Char} :
    (fs : List (String × Json)) → c ∈ printFields layout depth fs → IsVisible c ∨ layout.Adds c
  | [], h => by
    rw [printFields] at h
    cases h
  | (k, v) :: fs, h => by
    simp only [printFields, List.mem_append] at h
    rcases h with (((h | h) | h) | h) | h
    · exact .inr (.between depth h)
    · exact .inl (isVisible_of_mem_printString h)
    · exact .inr (.colon h)
    · exact mem_print v h
    · exact mem_printFields fs h

end

/-- A text on one line has visible characters only. -/
theorem isVisible_of_mem_compact {v : Json} {c : Char} (h : c ∈ v.compact.toList) :
    IsVisible c := by
  rw [compact, String.toList_ofList] at h
  rcases mem_print v h with h | h
  · exact h
  · cases h with
    | opening depth h | closing depth h => cases h
    | between depth h | colon h =>
      rw [List.mem_singleton.mp h]
      decide

/-- A text on several lines has visible characters, and line feeds. -/
theorem isVisible_or_of_mem_pretty {v : Json} {c : Char} (h : c ∈ v.pretty.toList) :
    IsVisible c ∨ c = '\n' := by
  have hnewLine : ∀ depth, c ∈ newLine depth → IsVisible c ∨ c = '\n' := by
    intro depth hc
    rcases List.mem_cons.mp hc with hc | hc
    · exact .inr hc
    · rw [(List.mem_replicate.mp hc).2]
      decide
  rw [pretty, String.toList_ofList] at h
  rcases mem_print v h with h | h
  · exact .inl h
  · cases h with
    | opening depth h | closing depth h => exact hnewLine _ h
    | between depth h =>
      rcases List.mem_cons.mp h with rfl | h
      · decide
      · exact hnewLine _ h
    | colon h =>
      have h : c ∈ [':', ' '] := h
      exact .inl (isVisible_of_all (by decide) h)

/-- Whether a value is kept by both of its texts: each is read as the value and is plain ASCII, and
the compact one is a single line. -/
structure IsKept (v : Json) : Prop where
  parse_pretty : parse? v.pretty = some v
  parse_compact : parse? v.compact = some v
  ascii_pretty : ∀ c ∈ v.pretty.toList, c.toNat < 0x80
  ascii_compact : ∀ c ∈ v.compact.toList, c.toNat < 0x80
  line_compact : '\n' ∉ v.compact.toList

theorem isKept (v : Json) : v.IsKept where
  parse_pretty := parse?_print Layout.isBlank_pretty v
  parse_compact := parse?_print Layout.isBlank_compact v
  ascii_pretty c hc := by
    rcases isVisible_or_of_mem_pretty hc with hvisible | rfl
    · have := hvisible.2
      omega
    · decide
  ascii_compact c hc := by
    have := (isVisible_of_mem_compact hc).2
    omega
  line_compact hline := absurd (isVisible_of_mem_compact hline) (by decide)

/-- **Results and reports lose nothing as texts**, whatever texts they hold themselves. -/
theorem isKept_toJson (r : AuditResult) (report : Report) :
    r.toJson.IsKept ∧ report.toJson.IsKept :=
  ⟨isKept r.toJson, isKept report.toJson⟩

end TapLint.Json
