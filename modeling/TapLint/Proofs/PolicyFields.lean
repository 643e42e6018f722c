/-
What the fields of a policy say.

The map of cops gives settings to some cops; whatever it leaves out has its default.  The settings
of a cop, read by `Value.Describes`, are all that counts for its `Setting`:

* `exists_ofFields_iff` — which fields are those of a policy;
* `describes_setting_of_ofFields` — what the policy then says of each cop;
* `exists_ofFields_unreported_iff` — which fields are neither those of a policy nor complained of:
  the first entry that is at fault decides.

Turning a value into text takes levels, and may fail.
-/
import Mathlib.Algebra.Group.Nat.Defs
import Mathlib.Data.List.Forall2
import Mathlib.Tactic.MkIffOfInductiveProp
import TapLint.Policy.File
import TapLint.Proofs.Maps

namespace Except

variable {ε α β : Type} {f : α → Except ε β} {xs : List α}

theorem mapM_cons_eq (x : α) (xs : List α) :
    (x :: xs).mapM f = f x >>= fun y => xs.mapM f >>= fun ys => .ok (y :: ys) := by
  rw [List.mapM_cons]
  rfl

theorem mapM_eq_ok_iff {ys : List β} :
    xs.mapM f = .ok ys ↔ List.Forall₂ (fun x y => f x = .ok y) xs ys := by
  induction xs generalizing ys with
  | nil => simp [pure, Except.pure, eq_comm]
  | cons x xs ih =>
    simp only [mapM_cons_eq, bind_eq_ok, List.forall₂_cons_left_iff, ← ih]
    grind

theorem exists_mapM_iff : (∃ ys, xs.mapM f = .ok ys) ↔ ∀ x ∈ xs, ∃ y, f x = .ok y := by
  induction xs with
  | nil => exact ⟨fun _ => List.forall_mem_nil _, fun _ => ⟨[], rfl⟩⟩
  | cons x xs ih =>
    rw [List.forall_mem_cons, ← ih, mapM_cons_eq]
    simp only [bind_eq_ok]
    constructor
    · rintro ⟨_, y, hy, ys, hys, -⟩
      exact ⟨⟨y, hy⟩, ys, hys⟩
    · rintro ⟨⟨y, hy⟩, ys, hys⟩
      exact ⟨y :: ys, y, hy, ys, hys, rfl⟩

/-- The first that gives no value decides. -/
theorem mapM_eq_error_iff {e : ε} :
    xs.mapM f = .error e ↔ ∃ before x after, xs = before ++ x :: after ∧
      (∀ b ∈ before, ∃ y, f b = .ok y) ∧ f x = .error e := by
  induction xs with
  | nil => simp [pure, Except.pure]
  | cons x xs ih =>
    rw [mapM_cons_eq, bind_eq_error]
    constructor
    · rintro (hx | ⟨y, hy, hrest⟩)
      · exact ⟨[], x, xs, rfl, List.forall_mem_nil _, hx⟩
      · obtain hxs | ⟨ys, -, hys⟩ := bind_eq_error.mp hrest
        · obtain ⟨before, z, after, rfl, hbefore, hz⟩ := ih.mp hxs
          exact ⟨x :: before, z, after, rfl, List.forall_mem_cons.mpr ⟨⟨y, hy⟩, hbefore⟩, hz⟩
        · cases hys
    · rintro ⟨before, z, after, heq, hbefore, hz⟩
      cases before with
      | nil =>
        cases heq
        exact .inl hz
      | cons b before =>
        cases heq
        obtain ⟨⟨y, hy⟩, hbefore⟩ := List.forall_mem_cons.mp hbefore
        have hxs := ih.mpr ⟨before, z, after, rfl, hbefore, hz⟩
        exact .inr ⟨y, hy, bind_eq_error.mpr (.inl hxs)⟩

end Except

namespace TapLint

namespace Value

variable {v : Value} {fields : List (Scalar × Value)}

/-! ### Values that should be maps -/

/-- The fields of a map; what does not count as true is the empty map. -/
def fields? (v : Value) : Option (List (Scalar × Value)) :=
  match v.orEmpty with
  | map fields => some fields
  | _ => none

/-- Whether a value is a map or counts as the empty one. -/
def isMapLike (v : Value) : Bool := v.fields?.isSome

/-- The fields that a value has, if any. -/
def entries (v : Value) : List (Scalar × Value) := v.fields?.getD []

@[simp] theorem fields?_map (fields : List (Scalar × Value)) :
    (map fields).fields? = some fields := by
  cases fields <;> rfl

@[simp] theorem entries_map (fields : List (Scalar × Value)) : (map fields).entries = fields := by
  rw [entries, fields?_map, Option.getD_some]

theorem orEmpty_of_isMapLike (h : v.isMapLike) : v.orEmpty = .map v.entries := by
  rw [isMapLike, fields?] at h
  rw [entries, fields?]
  split at h
  next fields hfields => rw [hfields, Option.getD_some]
  · cases h

/-- What is no map and does not count as the empty one is a value of another type. -/
theorem orEmpty_of_not_isMapLike (h : ¬v.isMapLike) :
    v.orEmpty = v ∧ ∀ fields, v ≠ .map fields := by
  have hmap : ∀ fields, v ≠ .map fields := by
    rintro fields rfl
    exact h (by rw [isMapLike, fields?_map]; rfl)
  refine ⟨?_, hmap⟩
  rw [orEmpty]
  split
  · rfl
  next hfalse =>
    refine absurd ?_ h
    rw [isMapLike, fields?, orEmpty, if_neg hfalse]
    rfl

end Value

/-- An integer can be shown unless it has too many digits. -/
theorem Scalar.shown_int_eq_error_iff {n : Int} {why : ShowError} :
    (int n).shown = .error why ↔ why = .digits ∧ 10 ^ Text.maxDigits ≤ n.natAbs := by
  have hlength : Text.maxDigits < (Nat.toDigits 10 n.natAbs).length ↔
      10 ^ Text.maxDigits ≤ n.natAbs := by
    rw [← Nat.not_le, Nat.length_toDigits_le_iff (by decide) (by decide), Nat.not_lt]
  show shownInteger n = _ ↔ _
  rw [shownInteger, ← hlength]
  split
  next hlong => exact ⟨fun h => ⟨(Except.error.inj h).symm, hlong⟩, fun h => h.1 ▸ rfl⟩
  next hshort => exact ⟨nofun, fun h => absurd h.2 hshort⟩

namespace Value

/-! ### Settings of a cop -/

/-- The name of the severity that some settings of a cop give to its offenses, which are otherwise
against a convention. -/
def severityText (levels : Nat) (v : Value) : Except ShowError String :=
  match lookup (.string "severity") v.entries with
  | none => .ok Severity.convention.name
  | some w => (w.shown levels).map Text.toLower

/-- Some settings of a cop say whether it is enabled, which it is otherwise, and how serious its
offenses are. -/
@[mk_iff]
structure Describes (levels : Nat) (v : Value) (s : Setting) : Prop where
  enabled : s.enabled = ((lookup (.string "enabled") v.entries).map isTruthy).getD true
  severity : v.severityText levels = .ok s.severity.name

end Value

theorem Rule.isKnown_iff {name : String} : isKnown name ↔ ∃ rule ∈ all, name = rule.name := by
  rw [isKnown, named?, List.find?_isSome]
  exact exists_congr fun rule => and_congr_right fun _ => beq_iff_eq.trans eq_comm

/-- What is looked up by its name in a list of all that there is, is what has the name. -/
theorem find?_name_eq_some_iff {α : Type} {all : List α} {name : α → String}
    (hfind : ∀ a, all.find? (name · == name a) = some a) {text : String} {a : α} :
    all.find? (name · == text) = some a ↔ name a = text := by
  constructor
  · intro h
    have hname := List.find?_some h
    exact eq_of_beq hname
  · rintro rfl
    exact hfind a

theorem Severity.ofName?_eq_some_iff {text : String} {s : Severity} :
    ofName? text = some s ↔ s.name = text :=
  find?_name_eq_some_iff fun s => by cases s <;> rfl

theorem Value.describes_null (levels : Nat) : null.Describes levels {} := ⟨rfl, rfl⟩

namespace Value

variable {levels : Nat} {v : Value} {s : Setting}

/-- Settings describe one setting at most, since severities of one name are the same. -/
theorem Describes.unique {s t : Setting} (hs : v.Describes levels s) (ht : v.Describes levels t) :
    s = t := by
  have henabled : s.enabled = t.enabled := hs.enabled.trans ht.enabled.symm
  have hseverity : s.severity = t.severity := by
    have hsame : s.severity.name = t.severity.name :=
      Except.ok.inj (hs.severity.symm.trans ht.severity)
    have hname := Severity.ofName?_eq_some_iff.mpr hsame
    rw [Severity.ofName?_eq_some_iff.mpr rfl] at hname
    exact (Option.some.inj hname).symm
  cases s
  cases t
  cases henabled
  cases hseverity
  rfl

/-- Settings describe something unless they give a severity that cannot be turned into text, or
that there is not. -/
theorem exists_describes_iff :
    (∃ s, v.Describes levels s) ↔ ∀ w, lookup (.string "severity") v.entries = some w →
      ∃ text, w.shown levels = .ok text ∧ ∃ s : Severity, Text.toLower text = s.name := by
  simp only [describes_iff, severityText]
  constructor
  · rintro ⟨s, -, hseverity⟩ w hw
    rw [hw] at hseverity
    obtain ⟨text, htext, hname⟩ := Except.map_eq_ok.mp hseverity
    exact ⟨text, htext, s.severity, hname⟩
  · intro h
    cases hw : lookup (.string "severity") v.entries with
    | none => exact ⟨⟨_, .convention⟩, rfl, rfl⟩
    | some w =>
      obtain ⟨text, htext, s, hs⟩ := h w hw
      exact ⟨⟨_, s⟩, rfl, Except.map_eq_ok.mpr ⟨text, htext, hs⟩⟩

/-- Whether a value can be the settings of a cop. -/
structure IsSettings (levels : Nat) (v : Value) : Prop where
  isMapLike : v.isMapLike
  describes : ∃ s, v.Describes levels s

theorem isSettings_null : null.IsSettings levels := ⟨rfl, _, describes_null levels⟩

end Value

/-- Whether an error is one that is reported as a complaint about the policy. -/
def PolicyError.isReported : PolicyError → Bool
  | .unknownCop _ | .invalidSeverity .. => true
  | .copsNotMap _ | .settingsNotMap _ | .unshowable _ => false

namespace Policy

variable {levels : Nat} {cop : String} {key : Scalar} {v : Value} {s : Setting}

/-- The setting of a cop depends on the name of its severity. -/
theorem settingOf_eq (levels : Nat) (cop : String) (v : Value) :
    settingOf levels cop v.entries =
      (v.severityText levels).mapError .unshowable >>= fun word =>
        match Severity.ofName? word with
        | none => .error (.invalidSeverity word cop)
        | some s =>
          .ok ⟨((Value.lookup (.string "enabled") v.entries).map Value.isTruthy).getD true, s⟩ := by
  rw [settingOf, Value.severityText]
  cases Value.lookup (.string "severity") v.entries with
  | none => rfl
  | some w =>
    simp only [shownOr]
    cases w.shown levels <;> rfl

theorem settingOf_eq_ok_iff : settingOf levels cop v.entries = .ok s ↔ v.Describes levels s := by
  rw [settingOf_eq, Value.describes_iff, Except.bind_eq_ok]
  simp only [Except.mapError_eq_ok]
  constructor
  · rintro ⟨word, hword, h⟩
    split at h
    · cases h
    next found hfound =>
      cases h
      exact ⟨rfl, Severity.ofName?_eq_some_iff.mp hfound ▸ hword⟩
  · rintro ⟨henabled, hseverity⟩
    refine ⟨_, hseverity, ?_⟩
    simp only [Severity.ofName?_eq_some_iff.mpr rfl, ← henabled]

/-- The error of a setting is reported, unless the severity cannot be turned into text. -/
theorem settingOf_eq_error {why : PolicyError} (h : settingOf levels cop v.entries = .error why) :
    why.isReported ∨ ∃ e, v.severityText levels = .error e ∧ why = .unshowable e := by
  rw [settingOf_eq] at h
  cases hword : v.severityText levels with
  | error e =>
    rw [hword] at h
    cases h
    exact .inr ⟨e, rfl, rfl⟩
  | ok word =>
    rw [hword, Except.mapError_ok, Except.ok_bind] at h
    split at h <;> cases h
    exact .inl rfl

/-! ### Entries of the map of cops -/

/-- A key that names no cop is complained of if it can be turned into text, whatever stands under
it. -/
theorem entryOf_of_strange (hkey : ¬∃ rule ∈ Rule.all, key = .string rule.name)
    (levels : Nat) (v : Value) :
    entryOf levels key v =
      match key.shown with
      | .ok name => .error (.unknownCop name)
      | .error why => .error (.unshowable why) := by
  cases key with
  | string cop =>
    have hunknown : ¬Rule.isKnown cop := fun hknown => by
      obtain ⟨rule, hrule, rfl⟩ := Rule.isKnown_iff.mp hknown
      exact hkey ⟨rule, hrule, rfl⟩
    rw [entryOf, if_neg hunknown]
    rfl
  | _ => rfl

theorem entryOf_rule {rule : Rule} (hrule : rule ∈ Rule.all) (levels : Nat) (v : Value) :
    entryOf levels (.string rule.name) v =
      if v.isMapLike then (settingOf levels rule.name v.entries).map (rule.name, ·)
      else .error (.settingsNotMap v.typeName) := by
  have hknown := Rule.isKnown_iff.mpr ⟨rule, hrule, rfl⟩
  rw [entryOf, if_pos hknown]
  by_cases hmap : v.isMapLike
  · rw [if_pos hmap, Value.orEmpty_of_isMapLike hmap]
  · obtain ⟨hself, hne⟩ := Value.orEmpty_of_not_isMapLike hmap
    rw [if_neg hmap, hself]
    cases v with
    | map fields => exact absurd rfl (hne fields)
    | scalar _ | list _ | set _ | pair _ _ => rfl

/-- Whether an entry of the map of cops gives settings to a cop that there is. -/
structure IsEntry (levels : Nat) (c : Scalar × Value) : Prop where
  key : ∃ rule ∈ Rule.all, c.1 = .string rule.name
  settings : c.2.IsSettings levels

/-- An entry is read as it says. -/
theorem entryOf_eq_ok_iff {c : Scalar × Value} {entry : String × Setting} :
    entryOf levels c.1 c.2 = .ok entry ↔
      IsEntry levels c ∧ c.1 = .string entry.1 ∧ c.2.Describes levels entry.2 := by
  obtain ⟨key, v⟩ := c
  obtain ⟨name, s⟩ := entry
  by_cases hkey : ∃ rule ∈ Rule.all, key = .string rule.name
  · obtain ⟨rule, hrule, rfl⟩ := hkey
    simp only [entryOf_rule hrule]
    split
    next hmap =>
      rw [Except.map_eq_ok]
      constructor
      · rintro ⟨s, hs, heq⟩
        cases heq
        have hdescribes := settingOf_eq_ok_iff.mp hs
        exact ⟨⟨⟨rule, hrule, rfl⟩, hmap, s, hdescribes⟩, rfl, hdescribes⟩
      · rintro ⟨-, hname, hs⟩
        cases hname
        exact ⟨s, settingOf_eq_ok_iff.mpr hs, rfl⟩
    next hmap => exact ⟨nofun, fun h => absurd h.1.settings.isMapLike hmap⟩
  · simp only [entryOf_of_strange hkey]
    refine ⟨fun h => ?_, fun h => absurd h.1.key hkey⟩
    split at h <;> cases h

theorem exists_entryOf_iff {c : Scalar × Value} :
    (∃ entry, entryOf levels c.1 c.2 = .ok entry) ↔ IsEntry levels c := by
  constructor
  · rintro ⟨entry, h⟩
    exact (entryOf_eq_ok_iff.mp h).1
  · intro h
    obtain ⟨rule, -, hkey⟩ := h.key
    obtain ⟨s, hs⟩ := h.settings.describes
    exact ⟨(rule.name, s), entryOf_eq_ok_iff.mpr ⟨h, hkey, hs⟩⟩

variable {fields : List (Scalar × Value)} {p : Policy}

/-- Whether an entry of the map of cops is neither read nor complained of. -/
inductive IsUnreadable (levels : Nat) (c : Scalar × Value) : Prop where
  /-- The settings of a cop are no map. -/
  | settings : (∃ rule ∈ Rule.all, c.1 = .string rule.name) → ¬c.2.isMapLike → IsUnreadable levels c
  /-- The severity of a cop cannot be turned into text. -/
  | severity {why : ShowError} : (∃ rule ∈ Rule.all, c.1 = .string rule.name) →
      c.2.severityText levels = .error why → IsUnreadable levels c
  /-- The key names no cop and cannot be turned into text. -/
  | key {why : ShowError} : c.1.shown = .error why → IsUnreadable levels c

theorem isEntry_rule_iff {rule : Rule} (hrule : rule ∈ Rule.all) :
    IsEntry levels (.string rule.name, v) ↔ v.IsSettings levels :=
  ⟨IsEntry.settings, fun h => ⟨⟨rule, hrule, rfl⟩, h⟩⟩

theorem isUnreadable_rule_iff {rule : Rule} (hrule : rule ∈ Rule.all) :
    IsUnreadable levels (.string rule.name, v) ↔
      ¬v.isMapLike ∨ ∃ why, v.severityText levels = .error why := by
  constructor
  · intro h
    cases h with
    | settings _ hmap => exact .inl hmap
    | severity _ he => exact .inr ⟨_, he⟩
    | key he => cases he
  · rintro (hmap | ⟨why, he⟩)
    · exact .settings ⟨rule, hrule, rfl⟩ hmap
    · exact .severity ⟨rule, hrule, rfl⟩ he

theorem severityText_of_not_isMapLike {v : Value} (h : ¬v.isMapLike) (levels : Nat) :
    v.severityText levels = .ok Severity.convention.name := by
  rw [Value.isMapLike, Option.not_isSome_iff_eq_none] at h
  rw [Value.severityText, Value.entries, h]
  rfl

theorem exists_entryOf_unreported_iff {c : Scalar × Value} :
    (∃ why, entryOf levels c.1 c.2 = .error why ∧ ¬why.isReported) ↔ IsUnreadable levels c := by
  obtain ⟨key, v⟩ := c
  by_cases hkey : ∃ rule ∈ Rule.all, key = .string rule.name
  · obtain ⟨rule, hrule, rfl⟩ := hkey
    have hrules : ∃ r ∈ Rule.all, Scalar.string rule.name = .string r.name := ⟨rule, hrule, rfl⟩
    simp only [entryOf_rule hrule]
    constructor
    · rintro ⟨why, hwhy, hnot⟩
      split at hwhy
      next hmap =>
        cases hs : settingOf levels rule.name v.entries with
        | ok s =>
          rw [hs] at hwhy
          cases hwhy
        | error e =>
          rw [hs] at hwhy
          cases hwhy
          obtain hreported | ⟨e, he, -⟩ := settingOf_eq_error hs
          · exact absurd hreported hnot
          · exact .severity hrules he
      next hmap => exact .settings hrules hmap
    · intro h
      cases h with
      | settings _ hmap => exact ⟨.settingsNotMap v.typeName, if_neg hmap, nofun⟩
      | @severity why _ he =>
        -- what is no map has no severity that could fail
        have hmap : v.isMapLike := Decidable.byContradiction fun hmap => by
          cases (severityText_of_not_isMapLike hmap levels).symm.trans he
        refine ⟨.unshowable why, ?_, nofun⟩
        rw [if_pos hmap, settingOf_eq, he]
        rfl
      | key he => cases he
  · simp only [entryOf_of_strange hkey]
    cases hname : key.shown with
    | error why => exact ⟨fun _ => .key hname, fun _ => ⟨_, rfl, nofun⟩⟩
    | ok name =>
      constructor
      · rintro ⟨why, hwhy, hnot⟩
        cases hwhy
        exact absurd rfl hnot
      · rintro (⟨hrule, -⟩ | ⟨hrule, -⟩ | hwhy)
        · exact absurd hrule hkey
        · exact absurd hrule hkey
        · cases hname.symm.trans hwhy

/-! ### The map of cops -/

/-- The map of cops of a policy. -/
def copsOf (fields : List (Scalar × Value)) : Value :=
  (Value.lookup (.string "cops") fields).getD .null

/-- The settings that the fields of a policy give to a cop. -/
def settingsOf (fields : List (Scalar × Value)) (cop : String) : Value :=
  (Value.lookup (.string cop) (copsOf fields).entries).getD .null

/-- Whether the fields of a policy give it a name that can be turned into text, or none. -/
def HasName (levels : Nat) (fields : List (Scalar × Value)) : Prop :=
  ∀ w, Value.lookup (.string "policy_name") fields = some w → ∃ text, w.shown levels = .ok text

theorem exists_shownOr_iff (default : String) :
    (∃ name, shownOr default levels (Value.lookup (.string "policy_name") fields) = .ok name) ↔
      HasName levels fields := by
  rw [HasName]
  cases Value.lookup (.string "policy_name") fields with
  | none => exact ⟨fun _ => nofun, fun _ => ⟨default, rfl⟩⟩
  | some w =>
    simp only [shownOr, Except.mapError_eq_ok]
    exact ⟨fun h v hv => Option.some.inj hv ▸ h, fun h => h w rfl⟩

theorem isReported_of_shownOr {default : String} {v : Option Value} {why : PolicyError}
    (h : shownOr default levels v = .error why) : ¬why.isReported := by
  cases v with
  | none => cases h
  | some w =>
    rw [shownOr] at h
    cases hw : w.shown levels with
    | ok text =>
      rw [hw] at h
      cases h
    | error e =>
      rw [hw] at h
      cases h
      exact nofun

theorem ofFields_of_not_isMapLike (h : ¬(copsOf fields).isMapLike) :
    ofFields levels fields = .error (.copsNotMap (copsOf fields).typeName) := by
  obtain ⟨hself, hne⟩ := Value.orEmpty_of_not_isMapLike h
  rw [ofFields, ← copsOf, hself]
  cases hcops : copsOf fields with
  | map cops => exact absurd hcops (hne cops)
  | scalar _ | list _ | set _ | pair _ _ => rfl

theorem ofFields_of_isMapLike (h : (copsOf fields).isMapLike) :
    ofFields levels fields =
      (copsOf fields).entries.mapM (fun c => entryOf levels c.1 c.2) >>= fun settings =>
        shownOr "default" levels (Value.lookup (.string "policy_name") fields) >>= fun name =>
          .ok { name, settings } := by
  rw [ofFields, ← copsOf, Value.orEmpty_of_isMapLike h]
  rfl

/-- Fields are those of a policy if the map of cops is a map, each of its entries is an entry, and
the name is text. -/
theorem exists_ofFields_iff :
    (∃ p, ofFields levels fields = .ok p) ↔
      (copsOf fields).isMapLike ∧ (∀ c ∈ (copsOf fields).entries, IsEntry levels c) ∧
        HasName levels fields := by
  by_cases hmap : (copsOf fields).isMapLike
  · simp only [ofFields_of_isMapLike hmap, Except.bind_eq_ok, hmap, true_and, ← exists_entryOf_iff]
    rw [← Except.exists_mapM_iff, ← exists_shownOr_iff "default"]
    constructor
    · rintro ⟨-, settings, hsettings, name, hname, -⟩
      exact ⟨⟨settings, hsettings⟩, name, hname⟩
    · rintro ⟨⟨settings, hsettings⟩, name, hname⟩
      exact ⟨_, settings, hsettings, name, hname, rfl⟩
  · rw [ofFields_of_not_isMapLike hmap]
    exact ⟨nofun, fun h => absurd h.1 hmap⟩

example (levels : Nat) : ofFields levels defaults = .ok builtIn := by rfl

/-- What the settings of a list of entries are looked up as. -/
theorem describes_of_forall₂ {cops : List (Scalar × Value)} {settings : List (String × Setting)}
    (h : List.Forall₂ (fun c entry => entryOf levels c.1 c.2 = .ok entry) cops settings)
    (cop : String) :
    ((Value.lookup (.string cop) cops).getD .null).Describes levels
      (((settings.find? (·.1 == cop)).map (·.2)).getD {}) := by
  -- the first entry with the name of the cop counts in both lists
  induction h with
  | nil => exact Value.describes_null levels
  | @cons c entry cops settings hentry _ ih =>
    obtain ⟨-, hkey, hdescribes⟩ := entryOf_eq_ok_iff.mp hentry
    rw [Value.lookup_cons, List.find?_cons, hkey]
    by_cases hcop : entry.1 = cop
    · rw [hcop, if_pos (Scalar.sameKey_iff.mpr rfl), beq_self_eq_true]
      exact hdescribes
    · have hkeys : ¬(Scalar.string entry.1).sameKey (.string cop) = true := fun hsame =>
        hcop (Scalar.string.inj (Scalar.sameKey_string_iff.mp hsame))
      rw [if_neg hkeys, beq_eq_false_iff_ne.mpr hcop]
      exact ih

/-- What a policy says of a cop is what its fields say of it. -/
theorem describes_setting_of_ofFields (h : ofFields levels fields = .ok p) (cop : String) :
    (settingsOf fields cop).Describes levels (p.setting cop) := by
  have hmap := (exists_ofFields_iff.mp ⟨p, h⟩).1
  rw [ofFields_of_isMapLike hmap] at h
  obtain ⟨settings, hsettings, h⟩ := Except.bind_eq_ok.mp h
  obtain ⟨name, -, heq⟩ := Except.bind_eq_ok.mp h
  cases heq
  exact describes_of_forall₂ (Except.mapM_eq_ok_iff.mp hsettings) cop

/-- Fields are neither those of a policy nor complained of if the map of cops is none, or an entry
of it is like that and those before it are in order, or all are in order and the name is not. -/
theorem exists_ofFields_unreported_iff :
    (∃ why, ofFields levels fields = .error why ∧ ¬why.isReported) ↔
      ¬(copsOf fields).isMapLike ∨
      (∃ before c after, (copsOf fields).entries = before ++ c :: after ∧
        (∀ b ∈ before, IsEntry levels b) ∧ IsUnreadable levels c) ∨
      (∀ c ∈ (copsOf fields).entries, IsEntry levels c) ∧ ¬HasName levels fields := by
  by_cases hmap : (copsOf fields).isMapLike
  · -- the entries are read one after the other, and only then the name
    simp only [ofFields_of_isMapLike hmap, hmap, not_true_eq_false, false_or,
      Except.bind_eq_error, Except.mapM_eq_error_iff, ← exists_entryOf_unreported_iff,
      ← exists_entryOf_iff, ← Except.exists_mapM_iff, ← exists_shownOr_iff "default"]
    constructor
    · rintro ⟨why, ⟨before, c, after, hcops, hbefore, hc⟩ | ⟨settings, hsettings, hrest⟩, hwhy⟩
      · exact .inl ⟨before, c, after, hcops, hbefore, why, hc, hwhy⟩
      · refine .inr ⟨⟨settings, hsettings⟩, ?_⟩
        rintro ⟨name, hname⟩
        obtain herror | ⟨_, -, hok⟩ := hrest
        · cases hname.symm.trans herror
        · cases hok
    · rintro (⟨before, c, after, hcops, hbefore, why, hc, hwhy⟩ | ⟨⟨settings, hsettings⟩, hname⟩)
      · exact ⟨why, .inl ⟨before, c, after, hcops, hbefore, hc⟩, hwhy⟩
      · cases h : shownOr "default" levels (Value.lookup (.string "policy_name") fields) with
        | ok name => exact absurd ⟨name, h⟩ hname
        | error why => exact ⟨why, .inr ⟨settings, hsettings, .inl rfl⟩, isReported_of_shownOr h⟩
  · rw [ofFields_of_not_isMapLike hmap]
    exact ⟨fun _ => .inl hmap, fun _ => ⟨_, rfl, nofun⟩⟩

end Policy

end TapLint
