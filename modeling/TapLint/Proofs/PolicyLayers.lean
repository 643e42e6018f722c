/-
A policy file laid over the built-in policy.

The built-in policy has settings for every cop, and they say what is said of a cop without any.
So they can be laid under the settings of a file, or left out, and nothing changes:

* `entries_copsOf_fieldsOver` — the map of cops that comes of it;
* `describes_settingsOver` — settings that are laid over those of the built-in policy describe
  what they describe alone.
-/
import TapLint.Proofs.PolicyFields
import TapLint.Proofs.Streaming

namespace TapLint

namespace Value

variable {v w base : Value} {key : Scalar} {fields added : List (Scalar × Value)}

/-- A scalar is replaced by whatever is laid over it. -/
theorem merge_scalar (s : Scalar) (v : Value) : merge (.scalar s) v = v := by
  cases v <;> rfl

@[simp] theorem isMapLike_map (fields : List (Scalar × Value)) : (map fields).isMapLike := by
  rw [isMapLike, fields?_map]
  rfl

theorem isMapLike_merge (base v : Value) : (merge base v).isMapLike = v.isMapLike := by
  cases v with
  | map added => cases base <;> simp [merge]
  | scalar _ | list _ | set _ | pair _ _ => rw [merge]

/-- What is no map has no fields, and what is laid over it or under it does not matter. -/
theorem entries_eq_nil_or_eq_map (v : Value) :
    (v.entries = [] ∧ ∀ base, merge base v = v) ∨ ∃ fields, v = map fields := by
  cases v with
  | map fields => exact .inr ⟨fields, rfl⟩
  | scalar _ | list _ | set _ | pair _ _ =>
    refine .inl ⟨?_, fun base => by rw [merge]⟩
    rw [entries, fields?, orEmpty]
    generalize isTruthy _ = truthy
    cases truthy <;> rfl

theorem isProper_entries (h : v.IsProper) : (map v.entries).IsProper := by
  obtain ⟨hnil, -⟩ | ⟨fields, rfl⟩ := entries_eq_nil_or_eq_map v
  · rw [hnil]
    exact isProper_empty
  · rw [entries_map]
    exact h

/-- Over a scalar of a map, the other map lays what it has. -/
theorem lookup_mergeFields_scalar (hadded : DistinctKeys added) {s : Scalar}
    (h : lookup key fields = some (.scalar s)) :
    lookup key (mergeFields fields added) = some ((lookup key added).getD (.scalar s)) := by
  rw [lookup_mergeFields hadded]
  cases lookup key added with
  | none => exact h
  | some v => simp only [placed, h, merge_scalar, Option.getD_some]

end Value

namespace Policy

open Value

variable {levels : Nat} {fields : List (Scalar × Value)} {s : Setting} {w : Value}

/-! ### The built-in policy -/

/-- The map of cops of the built-in policy. -/
def defaultCops : List (Scalar × Value) :=
  Rule.all.map fun rule => (.string rule.name, defaultSettings)

theorem distinctKeys_defaultCops : DistinctKeys defaultCops := by decide

theorem lookup_defaultCops_iff {key : Scalar} :
    (lookup key defaultCops).isSome ↔ ∃ rule ∈ Rule.all, key = .string rule.name := by
  rw [isSome_lookup_iff]
  constructor
  · rintro ⟨f, hf, hsame⟩
    obtain ⟨rule, hrule, rfl⟩ := List.mem_map.mp hf
    rw [Scalar.sameKey_comm] at hsame
    exact ⟨rule, hrule, Scalar.sameKey_string_iff.mp hsame⟩
  · rintro ⟨rule, hrule, rfl⟩
    exact ⟨_, List.mem_map_of_mem hrule, Scalar.sameKey_iff.mpr rfl⟩

/-! ### Settings of a cop -/

theorem merge_defaultSettings_empty : merge defaultSettings (.map []) = defaultSettings := by
  rw [defaultSettings, merge_map_map, mergeFields]

theorem lookup_merge_defaultSettings (key : Scalar) {x : Scalar} {added : List (Scalar × Value)}
    (hadded : DistinctKeys added) (h : lookup key defaultSettings.entries = some (.scalar x)) :
    lookup key (merge defaultSettings (.map added)).entries =
      some ((lookup key added).getD (.scalar x)) := by
  rw [defaultSettings, entries_map] at h
  rw [defaultSettings, merge_map_map, entries_map, lookup_mergeFields_scalar hadded h]

theorem severityText_merge_defaultSettings (hw : w.IsProper) :
    (merge defaultSettings w).severityText levels = w.severityText levels := by
  obtain ⟨-, hself⟩ | ⟨added, rfl⟩ := entries_eq_nil_or_eq_map w
  · rw [hself]
  · have hseverity := lookup_merge_defaultSettings (.string "severity") hw.distinctKeys rfl
    rw [severityText, severityText, hseverity, entries_map]
    cases lookup (.string "severity") added <;> rfl

/-- The settings of the built-in policy say what is said of a cop without settings. -/
theorem describes_merge_defaultSettings (hw : w.IsProper) :
    (merge defaultSettings w).Describes levels s ↔ w.Describes levels s := by
  rw [describes_iff, describes_iff, severityText_merge_defaultSettings hw]
  obtain ⟨-, hself⟩ | ⟨added, rfl⟩ := entries_eq_nil_or_eq_map w
  · rw [hself]
  · have henabled := lookup_merge_defaultSettings (.string "enabled") hw.distinctKeys rfl
    rw [henabled, entries_map]
    cases lookup (.string "enabled") added <;> rfl

/-! ### The map of cops -/

/-- The settings that a map of cops gives to a cop, laid over those of the built-in policy. -/
def settingsOver (cops : List (Scalar × Value)) (cop : String) : Value :=
  merge defaultSettings ((lookup (.string cop) cops).getD (.map []))

/-- The entry of a cop when a map of cops is laid over that of the built-in policy. -/
def entryOver (cops : List (Scalar × Value)) (rule : Rule) : Scalar × Value :=
  (.string rule.name, settingsOver cops rule.name)

theorem isMapLike_settingsOver (fields : List (Scalar × Value)) (cop : String) :
    (settingsOver (copsOf fields).entries cop).isMapLike = (settingsOf fields cop).isMapLike := by
  rw [settingsOver, settingsOf, isMapLike_merge]
  cases lookup (.string cop) (copsOf fields).entries <;> rfl

theorem describes_settingsOver (hcops : (copsOf fields).IsProper) (cop : String) :
    (settingsOver (copsOf fields).entries cop).Describes levels s ↔
      (settingsOf fields cop).Describes levels s := by
  rw [settingsOver, settingsOf]
  cases h : lookup (.string cop) (copsOf fields).entries with
  | none =>
    have hempty : (Value.map []).Describes levels s ↔ null.Describes levels s := by
      rw [describes_iff, describes_iff, severityText, entries_map]
      rfl
    exact (describes_merge_defaultSettings isProper_empty).trans hempty
  | some w => exact describes_merge_defaultSettings ((isProper_entries hcops).of_lookup h)

theorem severityText_settingsOver (hcops : (copsOf fields).IsProper) (cop : String) :
    (settingsOver (copsOf fields).entries cop).severityText levels =
      (settingsOf fields cop).severityText levels := by
  rw [settingsOver, settingsOf]
  cases h : lookup (.string cop) (copsOf fields).entries with
  | none => rfl
  | some w => exact severityText_merge_defaultSettings ((isProper_entries hcops).of_lookup h)

/-- Whether a key of the map of cops names no cop. -/
def isStrange (key : Scalar) : Bool := (lookup key defaultCops).isNone

/-- The map of cops that comes of laying one over that of the built-in policy: each cop has its
settings, in the order of the catalogue, and what names no cop follows. -/
theorem mergeFields_defaultCops {added : List (Scalar × Value)} (hadded : DistinctKeys added) :
    mergeFields defaultCops added =
      Rule.all.map (entryOver added) ++ added.filter fun c => isStrange c.1 := by
  rw [mergeFields_eq distinctKeys_defaultCops hadded]
  refine congrArg (· ++ _) ?_
  rw [defaultCops, List.map_map]
  refine List.map_congr_left fun rule _ => ?_
  rw [Function.comp_apply, laidOver, entryOver, settingsOver]
  cases lookup (.string rule.name) added with
  | none => rw [Option.getD_none, merge_defaultSettings_empty]
  | some w => rfl

/-- The map of cops in the fields of a file that are laid over those of the built-in policy. -/
theorem copsOf_fieldsOver (path : Path) (hfields : DistinctKeys fields) :
    copsOf (fieldsOver path fields) =
      merge (.map defaultCops) ((lookup (.string "cops") fields).getD (.map [])) := by
  have hname : ¬(Scalar.string "policy_name").sameKey (.string "cops") = true := by decide
  rw [copsOf, fieldsOver, lookup_put, if_neg hname, lookup_mergeFields hfields]
  cases lookup (.string "cops") fields with
  | none =>
    rw [Option.getD_none, merge_map_map, mergeFields]
    rfl
  | some v => rfl

theorem isMapLike_copsOf_fieldsOver (path : Path) (hfields : DistinctKeys fields) :
    (copsOf (fieldsOver path fields)).isMapLike = (copsOf fields).isMapLike := by
  rw [copsOf_fieldsOver path hfields, isMapLike_merge, copsOf]
  cases lookup (.string "cops") fields <;> rfl

/-- A value that counts as the empty map replaces the map of cops; a map is laid over it. -/
theorem entries_copsOf_fieldsOver (path : Path) (hfields : (map fields).IsProper) :
    ((copsOf (fieldsOver path fields)).entries = [] ∧ (copsOf fields).entries = []) ∨
      (copsOf (fieldsOver path fields)).entries =
        Rule.all.map (entryOver (copsOf fields).entries) ++
          (copsOf fields).entries.filter fun c => isStrange c.1 := by
  rw [copsOf_fieldsOver path hfields.distinctKeys]
  simp only [copsOf]
  cases h : lookup (.string "cops") fields with
  | none =>
    right
    rw [Option.getD_none, Option.getD_none, merge_map_map, entries_map]
    exact mergeFields_defaultCops isProper_empty.distinctKeys
  | some v =>
    rw [Option.getD_some, Option.getD_some]
    obtain ⟨hnil, hself⟩ | ⟨added, rfl⟩ := entries_eq_nil_or_eq_map v
    · rw [hself]
      exact .inl ⟨hnil, hnil⟩
    · right
      rw [merge_map_map, entries_map, entries_map]
      exact mergeFields_defaultCops (hfields.of_lookup h).distinctKeys

theorem isSettings_settingsOver_iff (hcops : (copsOf fields).IsProper) (cop : String) :
    (settingsOver (copsOf fields).entries cop).IsSettings levels ↔
      (settingsOf fields cop).IsSettings levels := by
  have hdescribes (s : Setting) : (settingsOver (copsOf fields).entries cop).Describes levels s ↔
      (settingsOf fields cop).Describes levels s := describes_settingsOver hcops cop
  constructor
  · rintro ⟨hmap, s, hs⟩
    exact ⟨isMapLike_settingsOver fields cop ▸ hmap, s, (hdescribes s).mp hs⟩
  · rintro ⟨hmap, s, hs⟩
    exact ⟨isMapLike_settingsOver fields cop ▸ hmap, s, (hdescribes s).mpr hs⟩

theorem isProper_copsOf (hfields : (map fields).IsProper) : (copsOf fields).IsProper := by
  rw [copsOf]
  cases h : lookup (.string "cops") fields with
  | none => exact .scalar .null
  | some v => exact hfields.of_lookup h

theorem isStrange_iff {key : Scalar} :
    isStrange key ↔ ¬∃ rule ∈ Rule.all, key = .string rule.name := by
  rw [isStrange, Option.isNone_iff_eq_none, ← Option.not_isSome_iff_eq_none,
    lookup_defaultCops_iff]

/-- Where all entries are in order, what they say of a cop is. -/
theorem isSettings_settingsOf (h : ∀ c ∈ (copsOf fields).entries, IsEntry levels c)
    (cop : String) : (settingsOf fields cop).IsSettings levels := by
  rw [settingsOf]
  cases hlookup : lookup (.string cop) (copsOf fields).entries with
  | none => exact isSettings_null
  | some w =>
    obtain ⟨key, -, hmem⟩ := exists_of_lookup hlookup
    exact (h (key, w) hmem).settings

/-- The entries that come of laying a map of cops over that of the built-in policy are in order
if those of the map are. -/
theorem forall_isEntry_fieldsOver_iff (path : Path) (hfields : (map fields).IsProper) :
    (∀ c ∈ (copsOf (fieldsOver path fields)).entries, IsEntry levels c) ↔
      ∀ c ∈ (copsOf fields).entries, IsEntry levels c := by
  have hcops := isProper_copsOf hfields
  obtain ⟨hnil, hnil'⟩ | hentries := entries_copsOf_fieldsOver path hfields
  · rw [hnil, hnil']
  rw [hentries, List.forall_mem_append, List.forall_mem_map]
  constructor
  · rintro ⟨hrules, hstrange⟩ c hc
    by_cases hkey : ∃ rule ∈ Rule.all, c.1 = .string rule.name
    · obtain ⟨rule, hrule, hname⟩ := hkey
      have hsettings : settingsOf fields rule.name = c.2 := by
        have hmem : (.string rule.name, c.2) ∈ (copsOf fields).entries := hname ▸ hc
        rw [settingsOf, lookup_of_mem (isProper_entries hcops).distinctKeys hmem, Option.getD_some]
      have hover := (isSettings_settingsOver_iff hcops rule.name).mp (hrules rule hrule).settings
      exact ⟨⟨rule, hrule, hname⟩, hsettings ▸ hover⟩
    · exact hstrange c (List.mem_filter.mpr ⟨hc, isStrange_iff.mpr hkey⟩)
  · intro h
    refine ⟨fun rule hrule => ⟨⟨rule, hrule, rfl⟩, ?_⟩, fun c hc => h c (List.mem_of_mem_filter hc)⟩
    exact (isSettings_settingsOver_iff hcops rule.name).mpr (isSettings_settingsOf h rule.name)

/-- What is said of a cop with the settings of the built-in policy is what is said without. -/
theorem describes_settingsOf_fieldsOver (path : Path) (hfields : (map fields).IsProper)
    {rule : Rule} (hrule : rule ∈ Rule.all) :
    (settingsOf (fieldsOver path fields) rule.name).Describes levels s ↔
      (settingsOf fields rule.name).Describes levels s := by
  have hcops := isProper_copsOf hfields
  obtain ⟨hnil, hnil'⟩ | hentries := entries_copsOf_fieldsOver path hfields
  · rw [settingsOf, settingsOf, hnil, hnil']
  · have hover : settingsOf (fieldsOver path fields) rule.name =
        settingsOver (copsOf fields).entries rule.name := by
      have hkeys : DistinctKeys (Rule.all.map (entryOver (copsOf fields).entries)) :=
        distinctKeys_defaultCops
      have hmem : (.string rule.name, settingsOver (copsOf fields).entries rule.name) ∈
          Rule.all.map (entryOver (copsOf fields).entries) :=
        List.mem_map_of_mem hrule
      rw [settingsOf, hentries, lookup_append, lookup_of_mem hkeys hmem]
      rfl
    rw [hover, describes_settingsOver hcops]

/-- A file without a name is called like the file, and that is text. -/
theorem hasName_fieldsOver (path : Path) : HasName levels (fieldsOver path fields) ↔
    HasName levels fields := by
  rw [HasName, HasName, fieldsOver]
  simp only [lookup_put, if_pos (Scalar.sameKey_iff.mpr rfl), Option.some.injEq, forall_eq']
  cases lookup (.string "policy_name") fields with
  | none =>
    refine iff_of_true ⟨path.stem, rfl⟩ fun w hw => ?_
    cases hw
  | some v =>
    refine ⟨fun h w hw => ?_, fun h => h v rfl⟩
    cases hw
    exact h

/-! ### Files -/

theorem value_ofFileValue (levels : Nat) (path : Path) {v : Value} (h : v.orEmpty = .map fields) :
    (ofFileValue levels path v).value =
      (ofFields levels (fieldsOver path fields)).mapError .invalid := by
  simp only [ofFileValue, h]
  split <;> rfl

theorem value_ofFileValue_of_not_map (levels : Nat) (path : Path) {v : Value}
    (h : ¬∃ fields, v.orEmpty = .map fields) :
    (ofFileValue levels path v).value = .error (.notMap path.shown) := by
  rw [ofFileValue]
  split
  next fields hfields => exact absurd ⟨fields, hfields⟩ h
  · rfl

variable {yaml : YamlReader} {host : Host} {files : Files} {path : Path} {text : String} {v : Value}

theorem ofFile_eq_ofText (hrefusal : host.refusal? path = none) (h : files.HoldsText path text)
    (yaml : YamlReader) :
    ofFile yaml host files path = ofText yaml host.levels path (Text.unifyLineEnds text) := by
  obtain ⟨bytes, hfile, htext⟩ := h
  rw [ofFile, hrefusal, hfile]
  simp only [Text.streamed_of_strict htext]

theorem ofText_of_eq_ok (h : yaml text = .ok v) (levels : Nat) (path : Path) :
    ofText yaml levels path text = ofFileValue levels path v := by
  rw [ofText, h]

theorem isProper_fields (hproper : v.IsProper) (hfields : v.orEmpty = .map fields) :
    (map fields).IsProper := by
  rw [orEmpty] at hfields
  split at hfields
  · exact hfields ▸ hproper
  · cases hfields
    exact isProper_empty

/-- **What a file says of a cop counts, and the built-in policy says the rest**, whatever the
file says of other cops.  The file is refused only for a cop or a severity that there is not, or
because a severity or the name of the policy cannot be turned into text, and the settings of the
built-in policy may as well be left out. -/
theorem ofFileValue_effective (levels : Nat) (path : Path) (hproper : v.IsProper)
    (hfields : v.orEmpty = .map fields) (hcops : (copsOf fields).isMapLike)
    (hsettings : ∀ c ∈ (copsOf fields).entries, c.2.isMapLike) :
    (∀ yaml host files text, host.levels = levels → host.refusal? path = none →
      files.HoldsText path text → yaml (Text.unifyLineEnds text) = .ok v →
      ofFile yaml host files path = ofFileValue levels path v) ∧
    ((∃ p, (ofFileValue levels path v).value = .ok p) ↔ HasName levels fields ∧
      ∀ c ∈ (copsOf fields).entries, (∃ rule ∈ Rule.all, c.1 = .string rule.name) ∧
        ∀ w, lookup (.string "severity") c.2.entries = some w →
          ∃ text, w.shown levels = .ok text ∧ ∃ s : Severity, Text.toLower text = s.name) ∧
    (∀ p, (ofFileValue levels path v).value = .ok p → ∀ rule ∈ Rule.all,
      p.isEnabled rule.name =
        ((lookup (.string "enabled") (settingsOf fields rule.name).entries).map
          isTruthy).getD true ∧
      (match lookup (.string "severity") (settingsOf fields rule.name).entries with
        | none => p.severityFor rule.name = .convention
        | some w => ∃ text, w.shown levels = .ok text ∧
            (p.severityFor rule.name).name = Text.toLower text)) ∧
    ((∃ q, ofFields levels fields = .ok q) ↔ ∃ p, (ofFileValue levels path v).value = .ok p) ∧
    ∀ p q, (ofFileValue levels path v).value = .ok p → ofFields levels fields = .ok q →
      ∀ rule ∈ Rule.all, p.isEnabled rule.name = q.isEnabled rule.name ∧
        p.severityFor rule.name = q.severityFor rule.name := by
  have hmap := isProper_fields hproper hfields
  have hload : ∀ p, (ofFileValue levels path v).value = .ok p ↔
      ofFields levels (fieldsOver path fields) = .ok p := fun p => by
    rw [value_ofFileValue levels path hfields, Except.mapError_eq_ok]
  have hvalid : (∃ p, (ofFileValue levels path v).value = .ok p) ↔
      (∀ c ∈ (copsOf fields).entries, IsEntry levels c) ∧ HasName levels fields := by
    rw [exists_congr hload, exists_ofFields_iff, forall_isEntry_fieldsOver_iff path hmap,
      isMapLike_copsOf_fieldsOver path hmap.distinctKeys, hasName_fieldsOver]
    exact and_iff_right hcops
  have hdescribes : ∀ p, (ofFileValue levels path v).value = .ok p → ∀ rule ∈ Rule.all,
      (settingsOf fields rule.name).Describes levels (p.setting rule.name) := fun p hp rule hrule =>
    (describes_settingsOf_fieldsOver path hmap hrule).mp
      (describes_setting_of_ofFields ((hload p).mp hp) rule.name)
  refine ⟨fun yaml host files text hlevels hrefusal htext hyaml => ?_, ?_,
    fun p hp rule hrule => ⟨(hdescribes p hp rule hrule).enabled, ?_⟩, ?_, ?_⟩
  · rw [ofFile_eq_ofText hrefusal htext, ofText_of_eq_ok hyaml, hlevels]
  · rw [hvalid, and_comm]
    refine and_congr_right' (forall₂_congr fun c hc => ?_)
    rw [← exists_describes_iff]
    exact ⟨fun h => ⟨h.key, h.settings.describes⟩, fun h => ⟨h.1, hsettings c hc, h.2⟩⟩
  · -- severities with the same name are the same
    have hseverity := (hdescribes p hp rule hrule).severity
    rw [severityText] at hseverity
    split <;> rename_i hlookup <;> rw [hlookup] at hseverity
    · have hname : Severity.convention.name = (p.setting rule.name).severity.name :=
        Except.ok.inj hseverity
      exact Option.some.inj ((Severity.ofName?_eq_some_iff.mpr hname.symm).symm.trans rfl)
    · obtain ⟨text, htext, hname⟩ := Except.map_eq_ok.mp hseverity
      exact ⟨text, htext, hname.symm⟩
  · rw [hvalid, exists_ofFields_iff]
    exact and_iff_right hcops
  · intro p q hp hq rule hrule
    have hsame : p.setting rule.name = q.setting rule.name :=
      (hdescribes p hp rule hrule).unique (describes_setting_of_ofFields hq rule.name)
    exact ⟨congrArg Setting.enabled hsame, congrArg Setting.severity hsame⟩

/-- Settings for both cops, each of which leaves something out. -/
def sampleFields : List (Scalar × Value) :=
  [(.string "cops", .map [
    (.string "FormulaAudit/UsesFromMacos", .map [(.string "severity", .string "Warning")]),
    (.string "FormulaAudit/ProvidedByMacos", .map [(.string "enabled", .scalar (.bool false))])])]

theorem isProper_sampleFields : (map sampleFields).IsProper := by
  refine .map (by decide) (List.forall_mem_singleton.mpr (.map (by decide) ?_))
  refine List.forall_mem_cons.mpr ⟨.map (by decide) ?_, List.forall_mem_singleton.mpr
    (.map (by decide) ?_)⟩
  · exact List.forall_mem_singleton.mpr (.scalar _)
  · exact List.forall_mem_singleton.mpr (.scalar _)

theorem ofFileValue_effective_sampleFields :
    ∃ p, (ofFileValue 0 ⟨0, ["p.yaml"]⟩ (.map sampleFields)).value = .ok p ∧
      p.isEnabled "FormulaAudit/ProvidedByMacos" = false ∧
      p.severityFor "FormulaAudit/ProvidedByMacos" = .convention ∧
      p.isEnabled "FormulaAudit/UsesFromMacos" = true ∧
      p.severityFor "FormulaAudit/UsesFromMacos" = .warning := by
  obtain ⟨-, hvalid, hsays, -⟩ := ofFileValue_effective 0 ⟨0, ["p.yaml"]⟩ isProper_sampleFields rfl
    (by decide) (by decide)
  have hprovided : ProvidedByMacos.rule ∈ Rule.all := List.mem_cons_self
  have huses : UsesFromMacos.rule ∈ Rule.all := List.mem_cons_of_mem _ List.mem_cons_self
  obtain ⟨p, hp⟩ := hvalid.mpr ⟨nofun, List.forall_mem_cons.mpr
    ⟨⟨⟨_, huses, rfl⟩, fun w hw => by cases hw; exact ⟨"Warning", rfl, .warning, rfl⟩⟩,
      List.forall_mem_singleton.mpr ⟨⟨_, hprovided, rfl⟩, fun w hw => by cases hw⟩⟩⟩
  obtain ⟨henabled, hseverity⟩ := hsays p hp _ hprovided
  obtain ⟨henabled', text, htext, hseverity'⟩ := hsays p hp _ huses
  cases htext
  refine ⟨p, hp, henabled, hseverity, henabled', ?_⟩
  exact Option.some.inj ((Severity.ofName?_eq_some_iff.mpr hseverity').symm.trans rfl)

/-- A policy whose name is an integer of one digit more than can be shown. -/
def hugeName : List (Scalar × Value) :=
  [(.string "policy_name", .scalar (.int (10 ^ Text.maxDigits : Nat)))]

/-- Such a policy says nothing of cops, and is refused all the same. -/
theorem ofFileValue_hugeName :
    (copsOf hugeName).entries = [] ∧
      (ofFileValue 1000 ⟨0, ["p.yaml"]⟩ (.map hugeName)).value =
        .error (.invalid (.unshowable .digits)) := by
  have hshown : shown 1000 (.scalar (.int (10 ^ Text.maxDigits : Nat))) = .error .digits :=
    Scalar.shown_int_eq_error_iff.mpr ⟨rfl, Nat.le_of_eq (Int.natAbs_natCast _).symm⟩
  refine ⟨rfl, ?_⟩
  rw [value_ofFileValue 1000 _ rfl, ofFields_of_isMapLike rfl]
  have hname : lookup (.string "policy_name") (fieldsOver ⟨0, ["p.yaml"]⟩ hugeName) =
      some (.scalar (.int (10 ^ Text.maxDigits : Nat))) := rfl
  rw [hname, shownOr, hshown]
  rfl

end Policy

end TapLint
