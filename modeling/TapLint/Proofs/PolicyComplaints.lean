/-
Complaints about policies.

A file that holds no policy is complained of: it is no YAML, no map, names a cop that there is not
or gives a severity that there is not.  That the map of cops, or the settings of a cop, are no map
is not complained of, nor that something cannot be turned into text, and a command breaks off
there:

* `IsMisshapen` — when it comes to that;
* `exists_ofFields_fieldsOver_unreported_iff` — it does not matter that the fields are laid over
  those of the built-in policy;
* `ofText_cases` — what becomes of the text of a policy file.
-/
import TapLint.Proofs.Commands
import TapLint.Proofs.PolicyLayers

namespace TapLint

namespace Policy

open Value
open CommandLine (policyComplaint?)

variable {levels : Nat} {fields : List (Scalar × Value)} {path : Path} {text : String}
  {yaml : YamlReader}

/-! ### Fields -/

/-- The entries for the cops that there are, in the order of the catalogue, and then those of the
keys that name none. -/
def entriesInOrder (fields : List (Scalar × Value)) : List (Scalar × Value) :=
  Rule.all.map (fun rule => (.string rule.name, settingsOf fields rule.name)) ++
    (copsOf fields).entries.filter fun c => isStrange c.1

/-- Whether an entry of a list is neither read nor complained of, and those before it are in
order. -/
def IsSpoilt (levels : Nat) (entries : List (Scalar × Value)) : Prop :=
  ∃ before c after, entries = before ++ c :: after ∧ (∀ b ∈ before, IsEntry levels b) ∧
    IsUnreadable levels c

/-- Whether the fields of a policy file have something else where they should have a map, or
something that should be turned into text and cannot: for the cops, the settings of a cop or a
key, if the entries before are in order, or for the name, if all entries are. -/
def IsMisshapen (levels : Nat) (fields : List (Scalar × Value)) : Prop :=
  ¬(copsOf fields).isMapLike ∨ IsSpoilt levels (entriesInOrder fields) ∨
    (∀ c ∈ (copsOf fields).entries, IsEntry levels c) ∧ ¬HasName levels fields

theorem not_isSpoilt_nil : ¬IsSpoilt levels [] := by
  rintro ⟨before, c, after, hsplit, -⟩
  cases before <;> cases hsplit

/-- The first entry decides, if it is not in order. -/
theorem isSpoilt_cons_iff {c : Scalar × Value} {cs : List (Scalar × Value)} :
    IsSpoilt levels (c :: cs) ↔ IsUnreadable levels c ∨ IsEntry levels c ∧ IsSpoilt levels cs := by
  constructor
  · rintro ⟨before, d, after, hsplit, hbefore, hd⟩
    cases before with
    | nil =>
      cases hsplit
      exact .inl hd
    | cons b before =>
      cases hsplit
      obtain ⟨hb, hbefore⟩ := List.forall_mem_cons.mp hbefore
      exact .inr ⟨hb, before, d, after, rfl, hbefore, hd⟩
  · rintro (hc | ⟨hc, before, d, after, rfl, hbefore, hd⟩)
    · exact ⟨[], c, cs, rfl, List.forall_mem_nil _, hc⟩
    · exact ⟨c :: before, d, after, rfl, List.forall_mem_cons.mpr ⟨hc, hbefore⟩, hd⟩

theorem not_isUnreadable_of_isEntry {c : Scalar × Value} (h : IsEntry levels c) :
    ¬IsUnreadable levels c := by
  intro hnot
  obtain ⟨entry, hentry⟩ := exists_entryOf_iff.mpr h
  obtain ⟨why, hwhy, -⟩ := exists_entryOf_unreported_iff.mpr hnot
  cases hentry.symm.trans hwhy

theorem not_isSpoilt_of_forall {entries : List (Scalar × Value)}
    (h : ∀ c ∈ entries, IsEntry levels c) : ¬IsSpoilt levels entries := by
  rintro ⟨before, c, after, rfl, -, hc⟩
  exact not_isUnreadable_of_isEntry (h c (List.mem_append_right _ List.mem_cons_self)) hc

/-- The settings of the built-in policy do not make an entry worse or better. -/
theorem isSpoilt_entryOver_iff (hcops : (copsOf fields).IsProper) {rules : List Rule}
    (hrules : ∀ rule ∈ rules, rule ∈ Rule.all) (rest : List (Scalar × Value)) :
    IsSpoilt levels (rules.map (entryOver (copsOf fields).entries) ++ rest) ↔
      IsSpoilt levels
        (rules.map (fun rule => (.string rule.name, settingsOf fields rule.name)) ++ rest) := by
  induction rules with
  | nil => rfl
  | cons rule rules ih =>
    obtain ⟨hrule, hrest⟩ := List.forall_mem_cons.mp hrules
    rw [List.map_cons, List.map_cons, List.cons_append, List.cons_append, isSpoilt_cons_iff,
      isSpoilt_cons_iff, ih hrest]
    refine or_congr ?_ (and_congr_left' ?_)
    · rw [isUnreadable_rule_iff hrule, entryOver, isUnreadable_rule_iff hrule,
        isMapLike_settingsOver, severityText_settingsOver hcops]
    · rw [isEntry_rule_iff hrule, entryOver, isEntry_rule_iff hrule,
        isSettings_settingsOver_iff hcops]

/-- It does not matter that the fields of a file are laid over those of the built-in policy. -/
theorem exists_ofFields_fieldsOver_unreported_iff (levels : Nat) (path : Path)
    (hfields : (map fields).IsProper) :
    (∃ why, ofFields levels (fieldsOver path fields) = .error why ∧ ¬why.isReported) ↔
      IsMisshapen levels fields := by
  have hcops := isProper_copsOf hfields
  rw [exists_ofFields_unreported_iff, isMapLike_copsOf_fieldsOver path hfields.distinctKeys,
    forall_isEntry_fieldsOver_iff path hfields, hasName_fieldsOver, ← IsSpoilt, IsMisshapen]
  refine or_congr_right (or_congr_left ?_)
  obtain ⟨hnil, hnil'⟩ | hentries := entries_copsOf_fieldsOver path hfields
  · -- there are no entries, so what is said of the cops is in order
    rw [hnil, entriesInOrder, hnil', List.filter_nil, List.append_nil]
    refine iff_of_false not_isSpoilt_nil (not_isSpoilt_of_forall ?_)
    refine List.forall_mem_map.mpr fun rule hrule => ⟨⟨rule, hrule, rfl⟩, ?_⟩
    rw [settingsOf, hnil']
    exact isSettings_null
  · rw [hentries, entriesInOrder]
    exact isSpoilt_entryOver_iff hcops (fun _ hrule => hrule) _

/-! ### Texts -/

/-- Whether a text is that of a policy file that is misshapen. -/
def IsMisshapenText (yaml : YamlReader) (levels : Nat) (text : String) : Prop :=
  ∃ v fields, yaml text = .ok v ∧ v.orEmpty = .map fields ∧ IsMisshapen levels fields

/-- Whether a file is complained of for the policy in it. -/
def IsComplainedOf (why : PolicyFileError) : Prop :=
  policyComplaint? why = some ("Error loading policy: " ++ why.message)

theorem isComplainedOf_invalid {why : PolicyError} (h : why.isReported) :
    IsComplainedOf (.invalid why) := by
  cases why with
  | unknownCop name => rfl
  | invalidSeverity word cop => rfl
  | copsNotMap _ | settingsNotMap _ | unshowable _ => cases h

theorem policyComplaint?_of_not_isReported {why : PolicyError} (h : ¬why.isReported) :
    policyComplaint? (.invalid why) = none := by
  cases why with
  | unknownCop _ | invalidSeverity _ _ => exact absurd rfl h
  | copsNotMap _ | settingsNotMap _ | unshowable _ => rfl

theorem isMisshapenText_iff {v : Value} (hv : yaml text = .ok v)
    (hfields : v.orEmpty = .map fields) :
    IsMisshapenText yaml levels text ↔ IsMisshapen levels fields := by
  constructor
  · rintro ⟨v', fields', hv', hfields', h⟩
    cases hv.symm.trans hv'
    cases hfields.symm.trans hfields'
    exact h
  · exact fun h => ⟨v, fields, hv, hfields, h⟩

/-- A policy file is read, complained of or misshapen. -/
theorem ofText_cases (levels : Nat) (path : Path) (hyaml : yaml.ReadsLawfully text) :
    (¬IsMisshapenText yaml levels text ∧ ∃ p, (ofText yaml levels path text).value = .ok p) ∨
      (¬IsMisshapenText yaml levels text ∧
        ∃ why, (ofText yaml levels path text).value = .error why ∧ IsComplainedOf why) ∨
      (IsMisshapenText yaml levels text ∧
        ∃ why, (ofText yaml levels path text).value = .error (.invalid why) ∧
          ¬why.isReported) := by
  cases hv : yaml text with
  | error why =>
    -- the only error of a lawful reader is a complaint
    obtain ⟨complaint, rfl⟩ := hyaml.isMalformed hv
    refine .inr (.inl ⟨?_, .malformed path.shown complaint, ?_, rfl⟩)
    · rintro ⟨v, fields, hv', -⟩
      cases hv.symm.trans hv'
    · rw [ofText, hv]
      rfl
  | ok v =>
    rw [ofText_of_eq_ok hv]
    by_cases hmap : ∃ fields, v.orEmpty = .map fields
    · obtain ⟨fields, hfields⟩ := hmap
      have hproper := isProper_fields (hyaml.isProper hv) hfields
      rw [isMisshapenText_iff hv hfields, value_ofFileValue levels path hfields,
        ← exists_ofFields_fieldsOver_unreported_iff levels path hproper]
      cases hp : ofFields levels (fieldsOver path fields) with
      | ok p =>
        refine .inl ⟨?_, p, rfl⟩
        rintro ⟨why, heq, -⟩
        cases heq
      | error why =>
        -- laying the fields over the built-in ones keeps the kind of the error
        by_cases hwhy : why.isReported
        · refine .inr (.inl ⟨?_, .invalid why, rfl, isComplainedOf_invalid hwhy⟩)
          rintro ⟨why', heq, hwhy'⟩
          cases heq
          exact hwhy' hwhy
        · exact .inr (.inr ⟨⟨why, rfl, hwhy⟩, why, rfl, hwhy⟩)
    · refine .inr (.inl ⟨?_, .notMap path.shown, value_ofFileValue_of_not_map levels path hmap,
        rfl⟩)
      rintro ⟨v', fields, hv', hfields, -⟩
      cases hv.symm.trans hv'
      exact hmap ⟨fields, hfields⟩

end Policy

namespace CommandLine

open Policy (IsMisshapenText IsComplainedOf)

variable {w : Surroundings} {o : AuditOptions} {arguments : List String} {path text : String}
  {why : PolicyFileError}

/-! ### Commands -/

theorem value_loadPolicy_of_error (hpath : path ≠ "")
    (h : (Policy.ofFile w.yaml w.host w.files (Path.ofString path)).value = .error why) :
    (loadPolicy w (some path)).run.value = .error (.policy why) := by
  have hgiven : (some path).filter (!·.isEmpty) = some path := by simp [hpath]
  simp only [value_loadPolicy, hgiven, h]
  rfl

theorem run_audit_of_policy_error (harguments : Request.ofArguments arguments = .audit o)
    (hpolicy : o.policyPath w = some path) (hpath : path ≠ "")
    (h : (Policy.ofFile w.yaml w.host w.files (Path.ofString path)).value = .error why) :
    run w arguments = (Obstacle.policy why).complaint >>= fun line =>
      .ok { ending := .verdict 1, messages := unlines (auditLines w o ++ [line]) } := by
  rw [run, harguments, Request.run]
  refine audit_of_obstacle ?_
  rw [value_auditReport, hpolicy, value_loadPolicy_of_error hpath h]
  rfl

theorem run_listCops_of_policy_error
    (harguments : Request.ofArguments arguments = .listCops (some path)) (hpath : path ≠ "")
    (h : (Policy.ofFile w.yaml w.host w.files (Path.ofString path)).value = .error why) :
    run w arguments = (Obstacle.policy why).complaint >>= fun line =>
      .ok { ending := .verdict 1, messages := unlines [line] } := by
  rw [run, harguments, Request.run]
  exact listCops_of_obstacle (value_loadPolicy_of_error hpath h)

/-- **A policy file is used or complained of, unless it is misshapen.**  A complaint is the last
message of the command, which prints nothing, and the verdict is 1.  A misshapen file is not
complained of, and both commands break off at it. -/
theorem policy_used_complained_or_misshapen (hpath : path ≠ "")
    (hrefusal : w.host.refusal? (Path.ofString path) = none)
    (htext : w.files.HoldsText (Path.ofString path) text)
    (hyaml : w.yaml.ReadsLawfully (Text.unifyLineEnds text)) :
    (¬IsMisshapenText w.yaml w.host.levels (Text.unifyLineEnds text) →
      (∃ p, (Policy.ofFile w.yaml w.host w.files (Path.ofString path)).value = .ok p) ∨
      ∃ why, (Policy.ofFile w.yaml w.host w.files (Path.ofString path)).value = .error why ∧
        IsComplainedOf why ∧
        (∀ arguments o, Request.ofArguments arguments = .audit o → o.policyPath w = some path →
          ∃ lines, run w arguments = .ok
            { ending := .verdict 1
              messages := unlines (lines ++ ["Error loading policy: " ++ why.message]) }) ∧
        ∀ arguments, Request.ofArguments arguments = .listCops (some path) →
          run w arguments = .ok
            { ending := .verdict 1
              messages := unlines ["Error loading policy: " ++ why.message] }) ∧
    (IsMisshapenText w.yaml w.host.levels (Text.unifyLineEnds text) →
      ∃ why, (Policy.ofFile w.yaml w.host w.files (Path.ofString path)).value =
          .error (.invalid why) ∧
        ¬why.isReported ∧
        (∀ arguments o, Request.ofArguments arguments = .audit o → o.policyPath w = some path →
          run w arguments = .error (.policy (.invalid why))) ∧
        ∀ arguments, Request.ofArguments arguments = .listCops (some path) →
          run w arguments = .error (.policy (.invalid why))) := by
  have hcases := Policy.ofText_cases w.host.levels (Path.ofString path) hyaml
  rw [← Policy.ofFile_eq_ofText hrefusal htext] at hcases
  obtain ⟨hnot, hp⟩ | ⟨hnot, why, hwhy, hline⟩ | ⟨hmis, why, hwhy, hunreported⟩ := hcases
  · exact ⟨fun _ => .inl hp, fun h => absurd h hnot⟩
  · have hcomplaint := complaint_policy_of_some hline
    refine ⟨fun _ => .inr ⟨why, hwhy, hline, ?_, ?_⟩, fun h => absurd h hnot⟩
    · intro arguments o ho hpolicy
      refine ⟨auditLines w o, ?_⟩
      rw [run_audit_of_policy_error ho hpolicy hpath hwhy, hcomplaint]
      rfl
    · intro arguments hl
      rw [run_listCops_of_policy_error hl hpath hwhy, hcomplaint]
      rfl
  · have hnone := complaint_policy_of_none (Policy.policyComplaint?_of_not_isReported hunreported)
    refine ⟨fun h => absurd hmis h, fun _ => ⟨why, hwhy, hunreported, ?_, ?_⟩⟩
    · intro arguments o ho hpolicy
      rw [run_audit_of_policy_error ho hpolicy hpath hwhy, hnone]
      rfl
    · intro arguments hl
      rw [run_listCops_of_policy_error hl hpath hwhy, hnone]
      rfl

/-! ### A list of cops -/

/-- A directory with a policy file that says `cops: [a]`. -/
def listedCops : Surroundings :=
  { files :=
      { root := .directory
          [("p.yaml", .file [0x63, 0x6F, 0x70, 0x73, 0x3A, 0x20, 0x5B, 0x61, 0x5D])]
        here := [] }
    environment := {}
    reader := fun _ => default
    yaml := Value.ofYaml
    host := { calls := 1000 }
    now := default }

theorem policy_used_complained_or_misshapen_listedCops :
    ∃ why : PolicyError, ¬why.isReported ∧
      (Policy.ofFile listedCops.yaml listedCops.host listedCops.files
        (Path.ofString "p.yaml")).value = .error (.invalid why) ∧
      run listedCops ["audit", "--policy", "p.yaml", "a.rb"] = .error (.policy (.invalid why)) ∧
      run listedCops ["list-cops", "--policy", "p.yaml"] = .error (.policy (.invalid why)) := by
  have htext : listedCops.files.HoldsText (Path.ofString "p.yaml") "cops: [a]" :=
    ⟨_, rfl, by decide +kernel⟩
  have hread : (Value.ofYaml (Text.unifyLineEnds "cops: [a]")).toOption.any
      (fun v => v.isMapLike && !(Policy.copsOf v.entries).isMapLike) = true := by decide +kernel
  cases hyaml : Value.ofYaml (Text.unifyLineEnds "cops: [a]") with
  | error why =>
    rw [hyaml] at hread
    cases hread
  | ok v =>
    rw [hyaml] at hread
    obtain ⟨hmap, hcops⟩ := Bool.and_eq_true_iff.mp hread
    have hlawful : listedCops.yaml.ReadsLawfully (Text.unifyLineEnds "cops: [a]") :=
      ⟨Value.isProper_ofYaml, fun hwhy => by cases hyaml.symm.trans hwhy⟩
    have hmis : IsMisshapenText listedCops.yaml listedCops.host.levels
        (Text.unifyLineEnds "cops: [a]") :=
      ⟨v, v.entries, hyaml, Value.orEmpty_of_isMapLike hmap, .inl (by simpa using hcops)⟩
    obtain ⟨why, hfile, hunreported, haudit, hlist⟩ :=
      (policy_used_complained_or_misshapen (w := listedCops) (by decide) rfl htext hlawful).2 hmis
    exact ⟨why, hunreported, hfile, haudit _ { paths := ["a.rb"], policy := some "p.yaml" }
      (by decide +kernel) rfl, hlist _ (by decide +kernel)⟩

/-- A list of cops is complained of neither by reading the file nor by a command. -/
theorem run_listedCops :
    (Policy.ofFile listedCops.yaml listedCops.host listedCops.files
        (Path.ofString "p.yaml")).value = .error (.invalid (.copsNotMap "list")) ∧
      policyComplaint? (.invalid (.copsNotMap "list")) = none ∧
      run listedCops ["audit", "--policy", "p.yaml", "a.rb"] =
        .error (.policy (.invalid (.copsNotMap "list"))) ∧
      run listedCops ["list-cops", "--policy", "p.yaml"] =
        .error (.policy (.invalid (.copsNotMap "list"))) := by
  decide +kernel

end CommandLine

end TapLint
