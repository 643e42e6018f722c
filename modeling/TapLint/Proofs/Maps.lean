/-
Maps laid over maps.

A map gives a value to each of its keys, and no key stands twice (`DistinctKeys`).  Laying a map
over another is described in two ways:

* `lookup_mergeFields` — by what is found under a key;
* `mergeFields_eq` — by the list of fields: those that were there, in their order, then those that
  are new.

A reader of YAML reads a text lawfully (`ReadsLawfully`) if it gives a value whose maps have
distinct keys at every level, or complains; the values of `Value.ofYaml` are of this kind:
`isProper_ofYaml`.
-/
import TapLint.Yaml.Value

namespace Except

variable {ε δ α β : Type} {x : Except ε α}

theorem ok_bind (a : α) (f : α → Except ε β) : Except.ok a >>= f = f a := rfl

theorem mapError_ok (a : α) (f : ε → δ) : (Except.ok a).mapError f = .ok a := rfl

theorem map_eq_ok {f : α → β} {b : β} : x.map f = .ok b ↔ ∃ a, x = .ok a ∧ f a = b := by
  cases x <;> simp [Except.map]

theorem mapError_eq_ok {f : ε → δ} {a : α} : x.mapError f = .ok a ↔ x = .ok a := by
  cases x <;> constructor <;> intro h <;> cases h <;> rfl

theorem bind_eq_ok {f : α → Except ε β} {b : β} :
    x >>= f = .ok b ↔ ∃ a, x = .ok a ∧ f a = .ok b := by
  cases x <;> simp [bind, Except.bind]

theorem bind_eq_error {f : α → Except ε β} {e : ε} :
    x >>= f = .error e ↔ x = .error e ∨ ∃ a, x = .ok a ∧ f a = .error e := by
  cases x <;> simp [bind, Except.bind]

end Except

namespace TapLint

namespace Scalar

/-! ### Keys -/

theorem sameKey_iff {a b : Scalar} : a.sameKey b = true ↔ a.keyForm = b.keyForm :=
  beq_iff_eq

theorem sameKey_comm (a b : Scalar) : a.sameKey b = b.sameKey a := by
  rw [Bool.eq_iff_iff, sameKey_iff, sameKey_iff, eq_comm]

theorem sameKey_congr {a b : Scalar} (h : a.sameKey b = true) (c : Scalar) :
    c.sameKey a = c.sameKey b := by
  rw [sameKey, sameKey, sameKey_iff.mp h]

/-- A text is the same key as itself and nothing else. -/
theorem sameKey_string_iff {a : Scalar} {s : String} :
    a.sameKey (string s) = true ↔ a = string s := by
  rw [sameKey_iff]
  constructor
  · intro h
    cases a with
    | float x =>
      cases hx : x.toInt? <;> rw [keyForm, hx] at h <;> cases h
    | string t => exact h
    | _ => cases h
  · rintro rfl
    rfl

end Scalar

namespace Value

variable {key : Scalar} {v : Value} {fields added : List (Scalar × Value)}

/-! ### Fields -/

/-- No key stands twice. -/
def DistinctKeys (fields : List (Scalar × Value)) : Prop := (fields.map (·.1.keyForm)).Nodup

instance (fields : List (Scalar × Value)) : Decidable (DistinctKeys fields) :=
  inferInstanceAs (Decidable (List.Nodup _))

theorem lookup_cons (f : Scalar × Value) :
    lookup key (f :: fields) = if f.1.sameKey key then some f.2 else lookup key fields := by
  rw [lookup, List.find?_cons]
  cases f.1.sameKey key <;> rfl

theorem lookup_congr {other : Scalar} (h : key.sameKey other = true)
    (fields : List (Scalar × Value)) : lookup key fields = lookup other fields := by
  simp only [lookup, Scalar.sameKey_congr h]

theorem lookup_append :
    lookup key (fields ++ added) = (lookup key fields).or (lookup key added) := by
  rw [lookup, List.find?_append, Option.map_or]
  rfl

theorem lookup_eq_none_iff :
    lookup key fields = none ↔ ∀ f ∈ fields, f.1.keyForm ≠ key.keyForm := by
  simp [lookup, ← Scalar.sameKey_iff]

theorem isSome_lookup_iff : (lookup key fields).isSome ↔ ∃ f ∈ fields, f.1.sameKey key := by
  rw [lookup, Option.isSome_map, List.find?_isSome]

/-- What is found under a key stands in a field of that key. -/
theorem exists_of_lookup (h : lookup key fields = some v) :
    ∃ k, k.sameKey key = true ∧ (k, v) ∈ fields := by
  obtain ⟨f, hf, rfl⟩ := Option.map_eq_some_iff.mp h
  have hsame := List.find?_some hf
  exact ⟨f.1, hsame, List.mem_of_find?_eq_some hf⟩

/-- Every field is found under its key. -/
theorem lookup_of_mem (hkeys : DistinctKeys fields) (h : (key, v) ∈ fields) :
    lookup key fields = some v := by
  induction fields with
  | nil => cases h
  | cons f fields ih =>
    rw [DistinctKeys, List.map_cons, List.nodup_cons] at hkeys
    rw [lookup_cons]
    rcases List.mem_cons.mp h with rfl | h
    · rw [if_pos (Scalar.sameKey_iff.mpr rfl)]
    · have hne : ¬f.1.sameKey key = true := by
        intro hsame
        refine hkeys.1 (List.mem_map.mpr ⟨_, h, (Scalar.sameKey_iff.mp hsame).symm⟩)
      rw [if_neg hne, ih hkeys.2 h]

theorem lookup_put (k : Scalar) :
    lookup key (put k v fields) = if k.sameKey key then some v else lookup key fields := by
  induction fields with
  | nil => rw [put, lookup_cons]
  | cons f fields ih =>
    rw [put]
    by_cases hf : f.1.keyForm = k.keyForm
    · -- the field keeps its key, which is the same as the one that is put
      simp only [Scalar.sameKey_iff, lookup_cons, hf, if_true]
      split <;> rfl
    · by_cases hk : k.keyForm = key.keyForm
      · have hkey : ¬f.1.keyForm = key.keyForm := hk ▸ hf
        simp only [Scalar.sameKey_iff, lookup_cons, ih, hk, hkey, if_true, if_false]
      · simp only [Scalar.sameKey_iff, lookup_cons, ih, hf, hk, if_false]

theorem map_keyForm_put (k : Scalar) :
    (put k v fields).map (·.1.keyForm) =
      if (lookup k fields).isSome then fields.map (·.1.keyForm)
      else fields.map (·.1.keyForm) ++ [k.keyForm] := by
  induction fields with
  | nil => rfl
  | cons f fields ih =>
    rw [put, lookup_cons]
    split
    · rfl
    · rw [List.map_cons, ih]
      split <;> rfl

theorem distinctKeys_put (h : DistinctKeys fields) (k : Scalar) (v : Value) :
    DistinctKeys (put k v fields) := by
  rw [DistinctKeys, map_keyForm_put]
  split
  next => exact h
  next hnone =>
    rw [Option.not_isSome_iff_eq_none, lookup_eq_none_iff] at hnone
    refine List.nodup_append.mpr ⟨h, List.pairwise_singleton _ _, fun a ha b hb => ?_⟩
    obtain ⟨f, hf, rfl⟩ := List.mem_map.mp ha
    rw [List.mem_singleton.mp hb]
    exact hnone f hf

theorem put_of_lookup_eq_none (h : lookup key fields = none) (v : Value) :
    put key v fields = fields ++ [(key, v)] := by
  rw [lookup_eq_none_iff] at h
  induction fields with
  | nil => rfl
  | cons f fields ih =>
    have hf : ¬f.1.sameKey key = true := fun hsame =>
      h f List.mem_cons_self (Scalar.sameKey_iff.mp hsame)
    rw [put, if_neg hf, ih fun g hg => h g (List.mem_cons_of_mem f hg), List.cons_append]

/-- Where a key stands, its field gets the value, and every other field stays. -/
theorem put_of_lookup_eq_some {old : Value} (hkeys : DistinctKeys fields)
    (h : lookup key fields = some old) (v : Value) :
    put key v fields = fields.map fun f => if f.1.sameKey key then (f.1, v) else f := by
  induction fields with
  | nil => cases h
  | cons f fields ih =>
    rw [DistinctKeys, List.map_cons, List.nodup_cons] at hkeys
    rw [put, List.map_cons]
    by_cases hf : f.1.sameKey key = true
    · have hothers : fields.map (fun g => if g.1.sameKey key then (g.1, v) else g) = fields := by
        refine (List.map_congr_left fun g hg => if_neg fun hsame => hkeys.1 ?_).trans
          (List.map_id' fields)
        rw [Scalar.sameKey_iff.mp hf, ← Scalar.sameKey_iff.mp hsame]
        exact List.mem_map_of_mem hg
      rw [if_pos hf, if_pos hf, hothers]
    · rw [lookup_cons, if_neg hf] at h
      rw [if_neg hf, if_neg hf, ih hkeys.2 h]

theorem mem_put {f : Scalar × Value} {k : Scalar} (h : f ∈ put k v fields) :
    f ∈ fields ∨ f.2 = v := by
  induction fields with
  | nil =>
    rw [List.mem_singleton.mp h]
    exact .inr rfl
  | cons g fields ih =>
    rw [put] at h
    split at h
    · rcases List.mem_cons.mp h with rfl | h
      · exact .inr rfl
      · exact .inl (List.mem_cons_of_mem g h)
    · rcases List.mem_cons.mp h with rfl | h
      · exact .inl List.mem_cons_self
      · exact (ih h).imp_left (List.mem_cons_of_mem g)

/-! ### Laying a map over another -/

theorem merge_map_map (fields added : List (Scalar × Value)) :
    merge (.map fields) (.map added) = .map (mergeFields fields added) := by rw [merge]

/-- What is laid over what a map has under a key. -/
def placed (key : Scalar) (v : Value) (fields : List (Scalar × Value)) : Value :=
  match lookup key fields with
  | some old => merge old v
  | none => v

theorem mergeFields_cons (fields : List (Scalar × Value)) (f : Scalar × Value) :
    mergeFields fields (f :: added) =
      mergeFields (put f.1 (placed f.1 f.2 fields) fields) added := by
  rw [mergeFields]
  rfl

theorem placed_congr {other : Scalar} (h : key.sameKey other = true) (v : Value)
    (fields : List (Scalar × Value)) : placed key v fields = placed other v fields := by
  rw [placed, placed, lookup_congr h]

variable {g : Scalar × Value}

theorem lookup_of_distinctKeys_cons (hkeys : DistinctKeys (g :: added)) {k : Scalar}
    (hk : k.sameKey g.1 = true) : lookup k added = none := by
  rw [DistinctKeys, List.map_cons, List.nodup_cons] at hkeys
  refine lookup_eq_none_iff.mpr fun f hf heq => hkeys.1 ?_
  rw [← Scalar.sameKey_iff.mp hk, ← heq]
  exact List.mem_map_of_mem hf

/-- Under a key that is laid over stands what it lays there; the others keep what they have. -/
theorem lookup_mergeFields (hkeys : DistinctKeys added) :
    lookup key (mergeFields fields added) =
      match lookup key added with
      | some v => some (placed key v fields)
      | none => lookup key fields := by
  induction added generalizing fields with
  | nil => rw [mergeFields]; rfl
  | cons f added ih =>
    rw [mergeFields_cons, ih (List.nodup_cons.mp hkeys).2, lookup_cons]
    by_cases hsame : f.1.sameKey key = true
    · have hnone : lookup key added = none :=
        lookup_of_distinctKeys_cons hkeys (Scalar.sameKey_comm f.1 key ▸ hsame)
      rw [hnone, if_pos hsame]
      simp only
      rw [lookup_put, if_pos hsame, placed_congr hsame]
    · have hput : ∀ v, lookup key (put f.1 v fields) = lookup key fields := fun v => by
        rw [lookup_put, if_neg hsame]
      rw [if_neg hsame]
      simp only [placed, hput]

theorem distinctKeys_mergeFields (hfields : DistinctKeys fields) :
    DistinctKeys (mergeFields fields added) := by
  induction added generalizing fields with
  | nil =>
    rw [mergeFields]
    exact hfields
  | cons f added ih =>
    rw [mergeFields_cons]
    exact ih (distinctKeys_put hfields _ _)

/-- A field with what is laid over it. -/
def laidOver (added : List (Scalar × Value)) (f : Scalar × Value) : Scalar × Value :=
  (f.1, match lookup f.1 added with
    | some v => merge f.2 v
    | none => f.2)

theorem laidOver_of_lookup_eq_none {f : Scalar × Value} (h : lookup f.1 added = none) :
    laidOver added f = f := by
  rw [laidOver, h]

theorem laidOver_cons (f g : Scalar × Value) :
    laidOver (g :: added) f =
      if g.1.sameKey f.1 then (f.1, merge f.2 g.2) else laidOver added f := by
  by_cases h : g.1.sameKey f.1 = true
  · rw [laidOver, lookup_cons, if_pos h, if_pos h]
  · rw [laidOver, lookup_cons, if_neg h, if_neg h, laidOver]

/-- One field that is laid over others changes the field of its key, or is a new one. -/
theorem map_laidOver_put (hfields : DistinctKeys fields) (hadded : DistinctKeys (g :: added)) :
    (put g.1 (placed g.1 g.2 fields) fields).map (laidOver added) =
      fields.map (laidOver (g :: added)) ++ if (lookup g.1 fields).isNone then [g] else [] := by
  cases hg : lookup g.1 fields with
  | none =>
    have hnew : laidOver added g = g :=
      laidOver_of_lookup_eq_none (lookup_of_distinctKeys_cons hadded (Scalar.sameKey_iff.mpr rfl))
    have hold : fields.map (laidOver added) = fields.map (laidOver (g :: added)) := by
      refine List.map_congr_left fun f hf => ?_
      have hne : ¬g.1.sameKey f.1 = true := fun hsame =>
        lookup_eq_none_iff.mp hg f hf (Scalar.sameKey_iff.mp hsame).symm
      rw [laidOver_cons, if_neg hne]
    rw [placed, hg, put_of_lookup_eq_none hg, List.map_append, List.map_singleton, hnew, hold]
    rfl
  | some old =>
    rw [placed, hg, put_of_lookup_eq_some hfields hg, List.map_map, Option.isNone_some,
      if_neg Bool.false_ne_true, List.append_nil]
    refine List.map_congr_left fun f hf => ?_
    rw [Function.comp_apply, laidOver_cons, Scalar.sameKey_comm g.1]
    by_cases hsame : f.1.sameKey g.1 = true
    · have hf : f.2 = old := by
        rw [← Option.some_inj, ← hg, ← lookup_congr hsame, lookup_of_mem hfields hf]
      -- the key stands once in what is laid over, so nothing more is laid over this field
      have hnone : lookup f.1 added = none := lookup_of_distinctKeys_cons hadded hsame
      rw [if_pos hsame, if_pos hsame, laidOver, hnone, hf]
    · rw [if_neg hsame, if_neg hsame]

/-- The fields of a map that is laid over another: those that were there, in their order, and
those that are new, in theirs. -/
theorem mergeFields_eq (hfields : DistinctKeys fields) (hadded : DistinctKeys added) :
    mergeFields fields added =
      fields.map (laidOver added) ++ added.filter fun f => (lookup f.1 fields).isNone := by
  induction added generalizing fields with
  | nil =>
    have hnone : fields.map (laidOver []) = fields :=
      (List.map_congr_left fun f _ => laidOver_of_lookup_eq_none rfl).trans (List.map_id' fields)
    rw [mergeFields, hnone, List.filter_nil, List.append_nil]
  | cons g added ih =>
    have hrest : DistinctKeys added := (List.nodup_cons.mp hadded).2
    -- what is laid over after this field has other keys, so it finds the map as it was
    have hfilter : ∀ v, (added.filter fun f => (lookup f.1 (put g.1 v fields)).isNone) =
        added.filter fun f => (lookup f.1 fields).isNone := by
      refine fun v => List.filter_congr fun f hf => ?_
      have hne : ¬g.1.sameKey f.1 = true := fun hsame => by
        rw [Scalar.sameKey_comm] at hsame
        have hnone := lookup_of_distinctKeys_cons hadded hsame
        rw [lookup_of_mem hrest hf] at hnone
        cases hnone
      rw [lookup_put, if_neg hne]
    rw [mergeFields_cons, ih (distinctKeys_put hfields _ _) hrest, hfilter,
      map_laidOver_put hfields hadded, List.append_assoc, List.filter_cons]
    split <;> rfl

/-! ### Proper values -/

/-- No map has a key twice, at any level of the value. -/
inductive IsProper : Value → Prop where
  | scalar (s : Scalar) : IsProper (.scalar s)
  | list {items : List Value} : (∀ v ∈ items, IsProper v) → IsProper (.list items)
  | set (members : List Scalar) : IsProper (.set members)
  | pair {a b : Value} : IsProper a → IsProper b → IsProper (.pair a b)
  | map {fields : List (Scalar × Value)} :
      DistinctKeys fields → (∀ f ∈ fields, IsProper f.2) → IsProper (.map fields)

theorem IsProper.distinctKeys (h : IsProper (.map fields)) : DistinctKeys fields := by
  cases h with
  | map hkeys _ => exact hkeys

theorem IsProper.of_mem {f : Scalar × Value} (h : IsProper (.map fields)) (hf : f ∈ fields) :
    f.2.IsProper := by
  cases h with
  | map _ hvalues => exact hvalues f hf

theorem IsProper.of_lookup (h : IsProper (.map fields)) (hv : lookup key fields = some v) :
    v.IsProper := by
  obtain ⟨k, -, hmem⟩ := exists_of_lookup hv
  exact h.of_mem hmem

theorem isProper_empty : IsProper (.map []) := .map List.nodup_nil (List.forall_mem_nil _)

theorem IsProper.put (h : IsProper (.map fields)) (k : Scalar) (hv : v.IsProper) :
    IsProper (.map (put k v fields)) := by
  refine .map (distinctKeys_put h.distinctKeys k v) fun f hf => ?_
  rcases mem_put hf with hf | rfl
  · exact h.of_mem hf
  · exact hv

end Value

namespace Yaml

theorem both_eq_ok {α β : Type} {x : Outcome α} {y : Outcome β} {p : α × β}
    (h : both x y = .ok p) : x = .ok p.1 ∧ y = .ok p.2 := by
  cases x with
  | ok a =>
    cases y with
    | ok b =>
      cases h
      exact ⟨rfl, rfl⟩
    | error e => cases h
  | error e =>
    cases y with
    | ok b => cases h
    | error f =>
      rw [both] at h
      split at h <;> cases h

mutual

theorem isProper_valueOf {n : Node} {v : Value} :
    ∀ {depth bound : Nat}, valueOf depth n bound = .ok v → v.IsProper
  | _, 0, h => by cases h
  | _, bound + 1, h => by
    unfold valueOf at h
    split at h
    · split at h
      · cases h
      next pairs _ =>
        obtain ⟨fields, hfields, rfl⟩ := Except.map_eq_ok.mp h
        exact isProper_fieldsOf Value.isProper_empty hfields
    split at h
    · split at h
      next items =>
        obtain ⟨values, hvalues, rfl⟩ := Except.map_eq_ok.mp h
        exact .list (isProper_itemsOf hvalues)
      · cases h
    split at h
    · split at h
      · cases h
      · obtain ⟨fields, -, rfl⟩ := Except.map_eq_ok.mp h
        exact .set _
    split at h
    · split at h
      next items =>
        obtain ⟨values, hvalues, rfl⟩ := Except.map_eq_ok.mp h
        exact .list (isProper_pairsOf hvalues)
      · cases h
    split at h
    · cases h
    split at h
    · cases h
      exact .scalar _
    · cases h
termination_by structural _ bound => bound

theorem isProper_itemsOf {ns : List Node} {vs : List Value} :
    ∀ {depth bound : Nat}, itemsOf depth ns bound = .ok vs → ∀ v ∈ vs, v.IsProper
  | _, 0, h => by cases h
  | _, bound + 1, h => by
    cases ns with
    | nil =>
      cases h
      exact List.forall_mem_nil _
    | cons n ns =>
      obtain ⟨⟨v, vs⟩, hboth, rfl⟩ := Except.map_eq_ok.mp h
      obtain ⟨hv, hvs⟩ := both_eq_ok hboth
      exact List.forall_mem_cons.mpr ⟨isProper_valueOf hv, isProper_itemsOf hvs⟩
termination_by structural _ bound => bound

theorem isProper_pairsOf {ns : List Node} {vs : List Value} :
    ∀ {depth bound : Nat}, pairsOf depth ns bound = .ok vs → ∀ v ∈ vs, v.IsProper
  | _, 0, h => by cases h
  | _, bound + 1, h => by
    unfold pairsOf at h
    split at h
    · cases h
      exact List.forall_mem_nil _
    · obtain ⟨⟨⟨a, b⟩, vs⟩, hboth, rfl⟩ := Except.map_eq_ok.mp h
      obtain ⟨hpair, hvs⟩ := both_eq_ok hboth
      obtain ⟨ha, hb⟩ := both_eq_ok hpair
      exact List.forall_mem_cons.mpr
        ⟨.pair (isProper_valueOf ha) (isProper_valueOf hb), isProper_pairsOf hvs⟩
    · cases h
termination_by structural _ bound => bound

/-- The fields that are known stay proper with each pair that is read. -/
theorem isProper_fieldsOf {sofar fields : List (Scalar × Value)} {pairs : List (Node × Node)}
    (hsofar : Value.IsProper (.map sofar)) :
    ∀ {depth bound : Nat}, fieldsOf depth sofar pairs bound = .ok fields →
      Value.IsProper (.map fields)
  | _, 0, h => by cases h
  | _, bound + 1, h => by
    cases pairs with
    | nil =>
      cases h
      exact hsofar
    | cons pair pairs =>
      rw [fieldsOf] at h
      split at h
      next key value hboth =>
        exact isProper_fieldsOf (hsofar.put key (isProper_valueOf (both_eq_ok hboth).2)) h
      next e _ =>
        obtain ⟨p, hp, -⟩ := Except.map_eq_ok.mp h
        cases (both_eq_ok hp).1
termination_by structural _ bound => bound

end

end Yaml

/-- Whether a reader makes of a text what it should: a value in which no map has a key twice, or
a complaint that the text is no YAML. -/
structure YamlReader.ReadsLawfully (yaml : YamlReader) (text : String) : Prop where
  isProper {v : Value} : yaml text = .ok v → v.IsProper
  isMalformed {why : YamlError} : yaml text = .error why → ∃ complaint, why = .malformed complaint

/-- No key stands twice in a map that is read from a text. -/
theorem Value.isProper_ofYaml {text : String} {v : Value} (h : Value.ofYaml text = .ok v) :
    v.IsProper := by
  obtain ⟨tokens, -, h⟩ := Except.bind_eq_ok.mp h
  obtain ⟨root, -, h⟩ := Except.bind_eq_ok.mp h
  cases root with
  | none =>
    cases h
    exact .scalar _
  | some n => exact Yaml.isProper_valueOf (Except.mapError_eq_ok.mp h)

end TapLint
