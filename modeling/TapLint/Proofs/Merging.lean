/-
What is kept when a map is laid over another.

A key path leads from a map to what stands under a key, and on from there (`Value.at?`).  Laying
`o` over `b` is the same at every level: where both have a value at a path, the one is laid over
the other there (`at?_merge`).  So what the whole map has at a path is told by how far `b` and `o`
have maps along it:

* `Overlay` — what stands at each path, and under which keys, in what order;
* `overlay_merge` — it holds of a map laid over another;
* `merge_self`, `merge_merge_self` — laying over what is already there changes nothing.
-/
import TapLint.Proofs.Maps

namespace TapLint.Value

variable {b o v w : Value} {key : Scalar} {path : List Scalar}
  {fields added : List (Scalar × Value)}

/-! ### Key paths -/

/-- The value under a key, which only a map has. -/
def get? : Value → Scalar → Option Value
  | map fields, key => lookup key fields
  | _, _ => none

/-- What stands at the end of a key path. -/
def at? (v : Value) : List Scalar → Option Value
  | [] => some v
  | key :: path => (v.get? key).bind (·.at? path)

/-- A value that has fields. -/
def IsMap (v : Value) : Prop := ∃ fields, v = map fields

theorem get?_map (fields : List (Scalar × Value)) (key : Scalar) :
    (map fields).get? key = lookup key fields := rfl

theorem at?_nil (v : Value) : v.at? [] = some v := rfl

theorem at?_cons (v : Value) (key : Scalar) (path : List Scalar) :
    v.at? (key :: path) = (v.get? key).bind (·.at? path) := rfl

theorem at?_append (v : Value) (path rest : List Scalar) :
    v.at? (path ++ rest) = (v.at? path).bind (·.at? rest) := by
  induction path generalizing v with
  | nil => rfl
  | cons key path ih =>
    rw [List.cons_append, at?_cons, at?_cons]
    cases v.get? key with
    | none => rfl
    | some w => exact ih w

/-- A key path that leads somewhere starts at a map that has its first key. -/
theorem at?_cons_eq_some (h : v.at? (key :: path) = some w) :
    ∃ fields u, v = map fields ∧ lookup key fields = some u ∧ u.at? path = some w := by
  obtain ⟨u, hu, hw⟩ := Option.bind_eq_some_iff.mp h
  cases v with
  | map fields => exact ⟨fields, u, rfl, hu, hw⟩
  | scalar _ | list _ | set _ | pair _ _ => cases hu

theorem IsProper.of_at? (hv : v.IsProper) (h : v.at? path = some w) : w.IsProper := by
  induction path generalizing v with
  | nil =>
    cases h
    exact hv
  | cons key path ih =>
    obtain ⟨fields, u, rfl, hu, hw⟩ := at?_cons_eq_some h
    exact ih (hv.of_lookup hu) hw

/-! ### One level -/

/-- Unless both are maps, the value that is laid over the other replaces it. -/
theorem merge_eq_right (h : ¬(b.IsMap ∧ o.IsMap)) : merge b o = o := by
  cases o with
  | scalar _ | list _ | set _ | pair _ _ => rw [merge]
  | map added =>
    cases b with
    | map fields => exact absurd ⟨⟨fields, rfl⟩, ⟨added, rfl⟩⟩ h
    | scalar _ | list _ | set _ | pair _ _ => rfl

theorem get?_merge_of_some (hkeys : DistinctKeys added) (h : lookup key added = some w) :
    (merge (map fields) (map added)).get? key = some (placed key w fields) := by
  rw [merge_map_map, get?_map, lookup_mergeFields hkeys, h]

theorem get?_merge_of_none (hkeys : DistinctKeys added) (h : lookup key added = none) :
    (merge (map fields) (map added)).get? key = lookup key fields := by
  rw [merge_map_map, get?_map, lookup_mergeFields hkeys, h]

/-! ### Every level -/

/-- Where both have a value, the one is laid over the other. -/
theorem at?_merge (ho : o.IsProper) (hv : b.at? path = some v) (hw : o.at? path = some w) :
    (merge b o).at? path = some (merge v w) := by
  induction path generalizing b o with
  | nil =>
    cases hv
    cases hw
    rfl
  | cons key path ih =>
    obtain ⟨fields, x, rfl, hx, hv⟩ := at?_cons_eq_some hv
    obtain ⟨added, y, rfl, hy, hw⟩ := at?_cons_eq_some hw
    rw [at?_cons, get?_merge_of_some ho.distinctKeys hy, placed, hx]
    exact ih (ho.of_lookup hy) hv hw

/-- What is laid over a map and is no map itself is not changed by what was there. -/
theorem at?_merge_upper (ho : o.IsProper) (hw : o.at? path = some w) (hmap : ¬w.IsMap) :
    (merge b o).at? path = some w := by
  induction path generalizing b o with
  | nil =>
    cases hw
    rw [merge_eq_right fun h => hmap h.2, at?_nil]
  | cons key path ih =>
    by_cases hb : b.IsMap
    · obtain ⟨fields, rfl⟩ := hb
      obtain ⟨added, y, rfl, hy, hw⟩ := at?_cons_eq_some hw
      rw [at?_cons, get?_merge_of_some ho.distinctKeys hy, placed]
      cases lookup key fields with
      | none => exact hw
      | some x => exact ih (ho.of_lookup hy) hw
    · rw [merge_eq_right fun h => hb h.1, hw]

/-- What is no map in the whole comes from the same path of one of the two. -/
theorem at?_of_at?_merge (ho : o.IsProper) (h : (merge b o).at? path = some v) (hv : ¬v.IsMap) :
    o.at? path = some v ∨ b.at? path = some v := by
  induction path generalizing b o with
  | nil =>
    by_cases hboth : b.IsMap ∧ o.IsMap
    · obtain ⟨⟨fields, rfl⟩, added, rfl⟩ := hboth
      rw [merge_map_map] at h
      cases h
      exact absurd ⟨_, rfl⟩ hv
    · rw [merge_eq_right hboth] at h
      exact .inl h
  | cons key path ih =>
    by_cases hboth : b.IsMap ∧ o.IsMap
    · obtain ⟨⟨fields, rfl⟩, added, rfl⟩ := hboth
      simp only [at?_cons, get?_map] at h ⊢
      cases hy : lookup key added with
      | none =>
        rw [get?_merge_of_none ho.distinctKeys hy] at h
        exact .inr h
      | some y =>
        rw [get?_merge_of_some ho.distinctKeys hy, placed] at h
        cases hx : lookup key fields with
        | none =>
          rw [hx] at h
          exact .inl h
        | some x =>
          rw [hx] at h
          exact ih (ho.of_lookup hy) h
    · rw [merge_eq_right hboth] at h
      exact .inl h

theorem map_key_mergeFields (hfields : DistinctKeys fields) (hadded : DistinctKeys added) :
    (mergeFields fields added).map (·.1) =
      fields.map (·.1) ++ (added.map (·.1)).filter fun k => (lookup k fields).isNone := by
  rw [mergeFields_eq hfields hadded, List.map_append, List.map_map, List.filter_map]
  rfl

/-! ### What is kept -/

/-- `m` has what `o` has, and what `b` has where `o` says nothing. -/
structure Overlay (b o m : Value) : Prop where
  /-- What `o` has and is no map stands in `m`. -/
  upper {path : List Scalar} {w : Value} :
    o.at? path = some w → ¬w.IsMap → m.at? path = some w
  /-- Where `o` has a map without the next key, `m` has what `b` has. -/
  lower {path rest : List Scalar} {key : Scalar} {added : List (Scalar × Value)} {v : Value} :
    b.at? (path ++ key :: rest) = some v → o.at? path = some (map added) →
      lookup key added = none → m.at? (path ++ key :: rest) = some v
  /-- What `m` has and is no map stands at its path in `o` or in `b`. -/
  origin {path : List Scalar} {v : Value} :
    m.at? path = some v → ¬v.IsMap → o.at? path = some v ∨ b.at? path = some v
  /-- Where both have a map, `m` has one with the keys of `b` and then the new ones of `o`, each
  in their order. -/
  keys {path : List Scalar} {fields added : List (Scalar × Value)} :
    b.at? path = some (map fields) → o.at? path = some (map added) →
      ∃ merged, m.at? path = some (map merged) ∧ merged.map (·.1) =
        fields.map (·.1) ++ (added.map (·.1)).filter fun k => (lookup k fields).isNone

theorem overlay_merge (hb : b.IsProper) (ho : o.IsProper) : Overlay b o (merge b o) where
  upper := at?_merge_upper ho
  lower {path rest key added v} hv hadded hnone := by
    rw [at?_append] at hv
    obtain ⟨u, hu, hv⟩ := Option.bind_eq_some_iff.mp hv
    -- `b` goes on with `key`, so it has a map at `path`, as `o` has
    obtain ⟨fields, x, rfl, hx, hv⟩ := at?_cons_eq_some hv
    have hkeys : DistinctKeys added := (ho.of_at? hadded).distinctKeys
    rw [at?_append, at?_merge ho hu hadded, Option.bind_some, at?_cons,
      get?_merge_of_none hkeys hnone, hx]
    exact hv
  origin := at?_of_at?_merge ho
  keys {path fields added} hfields hadded := by
    have hmerged := at?_merge ho hfields hadded
    rw [merge_map_map] at hmerged
    exact ⟨_, hmerged, map_key_mergeFields (hb.of_at? hfields).distinctKeys
      (ho.of_at? hadded).distinctKeys⟩

/-! ### Laws -/

/-- Fields that already have what is laid over them stay as they are. -/
theorem mergeFields_eq_self (hfields : DistinctKeys fields) (hadded : DistinctKeys added)
    (h : ∀ k v, lookup k added = some v → ∃ u, lookup k fields = some u ∧ merge u v = u) :
    mergeFields fields added = fields := by
  have hnew : (added.filter fun f => (lookup f.1 fields).isNone) = [] := by
    refine List.filter_eq_nil_iff.mpr fun f hf => ?_
    obtain ⟨u, hu, -⟩ := h f.1 f.2 (lookup_of_mem hadded hf)
    rw [hu, Option.isNone_some]
    exact Bool.false_ne_true
  have hold : fields.map (laidOver added) = fields := by
    refine (List.map_congr_left fun f hf => ?_).trans (List.map_id' fields)
    cases hv : lookup f.1 added with
    | none => exact laidOver_of_lookup_eq_none hv
    | some v =>
      obtain ⟨u, hu, hmerge⟩ := h f.1 v hv
      rw [lookup_of_mem hfields hf] at hu
      cases hu
      rw [laidOver, hv]
      exact Prod.ext rfl hmerge
  rw [mergeFields_eq hfields hadded, hnew, hold, List.append_nil]

theorem mergeFields_nil_left (hadded : DistinctKeys added) : mergeFields [] added = added := by
  rw [mergeFields_eq isProper_empty.distinctKeys hadded]
  exact List.filter_eq_self.mpr fun f _ => rfl

theorem merge_self (hv : v.IsProper) : merge v v = v := by
  induction hv with
  | scalar _ | list _ _ | set _ | pair _ _ _ _ => rw [merge]
  | map hkeys _ ih =>
    rw [merge_map_map, mergeFields_eq_self hkeys hkeys]
    intro k u hu
    obtain ⟨key, -, hmem⟩ := exists_of_lookup hu
    exact ⟨u, hu, ih _ hmem⟩

/-- A map that is laid over another a second time finds what it has laid there. -/
theorem merge_merge_self (hb : b.IsProper) (ho : o.IsProper) :
    merge (merge b o) o = merge b o := by
  induction ho generalizing b with
  | scalar _ | list _ _ | set _ | pair _ _ _ _ => rw [merge, merge]
  | @map added hkeys hvalues ih =>
    have ho : (map added).IsProper := .map hkeys hvalues
    by_cases hmap : b.IsMap
    · obtain ⟨fields, rfl⟩ := hmap
      have hmerged : DistinctKeys (mergeFields fields added) :=
        distinctKeys_mergeFields hb.distinctKeys
      rw [merge_map_map, merge_map_map, mergeFields_eq_self hmerged hkeys]
      intro k v hv
      obtain ⟨key, -, hmem⟩ := exists_of_lookup hv
      -- what stands under the key is what was laid there the first time
      refine ⟨placed k v fields, by rw [lookup_mergeFields hkeys, hv], ?_⟩
      rw [placed]
      cases hu : lookup k fields with
      | none => exact merge_self (ho.of_lookup hv)
      | some u => exact ih _ hmem (hb.of_lookup hu)
    · rw [merge_eq_right fun h => hmap h.1, merge_self ho]

/-- A map laid over another keeps exactly what it should, at every key path, and laying over
nothing, nothing, or what is already there changes nothing. -/
theorem merge_keeps (hb : (map fields).IsProper) (ho : (map added).IsProper) :
    Overlay (map fields) (map added) (merge (map fields) (map added)) ∧
      merge (map fields) (map []) = map fields ∧
      merge (map []) (map added) = map added ∧
      merge (map fields) (map fields) = map fields ∧
      merge (merge (map fields) (map added)) (map added) = merge (map fields) (map added) := by
  refine ⟨overlay_merge hb ho, ?_, ?_, merge_self hb, merge_merge_self hb ho⟩
  · rw [merge_map_map, mergeFields]
  · rw [merge_map_map, mergeFields_nil_left ho.distinctKeys]

/-- Settings of two cops. -/
def knownSettings : List (Scalar × Value) :=
  [(.string "policy_name", string "known"),
    (.string "cops", map [
      (.string "First", map [(.string "enabled", scalar (.bool true)),
        (.string "severity", string "warning")]),
      (.string "Second", map [(.string "enabled", scalar (.bool false))])])]

/-- Settings that change one setting of a cop, drop those of another and name a third. -/
def newSettings : List (Scalar × Value) :=
  [(.string "cops", map [
      (.string "Third", map []),
      (.string "Second", null),
      (.string "First", map [(.string "enabled", scalar (.bool false))])])]

theorem isProper_knownSettings : (map knownSettings).IsProper := by
  refine .map (by decide) (List.forall_mem_cons.mpr ⟨.scalar _, List.forall_mem_singleton.mpr ?_⟩)
  refine .map (by decide) (List.forall_mem_cons.mpr ⟨?_, List.forall_mem_singleton.mpr ?_⟩)
  · exact .map (by decide) (List.forall_mem_cons.mpr
      ⟨.scalar _, List.forall_mem_singleton.mpr (.scalar _)⟩)
  · exact .map (by decide) (List.forall_mem_singleton.mpr (.scalar _))

theorem isProper_newSettings : (map newSettings).IsProper := by
  refine .map (by decide) (List.forall_mem_singleton.mpr (.map (by decide) ?_))
  refine List.forall_mem_cons.mpr ⟨isProper_empty, List.forall_mem_cons.mpr ⟨.scalar _, ?_⟩⟩
  exact List.forall_mem_singleton.mpr
    (.map (by decide) (List.forall_mem_singleton.mpr (.scalar _)))

theorem merge_keeps_settings :
    merge (map knownSettings) (map newSettings) = map
      [(.string "policy_name", string "known"),
        (.string "cops", map [
          (.string "First", map [(.string "enabled", scalar (.bool false)),
            (.string "severity", string "warning")]),
          (.string "Second", null),
          (.string "Third", map [])])] ∧
      Overlay (map knownSettings) (map newSettings)
        (merge (map knownSettings) (map newSettings)) ∧
      merge (merge (map knownSettings) (map newSettings)) (map newSettings) =
        merge (map knownSettings) (map newSettings) := by
  obtain ⟨hoverlay, -, -, -, hagain⟩ := merge_keeps isProper_knownSettings isProper_newSettings
  exact ⟨rfl, hoverlay, hagain⟩

end TapLint.Value
