/-
Discovery finds exactly the formula files, in a fixed order.

What stands in a tree is what its chains of names lead to, and this is all that discovery goes
by:

* `Entry.mem_filesBelow_iff` — the files below an entry, by what a chain of names leads to;
* `Listing` — the formula files of a directory, ascending part by part;
* `Listing.unique` — there is only one such list;
* `Entry.Rearranged` — a tree with the entries of its directories in another order;
* `Entry.alike_of_rearranged` — the same stands at each place of it.

The main statement is `discover_exact`.
-/
import Mathlib.Data.List.Sort
import Mathlib.Data.String.Basic
import Mathlib.Order.Lex
import TapLint.Proofs.FileTree

namespace TapLint

namespace Entry

/-! ### Files by the names that lead to them -/

/-- What holds of files, and of a directory whenever it holds of its entries, holds of all. -/
@[elab_as_elim]
theorem induct {motive : Entry → Prop} (file : ∀ bytes, motive (.file bytes))
    (directory : ∀ entries, (∀ p ∈ entries, motive p.2) → motive (.directory entries))
    (e : Entry) : motive e := by
  cases e with
  | file bytes => exact file bytes
  | directory entries => exact directory entries fun p _ => induct file directory p.2
termination_by sizeOf e
decreasing_by
  have hmem := List.sizeOf_lt_of_mem ‹p ∈ entries›
  have hpair : sizeOf p = 1 + sizeOf p.1 + sizeOf p.2 := by cases p; rfl
  simp only [Entry.directory.sizeOf_spec]
  omega

theorem filesBelowList_eq_flatMap (entries : List (String × Entry)) :
    filesBelowList entries = entries.flatMap fun p => p.2.filesBelow.map (p.1 :: ·) := by
  induction entries with
  | nil => rfl
  | cons p entries ih => rw [filesBelowList, ih, List.flatMap_cons]

theorem hasDistinctNames_directory_iff {entries : List (String × Entry)} :
    (directory entries).hasDistinctNames ↔
      (entries.map (·.1)).Nodup ∧ ∀ p ∈ entries, p.2.hasDistinctNames := by
  rw [hasDistinctNames, Bool.and_eq_true, decide_eq_true_eq]
  refine and_congr_right fun _ => ⟨fun h p => hasDistinctNames_of_mem h, fun h => ?_⟩
  clear * - h
  induction entries with
  | nil => rfl
  | cons p entries ih =>
    obtain ⟨hp, hrest⟩ := List.forall_mem_cons.mp h
    rw [hasDistinctNamesList, Bool.and_eq_true]
    exact ⟨hp, ih hrest⟩

theorem child?_eq_some_iff {entries : List (String × Entry)} (h : (entries.map (·.1)).Nodup)
    {name : String} {c : Entry} :
    (directory entries).child? name = some c ↔ (name, c) ∈ entries := by
  constructor
  · intro hc
    obtain ⟨_, ⟨⟩, hfind⟩ := exists_entries_of_child? hc
    exact List.mem_of_find?_eq_some hfind
  · intro hmem
    cases hfind : entries.find? (·.1 == name) with
    | none => exact absurd (List.find?_eq_none.mp hfind _ hmem) (by simp)
    | some p =>
      -- there is one entry of this name
      have hp : p = (name, c) := by
        refine List.inj_on_of_nodup_map h (List.mem_of_find?_eq_some hfind) hmem ?_
        exact fst_eq_of_find?_eq_some hfind
      rw [child?, hfind, hp]
      rfl

/-- The files below an entry are those that a chain of names leads to. -/
theorem mem_filesBelow_iff {e : Entry} (h : e.hasDistinctNames) {names : List String} :
    names ∈ e.filesBelow ↔ ∃ bytes, e.at? names = some (file bytes) := by
  induction e using induct generalizing names with
  | file bytes =>
    rw [filesBelow, List.mem_singleton]
    constructor
    · rintro rfl
      exact ⟨bytes, rfl⟩
    · rintro ⟨_, hat⟩
      cases names with
      | nil => rfl
      | cons name rest => cases hat
  | directory entries ih =>
    obtain ⟨hnames, hentries⟩ := hasDistinctNames_directory_iff.mp h
    rw [filesBelow, filesBelowList_eq_flatMap, List.mem_flatMap]
    constructor
    · rintro ⟨p, hp, hmem⟩
      obtain ⟨rest, hrest, rfl⟩ := List.mem_map.mp hmem
      obtain ⟨bytes, hat⟩ := (ih p hp (hentries p hp)).mp hrest
      refine ⟨bytes, ?_⟩
      rw [at?, (child?_eq_some_iff hnames).mpr hp, Option.bind_some, hat]
    · rintro ⟨bytes, hat⟩
      cases names with
      | nil => cases hat
      | cons name rest =>
        obtain ⟨c, hc, hrest⟩ := Option.bind_eq_some_iff.mp hat
        have hmem := (child?_eq_some_iff hnames).mp hc
        exact ⟨_, hmem, List.mem_map_of_mem ((ih _ hmem (hentries _ hmem)).mpr ⟨bytes, hrest⟩)⟩

theorem nodup_filesBelow {e : Entry} (h : e.hasDistinctNames) : e.filesBelow.Nodup := by
  induction e using induct with
  | file bytes => exact List.nodup_singleton _
  | directory entries ih =>
    obtain ⟨hnames, hentries⟩ := hasDistinctNames_directory_iff.mp h
    rw [filesBelow, filesBelowList_eq_flatMap, List.nodup_flatMap]
    refine ⟨fun p hp => (ih p hp (hentries p hp)).map fun _ _ heq => (List.cons.inj heq).2, ?_⟩
    -- chains that begin with different names are different
    refine (List.pairwise_map.mp hnames).imp fun {p q} hne => List.disjoint_left.mpr ?_
    rintro _ hp hq
    obtain ⟨_, -, rfl⟩ := List.mem_map.mp hp
    obtain ⟨_, -, heq⟩ := List.mem_map.mp hq
    exact hne (List.cons.inj heq).1.symm

theorem at?_append (e : Entry) (place names : List String) :
    e.at? (place ++ names) = (e.at? place).bind (·.at? names) := by
  induction place generalizing e with
  | nil => rfl
  | cons name place ih =>
    rw [List.cons_append, at?, at?, Option.bind_assoc]
    exact congrArg _ (funext fun c => ih c)

theorem hasDistinctNames_of_at? {e c : Entry} {place : List String} (h : e.hasDistinctNames)
    (hc : e.at? place = some c) : c.hasDistinctNames := by
  induction place generalizing e with
  | nil =>
    cases hc
    exact h
  | cons name place ih =>
    obtain ⟨d, hd, hrest⟩ := Option.bind_eq_some_iff.mp hc
    obtain ⟨entries, rfl, hfind⟩ := exists_entries_of_child? hd
    exact ih ((hasDistinctNames_directory_iff.mp h).2 _ (List.mem_of_find?_eq_some hfind)) hrest

end Entry

/-! ### The order of paths -/

namespace Path

/-- A path comes before another one if its part is the lesser at the first place where they
differ, or if the other one goes on where it ends. -/
def Before (p q : Path) : Prop := List.Lex (· < ·) p.parts q.parts

instance : Std.Irrefl Before := ⟨fun p => lt_irrefl p.parts⟩

instance : Std.Antisymm Before := ⟨fun p _ hpq hqp => absurd hqp (lt_asymm (a := p.parts) hpq)⟩

theorem Before.append {names others : List String} (h : names < others) (p : Path) :
    (p.append names).Before (p.append others) :=
  List.Lex.append_left _ h p.parts

end Path

namespace Files

variable {files : Files} {recursive : Bool} {d d' : Entry} {p : Path}

/-! ### The formula files of a directory -/

theorem isAfter_iff {names others : List String} : isAfter names others ↔ others < names :=
  List.lex_eq_true_iff_lt

theorem isWanted_iff {names : List String} :
    isWanted recursive names ↔
      (recursive = false → names.length = 1) ∧
        ∃ name, names.getLast? = some name ∧ ['.', 'r', 'b'] <:+ name.toList := by
  have hlast : names.getLast?.any isFormulaFileName ↔
      ∃ name, names.getLast? = some name ∧ ['.', 'r', 'b'] <:+ name.toList := by
    rw [Option.any_eq_true]
    simp only [isFormulaFileName, formulaExtension, List.isSuffixOf_iff_suffix]
  rw [isWanted, Bool.and_eq_true, hlast]
  cases recursive <;> simp

theorem mem_formulaFiles_iff {names : List String} :
    names ∈ formulaFiles recursive d ↔ names ∈ d.filesBelow ∧ isWanted recursive names := by
  rw [formulaFiles, List.mem_mergeSort, List.mem_filter]

/-- The formula files of a directory ascend, and none of them is listed twice. -/
theorem pairwise_formulaFiles (h : d.hasDistinctNames) :
    (formulaFiles recursive d).Pairwise (· < ·) := by
  have hle : ∀ {a b : List String}, (!isAfter a b) = true ↔ a ≤ b := by
    intro a b
    rw [Bool.not_eq_true', Bool.eq_false_iff, ne_eq, isAfter_iff, not_lt]
  have hsorted : (formulaFiles recursive d).Pairwise (· ≤ ·) := by
    refine (List.pairwise_mergeSort ?_ ?_ _).imp hle.mp
    · exact fun a b c hab hbc => hle.mpr ((hle.mp hab).trans (hle.mp hbc))
    · intro a b
      rw [Bool.or_eq_true, hle, hle]
      exact le_total a b
  have hnodup : (formulaFiles recursive d).Nodup :=
    List.nodup_mergeSort.mpr ((Entry.nodup_filesBelow h).filter _)
  exact (hsorted.and hnodup).imp fun ⟨hab, hne⟩ => lt_of_le_of_ne hab hne

/-- A chain of names leads from a directory to a formula file: one that is called like that, and
stands right in the directory unless the search is recursive.  What the directories on the way
are called does not matter. -/
structure LeadsToFormula (recursive : Bool) (d : Entry) (names : List String) : Prop where
  isFile : ∃ bytes, d.at? names = some (.file bytes)
  direct : recursive = false → names.length = 1
  named : ∃ name, names.getLast? = some name ∧ ['.', 'r', 'b'] <:+ name.toList

/-- What a path to a directory stands for: its formula files, each once and in ascending order. -/
structure Listing (recursive : Bool) (p : Path) (d : Entry) (found : List Path) : Prop where
  mem_iff : ∀ q, q ∈ found ↔ ∃ names, q = p.append names ∧ LeadsToFormula recursive d names
  nodup : found.Nodup
  ascending : found.Pairwise Path.Before

theorem mem_formulaFiles_iff_leadsToFormula (h : d.hasDistinctNames) {names : List String} :
    names ∈ formulaFiles recursive d ↔ LeadsToFormula recursive d names := by
  rw [mem_formulaFiles_iff, Entry.mem_filesBelow_iff h, isWanted_iff]
  exact ⟨fun ⟨hfile, hdirect, hnamed⟩ => ⟨hfile, hdirect, hnamed⟩,
    fun ⟨hfile, hdirect, hnamed⟩ => ⟨hfile, hdirect, hnamed⟩⟩

theorem listing_formulaFiles (h : d.hasDistinctNames) (recursive : Bool) (p : Path) :
    Listing recursive p d ((formulaFiles recursive d).map p.append) := by
  have hascending : ((formulaFiles recursive d).map p.append).Pairwise Path.Before :=
    List.pairwise_map.mpr ((pairwise_formulaFiles h).imp fun hlt => .append hlt p)
  refine ⟨fun q => ?_, hascending.nodup, hascending⟩
  rw [List.mem_map]
  constructor
  · rintro ⟨names, hnames, rfl⟩
    exact ⟨names, rfl, (mem_formulaFiles_iff_leadsToFormula h).mp hnames⟩
  · rintro ⟨names, rfl, hleads⟩
    exact ⟨names, (mem_formulaFiles_iff_leadsToFormula h).mpr hleads, rfl⟩

/-- What a listing holds and its order leave no choice. -/
theorem Listing.unique {found found' : List Path} (h : Listing recursive p d found)
    (h' : Listing recursive p d found') : found = found' :=
  h.ascending.eq_of_mem_iff h'.ascending fun q => (h.mem_iff q).trans (h'.mem_iff q).symm

/-- A listing without subdirectories is what stands right in the directory, of a listing with
them. -/
theorem Listing.direct {all : List Path} (h : Listing true p d all) :
    Listing false p d (all.filter fun q => q.parts.dropLast = p.parts) := by
  have hdirect : ∀ {names : List String}, names ≠ [] →
      ((p.append names).parts.dropLast = p.parts ↔ names.length = 1) := by
    intro names hne
    rw [Path.append, List.dropLast_append_of_ne_nil hne, List.append_right_eq_self,
      ← List.length_eq_zero_iff, List.length_dropLast]
    have hlength := List.length_pos_iff.mpr hne
    omega
  refine ⟨fun q => ?_, h.nodup.filter _, h.ascending.filter _⟩
  rw [List.mem_filter, decide_eq_true_eq, h.mem_iff]
  constructor
  · rintro ⟨⟨names, rfl, hleads⟩, hparent⟩
    obtain ⟨name, hname, -⟩ := hleads.named
    have hne : names ≠ [] := by
      rintro rfl
      cases hname
    exact ⟨names, rfl, hleads.isFile, fun _ => (hdirect hne).mp hparent, hleads.named⟩
  · rintro ⟨names, rfl, hleads⟩
    have hlength := hleads.direct rfl
    have hne : names ≠ [] := List.ne_nil_of_length_pos (hlength ▸ Nat.one_pos)
    exact ⟨⟨names, rfl, hleads.isFile, nofun, hleads.named⟩, (hdirect hne).mpr hlength⟩

/-- What a path stands for: a file for itself, whatever it is called, and a directory for its
formula files. -/
inductive StandsFor (files : Files) (recursive : Bool) (p : Path) : List Path → Prop where
  | file {bytes : List UInt8} :
      files.entry? p = some (.file bytes) → StandsFor files recursive p [p]
  | directory {entries : List (String × Entry)} {found : List Path} :
      files.entry? p = some (.directory entries) →
      Listing recursive p (.directory entries) found → StandsFor files recursive p found

theorem hasDistinctNames_of_stands (h : files.root.hasDistinctNames)
    (hd : files.entry? p = some d) : d.hasDistinctNames := by
  obtain ⟨place, -, hat⟩ := Option.bind_eq_some_iff.mp hd
  exact Entry.hasDistinctNames_of_at? h hat

theorem standsFor_of_expand (h : files.root.hasDistinctNames) {found : List Path}
    (hfound : files.expand recursive p = .ok found) : StandsFor files recursive p found := by
  rw [expand] at hfound
  split at hfound
  next entries hentry =>
    cases hfound
    exact .directory hentry (listing_formulaFiles (hasDistinctNames_of_stands h hentry) recursive p)
  next bytes hentry =>
    cases hfound
    exact .file hentry
  next => cases hfound

/-- If every path leads somewhere, discovery puts together what they stand for. -/
theorem exists_discover_eq_flatten (h : files.root.hasDistinctNames) (recursive : Bool)
    {paths : List String} (hpaths : ∀ s ∈ paths, files.has (Path.ofString s)) :
    ∃ founds, List.Forall₂ (fun s => StandsFor files recursive (Path.ofString s)) paths founds ∧
      files.discover recursive paths = .ok founds.flatten := by
  induction paths with
  | nil => exact ⟨[], .nil, discover_nil⟩
  | cons s paths ih =>
    obtain ⟨hs, hrest⟩ := List.forall_mem_cons.mp hpaths
    obtain ⟨found, hfound⟩ : ∃ found, files.expand recursive (Path.ofString s) = .ok found :=
      expand_of_has hs
    obtain ⟨founds, hfounds, hdiscover⟩ := ih hrest
    refine ⟨found :: founds, .cons (standsFor_of_expand h hfound) hfounds, ?_⟩
    exact discover_cons_eq_ok_iff.mpr ⟨found, founds.flatten, hfound, hdiscover, rfl⟩

end Files

/-! ### Entries in another order -/

namespace Entry

/-- The same stands at each place of two entries: nothing, a directory, or a file that holds the
same. -/
def Alike (e e' : Entry) : Prop :=
  ∀ names, (e.at? names).map bytes? = (e'.at? names).map bytes?

/-- An entry with the entries of its directories in another order, at any depth. -/
inductive Rearranged : Entry → Entry → Prop where
  | refl (e : Entry) : Rearranged e e
  | trans {e e' e'' : Entry} : Rearranged e e' → Rearranged e' e'' → Rearranged e e''
  | permuted {entries entries' : List (String × Entry)} :
      entries.Perm entries' → Rearranged (directory entries) (directory entries')
  | inside {before after : List (String × Entry)} {name : String} {e e' : Entry} :
      Rearranged e e' →
      Rearranged (directory (before ++ (name, e) :: after))
        (directory (before ++ (name, e') :: after))

variable {e e' : Entry}

theorem child?_eq_none_iff {entries : List (String × Entry)} {name : String} :
    (directory entries).child? name = none ↔ name ∉ entries.map (·.1) := by
  rw [child?, Option.map_eq_none_iff, List.find?_eq_none]
  constructor
  · intro h hname
    obtain ⟨p, hp, rfl⟩ := List.mem_map.mp hname
    exact h p hp (beq_self_eq_true p.1)
  · intro h p hp hname
    exact h (eq_of_beq hname ▸ List.mem_map_of_mem hp)

/-- Directories with the same names are alike if what stands under each name is. -/
theorem alike_directory {entries entries' : List (String × Entry)}
    (h : (entries.map (·.1)).Nodup) (h' : (entries'.map (·.1)).Nodup)
    (hnames : ∀ name, name ∈ entries.map (·.1) ↔ name ∈ entries'.map (·.1))
    (halike : ∀ p ∈ entries, ∃ c, (p.1, c) ∈ entries' ∧ p.2.Alike c) :
    (directory entries).Alike (directory entries') := by
  intro names
  cases names with
  | nil => rfl
  | cons name rest =>
    rw [at?, at?]
    cases hc : (directory entries).child? name with
    | none =>
      have hnone : (directory entries').child? name = none := by
        rwa [child?_eq_none_iff, ← hnames, ← child?_eq_none_iff]
      rw [hnone]
    | some c =>
      obtain ⟨c', hmem, hsame⟩ := halike (name, c) ((child?_eq_some_iff h).mp hc)
      rw [(child?_eq_some_iff h').mpr hmem]
      exact hsame rest

/-- In whatever order the entries are, names stay distinct and the same stands at each place. -/
theorem alike_of_rearranged (h : Rearranged e e') (hnames : e.hasDistinctNames) :
    e'.hasDistinctNames ∧ e.Alike e' := by
  induction h with
  | refl e => exact ⟨hnames, fun _ => rfl⟩
  | trans _ _ ih ih' =>
    obtain ⟨hmiddle, halike⟩ := ih hnames
    obtain ⟨hlast, halike'⟩ := ih' hmiddle
    exact ⟨hlast, fun names => (halike names).trans (halike' names)⟩
  | permuted hperm =>
    obtain ⟨hnodup, hentries⟩ := hasDistinctNames_directory_iff.mp hnames
    have hnodup' := (hperm.map (·.1)).nodup_iff.mp hnodup
    refine ⟨hasDistinctNames_directory_iff.mpr ⟨hnodup', fun p hp => ?_⟩, ?_⟩
    · exact hentries p (hperm.mem_iff.mpr hp)
    · exact alike_directory hnodup hnodup' (fun name => (hperm.map (·.1)).mem_iff)
        fun p hp => ⟨p.2, hperm.mem_iff.mp hp, fun _ => rfl⟩
  | @inside before after name e e' _ ih =>
    obtain ⟨hnodup, hentries⟩ := hasDistinctNames_directory_iff.mp hnames
    obtain ⟨hchanged, halike⟩ := ih (hentries (name, e) (by simp))
    have hmap : (before ++ (name, e') :: after).map (·.1) =
        (before ++ (name, e) :: after).map (·.1) := by simp
    have hnodup' : ((before ++ (name, e') :: after).map (·.1)).Nodup := hmap ▸ hnodup
    refine ⟨hasDistinctNames_directory_iff.mpr ⟨hnodup', fun p hp => ?_⟩, ?_⟩
    · rcases List.mem_append.mp hp with hp | hp
      · exact hentries p (List.mem_append_left _ hp)
      · rcases List.mem_cons.mp hp with rfl | hp
        · exact hchanged
        · exact hentries p (List.mem_append_right _ (List.mem_cons_of_mem _ hp))
    · refine alike_directory hnodup hnodup' (fun n => by rw [hmap]) fun p hp => ?_
      -- only what stands under `name` is another entry now
      rcases List.mem_append.mp hp with hp | hp
      · exact ⟨p.2, List.mem_append_left _ hp, fun _ => rfl⟩
      · rcases List.mem_cons.mp hp with rfl | hp
        · exact ⟨e', by simp, halike⟩
        · exact ⟨p.2, List.mem_append_right _ (List.mem_cons_of_mem _ hp), fun _ => rfl⟩

theorem isDirectory_eq (e : Entry) : e.isDirectory = e.bytes?.isNone := by
  cases e <;> rfl

theorem at?_eq_file_iff {names : List String} {bytes : List UInt8} :
    e.at? names = some (file bytes) ↔ (e.at? names).map bytes? = some (some bytes) := by
  rcases e.at? names with _ | (_ | _) <;> simp [bytes?]

/-- What stands at one place of two entries that are alike is alike. -/
theorem Alike.of_at? (h : e.Alike e') {place : List String} {c c' : Entry}
    (hc : e.at? place = some c) (hc' : e'.at? place = some c') : c.Alike c' := by
  intro names
  have hnames := h (place ++ names)
  rwa [at?_append, at?_append, hc, hc'] at hnames

end Entry

namespace Files

variable {files : Files} {recursive : Bool} {root : Entry}

theorem follow?_alike (h : files.root.Alike root) (place parts : List String) :
    follow? root place parts = follow? files.root place parts := by
  induction parts generalizing place with
  | nil =>
    rw [follow?, follow?, ← Option.isSome_map (f := Entry.bytes?), ← h place, Option.isSome_map]
  | cons part rest ih =>
    have hdirectory : (root.at? place).any Entry.isDirectory =
        (files.root.at? place).any Entry.isDirectory := by
      have hany : ∀ e : Entry, (e.at? place).any Entry.isDirectory =
          ((e.at? place).map Entry.bytes?).any Option.isNone := by
        intro e
        rw [Option.any_map]
        exact congrArg (Option.any · _) (funext Entry.isDirectory_eq)
      rw [hany, hany, h place]
    rw [follow?, follow?, hdirectory, ih]

theorem formulaFiles_alike {d d' : Entry} (h : d.Alike d') (hnames : d.hasDistinctNames)
    (hnames' : d'.hasDistinctNames) (recursive : Bool) :
    formulaFiles recursive d' = formulaFiles recursive d := by
  refine (pairwise_formulaFiles hnames').eq_of_mem_iff (pairwise_formulaFiles hnames) ?_
  intro names
  rw [mem_formulaFiles_iff, mem_formulaFiles_iff, Entry.mem_filesBelow_iff hnames,
    Entry.mem_filesBelow_iff hnames']
  simp only [Entry.at?_eq_file_iff, h names]

theorem expand_alike (h : files.root.Alike root) (hnames : files.root.hasDistinctNames)
    (hnames' : root.hasDistinctNames) (recursive : Bool) (p : Path) :
    { files with root := root }.expand recursive p = files.expand recursive p := by
  have hresolve : { files with root := root }.resolve? p = files.resolve? p := follow?_alike h _ _
  rw [expand, expand, entry?, entry?, hresolve]
  cases files.resolve? p with
  | none => rfl
  | some place =>
    have hplace := h place
    rw [Option.bind_some, Option.bind_some]
    cases hat : files.root.at? place with
    | none =>
      have hat' : root.at? place = none := by simpa [hat] using hplace.symm
      rw [hat']
    | some d =>
      obtain ⟨d', hat', hbytes⟩ : ∃ d', root.at? place = some d' ∧ d'.bytes? = d.bytes? := by
        simpa [hat] using hplace.symm
      rw [hat']
      cases d with
      | file bytes =>
        cases d' with
        | file bytes' => rfl
        | directory entries' => cases hbytes
      | directory entries =>
        cases d' with
        | file bytes' => cases hbytes
        | directory entries' =>
          have hformulae := formulaFiles_alike (h.of_at? hat hat')
            (Entry.hasDistinctNames_of_at? hnames hat) (Entry.hasDistinctNames_of_at? hnames' hat')
            recursive
          simp only [hformulae]

theorem discover_alike (h : files.root.Alike root) (hnames : files.root.hasDistinctNames)
    (hnames' : root.hasDistinctNames) (recursive : Bool) (paths : List String) :
    { files with root := root }.discover recursive paths = files.discover recursive paths := by
  simp only [discover, expand_alike h hnames hnames']

/-- **Discovery finds exactly the formula files, in a fixed order.**  It fails at the first path
that leads nowhere, and otherwise puts together what the paths stand for.  Of a directory it finds
without its subdirectories what it finds right in it with them, and the order in which
directories have their entries does not matter. -/
theorem discover_exact (hnames : files.root.hasDistinctNames) (recursive : Bool)
    (paths : List String) :
    (∀ e, files.discover recursive paths = .error e ↔
      ∃ before s after, paths = before ++ s :: after ∧
        (∀ q ∈ before, files.has (Path.ofString q)) ∧ ¬files.has (Path.ofString s) ∧
        e = .noSuchPath (Path.ofString s).shown) ∧
    ((∀ s ∈ paths, files.has (Path.ofString s)) →
      ∃ founds, List.Forall₂ (fun s => StandsFor files recursive (Path.ofString s)) paths founds ∧
        files.discover recursive paths = .ok founds.flatten) ∧
    (∀ s entries, files.entry? (Path.ofString s) = some (.directory entries) →
      ∃ all, files.discover true [s] = .ok all ∧
        files.discover false [s] =
          .ok (all.filter fun q => q.parts.dropLast = (Path.ofString s).parts)) ∧
    ∀ root, files.root.Rearranged root →
      { files with root := root }.discover recursive paths = files.discover recursive paths := by
  refine ⟨fun e => discover_eq_error_iff, exists_discover_eq_flatten hnames recursive, ?_, ?_⟩
  · intro s entries hentry
    have hd := hasDistinctNames_of_stands hnames hentry
    have hexpand : ∀ recursive, files.discover recursive [s] =
        .ok ((formulaFiles recursive (.directory entries)).map (Path.ofString s).append) := by
      intro recursive
      rw [discover_cons, expand, hentry, discover_nil]
      exact congrArg Except.ok (List.append_nil _)
    refine ⟨_, hexpand true, ?_⟩
    rw [hexpand false]
    exact congrArg Except.ok <|
      (listing_formulaFiles hd false _).unique (listing_formulaFiles hd true _).direct
  · intro root hroot
    obtain ⟨hnames', halike⟩ := Entry.alike_of_rearranged hroot hnames
    exact discover_alike halike hnames hnames' recursive paths

/-! ### A directory that is called like a formula file -/

/-- A directory with two directories, one of them called like a formula file. -/
def brewery : Entry :=
  .directory [
    ("a", .directory [("x.rb", .file []), ("x.txt", .file [])]),
    ("a-b.rb", .file []),
    ("b.rb", .file []),
    ("c.rb", .directory [("y.rb", .file [])])]

/-- The directory with its entries in the opposite order. -/
def reversedBrewery : Entry :=
  .directory [
    ("c.rb", .directory [("y.rb", .file [])]),
    ("b.rb", .file []),
    ("a-b.rb", .file []),
    ("a", .directory [("x.rb", .file []), ("x.txt", .file [])])]

/-- The directory in a tree, beside a file with another extension. -/
def brewed (directory : Entry) : Files :=
  { root := .directory [("d", directory), ("f.txt", .file [])], here := [] }

/-- `a/x.rb` comes before `a-b.rb`, although the slash comes after the hyphen. -/
theorem discover_exact_brewery :
    (brewed brewery).root.hasDistinctNames ∧
      (brewed brewery).root.Rearranged (brewed reversedBrewery).root ∧
      (brewed reversedBrewery).discover true ["f.txt", "d"] =
        .ok [⟨0, ["f.txt"]⟩, ⟨0, ["d", "a", "x.rb"]⟩, ⟨0, ["d", "a-b.rb"]⟩, ⟨0, ["d", "b.rb"]⟩,
          ⟨0, ["d", "c.rb", "y.rb"]⟩] ∧
      (brewed brewery).discover false ["d"] = .ok [⟨0, ["d", "a-b.rb"]⟩, ⟨0, ["d", "b.rb"]⟩] ∧
      (brewed brewery).discover true ["d", "x", "y"] = .error (.noSuchPath "x") := by
  have hnames : (brewed brewery).root.hasDistinctNames := by decide +kernel
  have hreversed : (brewed brewery).root.Rearranged (brewed reversedBrewery).root :=
    @Entry.Rearranged.inside [] _ _ _ _ (.permuted (List.reverse_perm _).symm)
  have hformulae : formulaFiles true brewery =
      [["a", "x.rb"], ["a-b.rb"], ["b.rb"], ["c.rb", "y.rb"]] := by
    rw [formulaFiles, List.mergeSort_of_pairwise (by decide +kernel)]
    decide +kernel
  have hentry : Files.entry? (brewed brewery) (Path.ofString "d") = some brewery := by rfl
  have hexpand : (brewed brewery).expand true (Path.ofString "d") =
      .ok [⟨0, ["d", "a", "x.rb"]⟩, ⟨0, ["d", "a-b.rb"]⟩, ⟨0, ["d", "b.rb"]⟩,
        ⟨0, ["d", "c.rb", "y.rb"]⟩] := by
    rw [expand, hentry]
    show Except.ok ((formulaFiles true brewery).map (Path.ofString "d").append) = _
    rw [hformulae]
    rfl
  have hdirectory := discover_cons_eq_ok_iff.mpr ⟨_, _, hexpand, discover_nil, rfl⟩
  obtain ⟨herror, -, hdirect, hrearranged⟩ := discover_exact hnames true ["f.txt", "d"]
  refine ⟨hnames, hreversed, ?_, ?_, ?_⟩
  · refine (hrearranged _ hreversed).trans (discover_cons_eq_ok_iff.mpr ?_)
    exact ⟨[⟨0, ["f.txt"]⟩], _, by rfl, hdirectory, rfl⟩
  · obtain ⟨all, hall, hfound⟩ := hdirect "d" _ hentry
    rw [hdirectory, Except.ok.injEq] at hall
    rw [hfound, ← hall]
    decide +kernel
  · exact ((discover_exact hnames true ["d", "x", "y"]).1 _).mpr
      ⟨["d"], "x", ["y"], rfl, by decide +kernel, by decide +kernel, by decide +kernel⟩

end Files

end TapLint
