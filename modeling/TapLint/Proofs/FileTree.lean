/-
Discovery does not look into files.

Which files some paths stand for depends on the names in a tree and on what is a
directory, and on nothing that a file holds.  Reading a file, in turn, depends on what
stands at its own place.

* `Entry.emptied` — an entry whose files hold nothing;
* `Files.discover_emptied` — discovery finds in a tree what it finds in the emptied one;
* `Files.discover_append`, `Files.discover_eq_error_iff` — discovery path by path, and when
  it fails;
* `Files.SameBut` — trees that differ at most in what the file at one place holds;
* `Files.sameBut_write` — so do a tree and the same tree with a file overwritten.
-/
import Mathlib.Data.List.Nodup
import TapLint.Files.Discovery

namespace TapLint

namespace Entry

/-! ### Entries without their contents -/

mutual

/-- An entry whose files hold nothing. -/
def emptied : Entry → Entry
  | file _ => file []
  | directory entries => directory (emptiedList entries)

/-- The entries of a directory whose files hold nothing. -/
def emptiedList : List (String × Entry) → List (String × Entry)
  | [] => []
  | (name, e) :: rest => (name, emptied e) :: emptiedList rest

end

theorem emptiedList_eq_map (entries : List (String × Entry)) :
    emptiedList entries = entries.map fun p => (p.1, p.2.emptied) := by
  induction entries with
  | nil => rw [emptiedList, List.map_nil]
  | cons p entries ih => rw [emptiedList, ih, List.map_cons]

@[simp] theorem isDirectory_emptied (e : Entry) : e.emptied.isDirectory = e.isDirectory := by
  cases e <;> rw [emptied] <;> rfl

theorem child?_emptied (name : String) (e : Entry) :
    e.emptied.child? name = (e.child? name).map emptied := by
  cases e with
  | file bytes =>
    rw [emptied]
    rfl
  | directory entries =>
    rw [emptied, child?, child?, emptiedList_eq_map, List.find?_map, Option.map_map,
      Option.map_map]
    rfl

theorem at?_emptied (e : Entry) (place : List String) :
    e.emptied.at? place = (e.at? place).map emptied := by
  induction place generalizing e with
  | nil => rfl
  | cons name rest ih =>
    rw [at?, at?, child?_emptied]
    cases e.child? name with
    | none => rfl
    | some c => exact ih c

mutual

theorem filesBelow_emptied : (e : Entry) → e.emptied.filesBelow = e.filesBelow
  | file _ => by rw [emptied, filesBelow, filesBelow]
  | directory entries => by
    rw [emptied, filesBelow, filesBelow, filesBelowList_emptied entries]

theorem filesBelowList_emptied :
    (entries : List (String × Entry)) →
      filesBelowList (emptiedList entries) = filesBelowList entries
  | [] => by rw [emptiedList]
  | (name, e) :: rest => by
    rw [emptiedList, filesBelowList, filesBelowList, filesBelow_emptied e,
      filesBelowList_emptied rest]

end

/-! ### Overwriting a file -/

mutual

/-- Whether no directory has two entries of one name. -/
def hasDistinctNames : Entry → Bool
  | file _ => true
  | directory entries => decide (entries.map (·.1)).Nodup && hasDistinctNamesList entries

/-- Whether no directory among some entries has two entries of one name. -/
def hasDistinctNamesList : List (String × Entry) → Bool
  | [] => true
  | (_, e) :: rest => hasDistinctNames e && hasDistinctNamesList rest

end

theorem hasDistinctNames_of_mem {entries : List (String × Entry)}
    (h : hasDistinctNamesList entries) {p : String × Entry} (hp : p ∈ entries) :
    p.2.hasDistinctNames := by
  induction entries with
  | nil => exact absurd hp List.not_mem_nil
  | cons q entries ih =>
    rw [hasDistinctNamesList, Bool.and_eq_true] at h
    rcases List.mem_cons.mp hp with rfl | hp
    · exact h.1
    · exact ih h.2 hp

theorem fst_eq_of_find?_eq_some {entries : List (String × Entry)} {name : String}
    {p : String × Entry} (h : entries.find? (·.1 == name) = some p) : p.1 = name := by
  have hp := List.find?_some h
  exact eq_of_beq hp

/-- What stands below a directory is below one of its entries. -/
theorem exists_entries_of_child? {e c : Entry} {name : String} (h : e.child? name = some c) :
    ∃ entries, e = directory entries ∧ entries.find? (·.1 == name) = some (name, c) := by
  cases e with
  | file bytes => cases h
  | directory entries =>
    obtain ⟨p, hp, rfl⟩ := Option.map_eq_some_iff.mp h
    exact ⟨entries, rfl, by rw [hp, ← fst_eq_of_find?_eq_some hp]⟩

/-- Putting something below an entry replaces that entry and no other. -/
theorem put_cons {new c : Entry} {entries : List (String × Entry)} {name : String}
    {rest : List String} (h : entries.find? (·.1 == name) = some (name, c)) :
    put new (directory entries) (name :: rest) =
      directory (entries.map fun p => if p.1 == name then (name, put new c rest) else p) := by
  have hany : entries.any (·.1 == name) = true := by
    rw [List.any_eq_true]
    exact ⟨(name, c), List.mem_of_find?_eq_some h, beq_self_eq_true name⟩
  rw [put, if_pos hany, h]
  rfl

theorem child?_put {new c : Entry} {entries : List (String × Entry)} {name : String}
    {rest : List String} (h : entries.find? (·.1 == name) = some (name, c)) (other : String) :
    (put new (directory entries) (name :: rest)).child? other =
      if other = name then some (put new c rest) else (directory entries).child? other := by
  have hsame : ∀ p : String × Entry,
      (if p.1 == name then (name, put new c rest) else p).1 = p.1 := by
    intro p
    split
    next hp => exact (eq_of_beq hp).symm
    next => rfl
  rw [put_cons h, child?, child?, List.find?_map]
  simp only [Function.comp_def, hsame, Option.map_map]
  by_cases hother : other = name
  · rw [if_pos hother, hother, h]
    simp
  · rw [if_neg hother]
    cases hfind : entries.find? (·.1 == other) with
    | none => rfl
    | some p =>
      have hne : p.1 ≠ name := by rwa [fst_eq_of_find?_eq_some hfind]
      simp [hne]

/-- Overwriting a file changes no name and makes nothing a directory. -/
theorem emptied_put_file {e : Entry} {place : List String} {old : List UInt8}
    (bytes : List UInt8) (hnames : e.hasDistinctNames) (h : e.at? place = some (file old)) :
    (put (file bytes) e place).emptied = e.emptied := by
  induction place generalizing e with
  | nil =>
    rw [at?, Option.some_inj] at h
    rw [h, put, emptied, emptied]
  | cons name rest ih =>
    obtain ⟨c, hc, hrest⟩ := Option.bind_eq_some_iff.mp h
    obtain ⟨entries, rfl, hfind⟩ := exists_entries_of_child? hc
    rw [hasDistinctNames, Bool.and_eq_true, decide_eq_true_eq] at hnames
    have hplaced : (put (file bytes) c rest).emptied = c.emptied :=
      ih (hasDistinctNames_of_mem hnames.2 (List.mem_of_find?_eq_some hfind)) hrest
    rw [put_cons hfind, emptied, emptied, emptiedList_eq_map, emptiedList_eq_map, List.map_map]
    congr 1
    refine List.map_congr_left fun p hp => ?_
    rw [Function.comp_apply]
    split
    next hname =>
      -- there is one entry of this name, so it is the one that was found
      have hpc : p = (name, c) := by
        refine List.inj_on_of_nodup_map hnames.1 hp (List.mem_of_find?_eq_some hfind) ?_
        exact eq_of_beq hname
      rw [hpc, hplaced]
    next => rfl

/-- Overwriting a file leaves alone what other files hold. -/
theorem bytes_put_file {e : Entry} {place other : List String} {old : List UInt8}
    (bytes : List UInt8) (h : e.at? place = some (file old)) (hother : other ≠ place) :
    ((put (file bytes) e place).at? other).bind bytes? = (e.at? other).bind bytes? := by
  induction place generalizing e other with
  | nil =>
    rw [at?, Option.some_inj] at h
    rw [h, put]
    cases other with
    | nil => exact absurd rfl hother
    | cons name rest => rfl
  | cons name rest ih =>
    obtain ⟨c, hc, hrest⟩ := Option.bind_eq_some_iff.mp h
    obtain ⟨entries, rfl, hfind⟩ := exists_entries_of_child? hc
    cases other with
    | nil =>
      rw [put_cons hfind]
      rfl
    | cons name' rest' =>
      rw [at?, at?, child?_put hfind]
      by_cases hname : name' = name
      · rw [if_pos hname, hname, hc, Option.bind_some, Option.bind_some]
        refine ih hrest fun heq => hother ?_
        rw [hname, heq]
      · rw [if_neg hname]

end Entry

namespace Files

variable {files files' : Files} {recursive : Bool} {place : List String}

/-! ### Discovery path by path -/

/-- A tree whose files hold nothing. -/
def emptied (files : Files) : Files := { files with root := files.root.emptied }

theorem follow?_emptied (root : Entry) (place parts : List String) :
    follow? root.emptied place parts = follow? root place parts := by
  induction parts generalizing place with
  | nil =>
    rw [follow?, follow?, Entry.at?_emptied, Option.isSome_map]
  | cons part rest ih =>
    have hdirectory : (root.emptied.at? place).any Entry.isDirectory =
        (root.at? place).any Entry.isDirectory := by
      rw [Entry.at?_emptied, Option.any_map]
      simp
    rw [follow?, follow?, hdirectory]
    simp only [ih]

theorem resolve?_emptied (files : Files) (p : Path) :
    files.emptied.resolve? p = files.resolve? p :=
  follow?_emptied files.root _ p.parts

theorem entry?_emptied (files : Files) (p : Path) :
    files.emptied.entry? p = (files.entry? p).map Entry.emptied := by
  unfold entry?
  rw [resolve?_emptied]
  cases files.resolve? p with
  | none => rfl
  | some place => exact Entry.at?_emptied files.root place

theorem expand_emptied (files : Files) (recursive : Bool) (p : Path) :
    files.emptied.expand recursive p = files.expand recursive p := by
  rw [expand, expand, entry?_emptied]
  cases files.entry? p with
  | none => rfl
  | some e =>
    cases e with
    | file bytes =>
      rw [Option.map_some, Entry.emptied]
    | directory entries =>
      have hbelow := Entry.filesBelow_emptied (.directory entries)
      rw [Entry.emptied] at hbelow
      rw [Option.map_some, Entry.emptied]
      simp only [formulaFiles, hbelow]

/-- Discovery does not look into files. -/
theorem discover_emptied (files : Files) (recursive : Bool) (paths : List String) :
    files.emptied.discover recursive paths = files.discover recursive paths := by
  simp only [discover, expand_emptied]

theorem discover_nil : files.discover recursive [] = .ok [] := rfl

theorem discover_cons (s : String) (paths : List String) :
    files.discover recursive (s :: paths) =
      (files.expand recursive (Path.ofString s)).bind fun found =>
        (files.discover recursive paths).map (found ++ ·) := by
  rw [discover, discover, List.mapM_cons]
  cases files.expand recursive (Path.ofString s) with
  | error e => rfl
  | ok found =>
    cases paths.mapM fun s => files.expand recursive (Path.ofString s) <;> rfl

theorem discover_cons_eq_ok_iff {s : String} {paths : List String} {found : List Path} :
    files.discover recursive (s :: paths) = .ok found ↔
      ∃ here more, files.expand recursive (Path.ofString s) = .ok here ∧
        files.discover recursive paths = .ok more ∧ found = here ++ more := by
  rw [discover_cons]
  cases files.expand recursive (Path.ofString s) with
  | error e => simp [Except.bind]
  | ok here => cases files.discover recursive paths <;> simp [Except.bind, Except.map, eq_comm]

theorem discover_append {ps qs : List String} {found found' : List Path}
    (hps : files.discover recursive ps = .ok found)
    (hqs : files.discover recursive qs = .ok found') :
    files.discover recursive (ps ++ qs) = .ok (found ++ found') := by
  induction ps generalizing found with
  | nil =>
    cases hps
    exact hqs
  | cons s ps ih =>
    obtain ⟨here, more, hhere, hmore, rfl⟩ := discover_cons_eq_ok_iff.mp hps
    refine discover_cons_eq_ok_iff.mpr ⟨here, more ++ found', hhere, ih hmore, ?_⟩
    rw [List.append_assoc]

theorem expand_of_has {p : Path} (h : files.has p) :
    ∃ found, files.expand recursive p = .ok found := by
  obtain ⟨e, he⟩ := Option.isSome_iff_exists.mp h
  rw [expand, he]
  cases e with
  | file bytes => exact ⟨_, rfl⟩
  | directory entries => exact ⟨_, rfl⟩

theorem expand_of_not_has {p : Path} (h : ¬files.has p) :
    files.expand recursive p = .error (.noSuchPath p.shown) := by
  have hnone : files.entry? p = none := Option.not_isSome_iff_eq_none.mp h
  rw [expand, hnone]

theorem discover_eq_error_iff_find? {paths : List String} {e : ReadError} :
    files.discover recursive paths = .error e ↔
      ∃ s, paths.find? (fun s => !files.has (Path.ofString s)) = some s ∧
        e = .noSuchPath (Path.ofString s).shown := by
  induction paths with
  | nil => simp [discover_nil]
  | cons s paths ih =>
    rw [discover_cons]
    by_cases hs : files.has (Path.ofString s)
    · obtain ⟨found, hfound⟩ : ∃ found, files.expand recursive (Path.ofString s) = .ok found :=
        expand_of_has hs
      rw [List.find?_cons_of_neg (by simp [hs]), ← ih, hfound]
      show (files.discover recursive paths).map (found ++ ·) = .error e ↔ _
      cases files.discover recursive paths <;> simp [Except.map]
    · rw [List.find?_cons_of_pos (by simp [hs]), expand_of_not_has hs]
      constructor
      · rintro ⟨⟩
        exact ⟨s, rfl, rfl⟩
      · rintro ⟨_, ⟨⟩, rfl⟩
        rfl

/-- Discovery fails at the first path that leads nowhere, and for no other reason. -/
theorem discover_eq_error_iff {paths : List String} {e : ReadError} :
    files.discover recursive paths = .error e ↔
      ∃ before s after, paths = before ++ s :: after ∧
        (∀ q ∈ before, files.has (Path.ofString q)) ∧ ¬files.has (Path.ofString s) ∧
        e = .noSuchPath (Path.ofString s).shown := by
  rw [discover_eq_error_iff_find?]
  simp only [List.find?_eq_some_iff_append, Bool.not_eq_true']
  constructor
  · rintro ⟨s, ⟨hs, before, after, hpaths, hbefore⟩, he⟩
    exact ⟨before, s, after, hpaths, by simpa using hbefore, by simpa using hs, he⟩
  · rintro ⟨before, s, after, hpaths, hbefore, hs, he⟩
    exact ⟨s, ⟨by simpa using hs, before, after, hpaths, by simpa using hbefore⟩, he⟩

/-! ### Trees that differ in one file -/

/-- Two trees that differ at most in what the file at one place holds. -/
structure SameBut (place : List String) (files files' : Files) : Prop where
  /-- They have the same names and the same directories. -/
  emptied_eq : files'.emptied = files.emptied
  /-- What stands anywhere else holds the same. -/
  bytes_eq : ∀ other, other ≠ place →
    (files'.root.at? other).bind Entry.bytes? = (files.root.at? other).bind Entry.bytes?

theorem SameBut.resolve?_eq (h : SameBut place files files') (p : Path) :
    files'.resolve? p = files.resolve? p := by
  rw [← resolve?_emptied, h.emptied_eq, resolve?_emptied]

theorem SameBut.discover_eq (h : SameBut place files files') (recursive : Bool)
    (paths : List String) :
    files'.discover recursive paths = files.discover recursive paths := by
  rw [← discover_emptied, h.emptied_eq, discover_emptied]

/-- A path that leads somewhere else leads to the same bytes. -/
theorem SameBut.bytes?_eq (h : SameBut place files files') {p : Path}
    (hp : files.resolve? p ≠ some place) : files'.bytes? p = files.bytes? p := by
  rw [bytes?, bytes?, entry?, entry?, h.resolve?_eq]
  cases hplace : files.resolve? p with
  | none => rfl
  | some other =>
    refine h.bytes_eq other fun heq => hp ?_
    rw [hplace, heq]

/-- A tree and the tree with one of its files overwritten. -/
theorem sameBut_write {old : List UInt8} (bytes : List UInt8)
    (hnames : files.root.hasDistinctNames) (h : files.root.at? place = some (.file old)) :
    SameBut place files (files.write place bytes) where
  emptied_eq := by
    rw [emptied, write, emptied]
    simp only [Entry.emptied_put_file bytes hnames h]
  bytes_eq _ hother := Entry.bytes_put_file bytes h hother

end Files

end TapLint
