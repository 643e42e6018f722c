/-
One bad file never affects the others, unless it nests too deep.

What comes of examining a file depends on the bytes of that file (`outcome_congr`), and
which files are examined does not depend on bytes at all.  So an audit can be taken apart
file by file:

* `BreaksOff` — what an audit breaks off at: a path, or a file that nests too deep;
* `auditPathsOn_eq_error_iff` — and it breaks off at nothing else;
* `auditPathsOn_append` — an audit of two lists of paths has the entries of both audits, and
  the sums of their numbers;
* `auditPathsOn_sameBut` — when one file is overwritten, the other entries stay.

They are put together in `auditPathsOn_file_by_file`.
-/
import TapLint.Proofs.Concurrency
import TapLint.Proofs.FileTree
import TapLint.Proofs.Loading
import TapLint.Proofs.Nesting

namespace TapLint

variable {files files' : Files} {path : Path}

theorem Formula.readText_congr (h : files'.bytes? path = files.bytes? path) (limit : Int) :
    readText files' limit path = readText files limit path := by
  rw [readText, readText, h]

namespace Auditor

variable (a : Auditor) {recursive : Bool}

/-- What comes of a file depends on nothing but the bytes of the file. -/
theorem outcome_congr (h : files'.bytes? path = files.bytes? path) :
    a.outcome files' path = a.outcome files path := by
  have hfile : Formula.ofFile a.reader files' a.limit path =
      Formula.ofFile a.reader files a.limit path := by
    rw [Formula.ofFile, Formula.ofFile, Formula.readText_congr h]
  rw [outcome, outcome, examine, examine, auditFileAs, auditFileAs, hfile]

theorem value_auditPaths_of_discover {paths : List String} {found : List Path}
    (h : files.discover recursive paths = .ok found) :
    (a.auditPaths files recursive paths).value = .ok (a.collect (found.map (a.outcome files))) := by
  rw [value_auditPaths, h]
  rfl

end Auditor

/-! ### What an audit breaks off at -/

section
variable {host : Host} {recursive : Bool} {paths before after : List String} {s : String}

/-- Whether a host lets a path be looked at, and it leads somewhere. -/
def Host.Finds (host : Host) (files : Files) (s : String) : Prop :=
  host.refusal? (Path.ofString s) = none ∧ files.has (Path.ofString s)

theorem Host.finds_iff :
    host.Finds files s ↔
      ((host.refusal? (Path.ofString s)).isSome || !files.has (Path.ofString s)) = false := by
  rw [Host.Finds, Bool.or_eq_false_iff, Bool.not_eq_false', Option.isSome_eq_false_iff,
    Option.isNone_iff_eq_none]

/-- A path that is not found is the first of its kind, or all paths are found. -/
theorem Host.forall_finds_or_split (host : Host) (files : Files) (paths : List String) :
    (∀ s ∈ paths, host.Finds files s) ∨
      ∃ before s after, paths = before ++ s :: after ∧ (∀ q ∈ before, host.Finds files q) ∧
        ¬host.Finds files s := by
  induction paths with
  | nil => exact .inl (List.forall_mem_nil _)
  | cons s paths ih =>
    by_cases hs : host.Finds files s
    · obtain hall | ⟨before, t, after, rfl, hbefore, ht⟩ := ih
      · exact .inl (List.forall_mem_cons.mpr ⟨hs, hall⟩)
      · exact .inr ⟨s :: before, t, after, rfl, List.forall_mem_cons.mpr ⟨hs, hbefore⟩, ht⟩
    · exact .inr ⟨[], s, paths, rfl, List.forall_mem_nil _, hs⟩

theorem Host.firstRefusal?_of_finds (h : ∀ s ∈ paths, host.Finds files s) :
    host.firstRefusal? files paths = none := by
  have hnone : (paths.map Path.ofString).find? (fun p =>
      (host.refusal? p).isSome || !files.has p) = none :=
    List.find?_eq_none.mpr
      (List.forall_mem_map.mpr fun s hs => by simp [Host.finds_iff.mp (h s hs)])
  rw [firstRefusal?, hnone, Option.bind_none]

theorem Host.firstRefusal?_of_split (hbefore : ∀ q ∈ before, host.Finds files q)
    (hs : ¬host.Finds files s) :
    host.firstRefusal? files (before ++ s :: after) = host.refusal? (Path.ofString s) := by
  have hfirst : ((before ++ s :: after).map Path.ofString).find? (fun p =>
      (host.refusal? p).isSome || !files.has p) = some (Path.ofString s) := by
    rw [List.map_append, List.map_cons, List.find?_eq_some_iff_append]
    refine ⟨?_, _, _, rfl, List.forall_mem_map.mpr fun q hq => ?_⟩
    · rwa [Host.finds_iff, Bool.not_eq_false] at hs
    · rw [Host.finds_iff.mp (hbefore q hq)]
      rfl
  rw [firstRefusal?, hfirst, Option.bind_some]

theorem Host.discover_of_split (hbefore : ∀ q ∈ before, host.Finds files q)
    (hs : ¬files.has (Path.ofString s)) :
    files.discover recursive (before ++ s :: after) =
      .error (.noSuchPath (Path.ofString s).shown) :=
  Files.discover_eq_error_iff.mpr ⟨before, s, after, rfl, fun q hq => (hbefore q hq).2, hs, rfl⟩

end

namespace Auditor

variable (a : Auditor) (host : Host) {recursive : Bool}

/-- Whether none of some files nests too deep for a host. -/
def FitsOn (files : Files) (found : List Path) : Prop :=
  ∀ p ∈ found, Formula.callDepth a.reader files a.limit p ≤ host.callsFor a.workers found.length

instance (files : Files) (found : List Path) : Decidable (a.FitsOn host files found) :=
  inferInstanceAs (Decidable (∀ p ∈ found, _))

/-- What an audit breaks off at: the first path that leads nowhere or that the host does not
let be looked at, and if there is none, the first file that nests too deep. -/
def BreaksOff (files : Files) (recursive : Bool) (paths : List String) : AuditStop → Prop
  | .path why =>
    ∃ before s after, paths = before ++ s :: after ∧ (∀ q ∈ before, host.Finds files q) ∧
      host.refusal? (Path.ofString s) = none ∧ ¬files.has (Path.ofString s) ∧
      why = .noSuchPath (Path.ofString s).shown
  | .refused why =>
    ∃ before s after, paths = before ++ s :: after ∧ (∀ q ∈ before, host.Finds files q) ∧
      host.refusal? (Path.ofString s) = some why
  | .tooDeep name =>
    (∀ s ∈ paths, host.Finds files s) ∧
      ∃ found before p after, files.discover recursive paths = .ok found ∧
        found = before ++ p :: after ∧
        (∀ q ∈ before, Formula.callDepth a.reader files a.limit q ≤
          host.callsFor a.workers found.length) ∧
        host.callsFor a.workers found.length < Formula.callDepth a.reader files a.limit p ∧
        name = p.shown

variable {a host} {paths : List String}

theorem tooDeep?_eq_none_iff {found : List Path} :
    a.tooDeep? host files found = none ↔ a.FitsOn host files found := by
  simp [tooDeep?, FitsOn]

theorem tooDeep?_eq_some_iff {found : List Path} {p : Path} :
    a.tooDeep? host files found = some p ↔
      host.callsFor a.workers found.length < Formula.callDepth a.reader files a.limit p ∧
        ∃ before after, found = before ++ p :: after ∧
          ∀ q ∈ before, Formula.callDepth a.reader files a.limit q ≤
            host.callsFor a.workers found.length := by
  simp [tooDeep?, List.find?_eq_some_iff_append]

/-- The paths that stand for some files are found, unless the host refuses. -/
theorem finds_of_discover {found : List Path}
    (hrefusal : ∀ s ∈ paths, host.refusal? (Path.ofString s) = none)
    (hfound : files.discover recursive paths = .ok found) : ∀ s ∈ paths, host.Finds files s := by
  obtain hall | ⟨before, s, after, rfl, hbefore, hs⟩ := host.forall_finds_or_split files paths
  · exact hall
  · have hmissing : ¬files.has (Path.ofString s) := fun hhas =>
      hs ⟨hrefusal s (List.mem_append_right _ List.mem_cons_self), hhas⟩
    cases (Host.discover_of_split hbefore hmissing).symm.trans hfound

theorem exists_discover_eq_ok (h : ∀ s ∈ paths, host.Finds files s) :
    ∃ found, files.discover recursive paths = .ok found := by
  cases hfound : files.discover recursive paths with
  | ok found => exact ⟨found, rfl⟩
  | error why =>
    obtain ⟨before, s, after, rfl, -, hs, -⟩ := Files.discover_eq_error_iff.mp hfound
    exact absurd (h s (List.mem_append_right _ List.mem_cons_self)).2 hs

/-- Of paths that stand for some files, only the depth of the files matters. -/
theorem value_auditPathsOn_of_discover {found : List Path}
    (hpaths : ∀ s ∈ paths, host.Finds files s)
    (hfound : files.discover recursive paths = .ok found) :
    (a.auditPathsOn host files recursive paths).value =
      match a.tooDeep? host files found with
      | some p => .error (.tooDeep p.shown)
      | none => .ok (a.collect (found.map (a.outcome files))) := by
  rw [auditPathsOn, Host.firstRefusal?_of_finds hpaths, hfound, Except.toOption, Option.bind_some]
  cases a.tooDeep? host files found with
  | some p => rfl
  | none =>
    show (a.auditPaths files recursive paths).value.mapError AuditStop.path = _
    rw [value_auditPaths_of_discover a hfound]
    rfl

theorem value_auditPathsOn_of_fits {found : List Path} (hpaths : ∀ s ∈ paths, host.Finds files s)
    (hfound : files.discover recursive paths = .ok found) (hfits : a.FitsOn host files found) :
    (a.auditPathsOn host files recursive paths).value =
      .ok (a.collect (found.map (a.outcome files))) := by
  rw [value_auditPathsOn_of_discover hpaths hfound, tooDeep?_eq_none_iff.mpr hfits]

theorem value_auditPathsOn_of_breaksOff {stop : AuditStop}
    (h : a.BreaksOff host files recursive paths stop) :
    (a.auditPathsOn host files recursive paths).value = .error stop := by
  cases stop with
  | path why =>
    -- the host has nothing to say of the path, so the discovery comes upon it
    obtain ⟨before, s, after, rfl, hbefore, hnone, hs, rfl⟩ := h
    have hsplit : host.firstRefusal? files (before ++ s :: after) = none :=
      (Host.firstRefusal?_of_split hbefore fun h => hs h.2).trans hnone
    have hfound : files.discover recursive (before ++ s :: after) = .error _ :=
      Host.discover_of_split hbefore hs
    rw [auditPathsOn, hsplit, hfound]
    show (a.auditPaths files recursive _).value.mapError AuditStop.path = _
    rw [value_auditPaths, hfound]
    rfl
  | refused why =>
    obtain ⟨before, s, after, rfl, hbefore, hs⟩ := h
    have hnot : ¬host.Finds files s := fun h => by cases h.1.symm.trans hs
    have hsplit : host.firstRefusal? files (before ++ s :: after) = some why :=
      (Host.firstRefusal?_of_split hbefore hnot).trans hs
    rw [auditPathsOn, hsplit]
    rfl
  | tooDeep name =>
    obtain ⟨hpaths, found, before, p, after, hfound, hsplit, hbefore, hp, rfl⟩ := h
    rw [value_auditPathsOn_of_discover hpaths hfound,
      tooDeep?_eq_some_iff.mpr ⟨hp, before, after, hsplit, hbefore⟩]

/-- An audit breaks off at something, or it gives a report. -/
theorem breaksOff_or_fits (a : Auditor) (host : Host) (files : Files) (recursive : Bool)
    (paths : List String) :
    (∃ stop, a.BreaksOff host files recursive paths stop) ∨
      (∀ s ∈ paths, host.Finds files s) ∧
        ∃ found, files.discover recursive paths = .ok found ∧ a.FitsOn host files found := by
  obtain hpaths | ⟨before, s, after, hsplit, hbefore, hs⟩ :=
    host.forall_finds_or_split files paths
  · -- all paths are found, so how deep the files nest decides
    obtain ⟨found, hfound⟩ : ∃ found, files.discover recursive paths = .ok found :=
      exists_discover_eq_ok hpaths
    cases hdeep : a.tooDeep? host files found with
    | none => exact .inr ⟨hpaths, found, hfound, tooDeep?_eq_none_iff.mp hdeep⟩
    | some p =>
      obtain ⟨hp, before, after, hsplit, hbefore⟩ := tooDeep?_eq_some_iff.mp hdeep
      exact .inl ⟨.tooDeep p.shown, hpaths, found, before, p, after, hfound, hsplit, hbefore, hp,
        rfl⟩
  · -- one is not, and the host is asked about it before the tree is
    cases hrefusal : host.refusal? (Path.ofString s) with
    | some why => exact .inl ⟨.refused why, before, s, after, hsplit, hbefore, hrefusal⟩
    | none =>
      refine .inl ⟨.path _, before, s, after, hsplit, hbefore, hrefusal, fun hhas => ?_, rfl⟩
      exact hs ⟨hrefusal, hhas⟩

theorem auditPathsOn_eq_error_iff {stop : AuditStop} :
    (a.auditPathsOn host files recursive paths).value = .error stop ↔
      a.BreaksOff host files recursive paths stop := by
  refine ⟨fun h => ?_, value_auditPathsOn_of_breaksOff⟩
  obtain ⟨stop', hstop⟩ | ⟨hpaths, found, hfound, hfits⟩ :=
    a.breaksOff_or_fits host files recursive paths
  · cases (value_auditPathsOn_of_breaksOff hstop).symm.trans h
    exact hstop
  · cases (value_auditPathsOn_of_fits hpaths hfound hfits).symm.trans h

/-- There is one thing at most that an audit breaks off at. -/
theorem BreaksOff.unique {stop stop' : AuditStop}
    (h : a.BreaksOff host files recursive paths stop)
    (h' : a.BreaksOff host files recursive paths stop') : stop = stop' := by
  cases (value_auditPathsOn_of_breaksOff h).symm.trans (value_auditPathsOn_of_breaksOff h')
  rfl

/-- Files do not nest too deep if their trees are not too high. -/
theorem FitsOn.of_height {found : List Path} {height : Nat}
    (hheight : 4 * height + 1 ≤ host.callsFor a.workers found.length)
    (h : ∀ p ∈ found, ∀ text, Formula.readText files a.limit p = .ok text →
      (a.reader text).height ≤ height) : a.FitsOn host files found := by
  intro p hp
  -- only what can be read is converted
  rw [Formula.callDepth]
  cases htext : Formula.readText files a.limit p with
  | error why => exact Nat.zero_le _
  | ok text =>
    have hdepth := Node.callDepth_le (a.reader text)
    have hle := h p hp text htext
    dsimp only
    split <;> omega

/-! ### File by file -/

theorem auditPathsOn_append {ps qs : List String} {found found' : List Path}
    (hps : files.discover recursive ps = .ok found)
    (hqs : files.discover recursive qs = .ok found')
    (hrefusal : ∀ s ∈ ps ++ qs, host.refusal? (Path.ofString s) = none)
    (hfits : a.FitsOn host files found) (hfits' : a.FitsOn host files found')
    (hboth : a.FitsOn host files (found ++ found')) :
    ∃ rp rq r, (a.auditPathsOn host files recursive ps).value = .ok rp ∧
      (a.auditPathsOn host files recursive qs).value = .ok rq ∧
      (a.auditPathsOn host files recursive (ps ++ qs)).value = .ok r ∧
      r.results = rp.results ++ rq.results ∧ r.errors = rp.errors ++ rq.errors ∧
      r.tally.IsSum rp.tally rq.tally := by
  obtain ⟨hrefusal₁, hrefusal₂⟩ := List.forall_mem_append.mp hrefusal
  have happend := Files.discover_append hps hqs
  have hr := value_auditPathsOn_of_fits (finds_of_discover hrefusal happend) happend hboth
  rw [List.map_append] at hr
  exact ⟨_, _, _, value_auditPathsOn_of_fits (finds_of_discover hrefusal₁ hps) hps hfits,
    value_auditPathsOn_of_fits (finds_of_discover hrefusal₂ hqs) hqs hfits', hr,
    collect_append a _ _⟩

theorem auditPathsOn_sameBut {place : List String} (hsame : Files.SameBut place files files')
    {before after : List Path} {p : Path}
    (hfound : files.discover recursive paths = .ok (before ++ p :: after))
    (honce : ∀ q ∈ before ++ after, files.resolve? q ≠ some place)
    (hrefusal : ∀ s ∈ paths, host.refusal? (Path.ofString s) = none)
    (hfits : a.FitsOn host files (before ++ p :: after))
    (hfits' : a.FitsOn host files' (before ++ p :: after)) :
    (a.auditPathsOn host files recursive paths).value =
        .ok (a.collect (before.map (a.outcome files) ++ a.outcome files p ::
          after.map (a.outcome files))) ∧
      (a.auditPathsOn host files' recursive paths).value =
        .ok (a.collect (before.map (a.outcome files) ++ a.outcome files' p ::
          after.map (a.outcome files))) := by
  -- the other paths lead to other places, and there both trees hold the same
  have hothers : ∀ qs : List Path, (∀ q ∈ qs, q ∈ before ++ after) →
      qs.map (a.outcome files') = qs.map (a.outcome files) := by
    intro qs hqs
    refine List.map_congr_left fun q hq => ?_
    exact outcome_congr a (hsame.bytes?_eq (honce q (hqs q hq)))
  have hbefore := hothers before fun q hq => List.mem_append_left after hq
  have hafter := hothers after fun q hq => List.mem_append_right before hq
  have hfound' : files'.discover recursive paths = .ok (before ++ p :: after) := by
    rw [hsame.discover_eq, hfound]
  constructor
  · rw [value_auditPathsOn_of_fits (finds_of_discover hrefusal hfound) hfound hfits,
      List.map_append, List.map_cons]
  · rw [value_auditPathsOn_of_fits (finds_of_discover hrefusal hfound') hfound' hfits',
      List.map_append, List.map_cons, hbefore, hafter]

/-- **One bad file never affects the others, unless it nests too deep.**  If the paths of two
lists stand for files that do not, the audit of both lists gives a report, whatever else the
files hold: it has the entries of the two audits, one after the other, and the sums of their
numbers.  In an audit of files of which one stands at a place, what this file holds shows in
its own entry only.  And all that an audit breaks off at is a path that leads nowhere or that
the host does not let be looked at, and a file that nests too deep. -/
theorem auditPathsOn_file_by_file (a : Auditor) (host : Host) (files : Files) (recursive : Bool) :
    (∀ ps qs found found', files.discover recursive ps = .ok found →
      files.discover recursive qs = .ok found' →
      (∀ s ∈ ps ++ qs, host.refusal? (Path.ofString s) = none) →
      a.FitsOn host files found → a.FitsOn host files found' →
      a.FitsOn host files (found ++ found') →
      ∃ rp rq r, (a.auditPathsOn host files recursive ps).value = .ok rp ∧
        (a.auditPathsOn host files recursive qs).value = .ok rq ∧
        (a.auditPathsOn host files recursive (ps ++ qs)).value = .ok r ∧
        r.results = rp.results ++ rq.results ∧ r.errors = rp.errors ++ rq.errors ∧
        r.tally.IsSum rp.tally rq.tally) ∧
      (∀ place files' paths before p after, Files.SameBut place files files' →
        files.discover recursive paths = .ok (before ++ p :: after) →
        (∀ q ∈ before ++ after, files.resolve? q ≠ some place) →
        (∀ s ∈ paths, host.refusal? (Path.ofString s) = none) →
        a.FitsOn host files (before ++ p :: after) → a.FitsOn host files' (before ++ p :: after) →
        (a.auditPathsOn host files recursive paths).value =
            .ok (a.collect (before.map (a.outcome files) ++ a.outcome files p ::
              after.map (a.outcome files))) ∧
          (a.auditPathsOn host files' recursive paths).value =
            .ok (a.collect (before.map (a.outcome files) ++ a.outcome files' p ::
              after.map (a.outcome files)))) ∧
      ∀ paths stop, (a.auditPathsOn host files recursive paths).value = .error stop ↔
        a.BreaksOff host files recursive paths stop :=
  ⟨fun _ _ _ _ hps hqs => auditPathsOn_append hps hqs,
    fun _ _ _ _ _ _ hsame hfound honce => auditPathsOn_sameBut hsame hfound honce,
    fun _ _ => auditPathsOn_eq_error_iff⟩

/-- In the sample, where the second file cannot be read until it is overwritten. -/
theorem auditPathsOn_sampleFiles_file_by_file :
    (∃ rp rq r,
      (sampleAuditor.auditPathsOn { calls := 1000 } sampleFiles false ["a.rb", "b.rb"]).value =
        .ok rp ∧
      (sampleAuditor.auditPathsOn { calls := 1000 } sampleFiles false ["c.rb"]).value = .ok rq ∧
      (sampleAuditor.auditPathsOn { calls := 1000 } sampleFiles false
        ["a.rb", "b.rb", "c.rb"]).value = .ok r ∧
      r.results = rp.results ++ rq.results ∧ r.errors = rp.errors ++ rq.errors ∧
      r.tally.IsSum rp.tally rq.tally) ∧
    (∃ r r',
      (sampleAuditor.auditPathsOn { calls := 1000 } sampleFiles false
        ["a.rb", "b.rb", "c.rb"]).value = .ok r ∧
      (sampleAuditor.auditPathsOn { calls := 1000 } (sampleFiles.write ["b.rb"] [0x23]) false
        ["a.rb", "b.rb", "c.rb"]).value = .ok r' ∧
      r.results.map (·.path) = [some "a.rb", some "c.rb"] ∧ r.errors.map (·.path) = ["b.rb"] ∧
      r'.results.map (·.path) = [some "a.rb", some "b.rb", some "c.rb"] ∧ r'.errors = []) ∧
    (sampleAuditor.auditPathsOn { calls := 1000 } sampleFiles false ["b.rb", "x.rb", "y.rb"]).value =
      .error (.path (.noSuchPath "x.rb")) := by
  obtain ⟨happend, hreplace, herror⟩ :=
    auditPathsOn_file_by_file sampleAuditor { calls := 1000 } sampleFiles false
  have hsame : Files.SameBut ["b.rb"] sampleFiles (sampleFiles.write ["b.rb"] [0x23]) :=
    Files.sameBut_write [0x23] (by decide +kernel) rfl
  refine ⟨happend ["a.rb", "b.rb"] ["c.rb"] [⟨0, ["a.rb"]⟩, ⟨0, ["b.rb"]⟩] [⟨0, ["c.rb"]⟩] rfl rfl
    (fun _ _ => rfl) (by decide +kernel) (by decide +kernel) (by decide +kernel), ?_, ?_⟩
  · obtain ⟨hold, hnew⟩ := hreplace ["b.rb"] _ ["a.rb", "b.rb", "c.rb"] [⟨0, ["a.rb"]⟩]
      ⟨0, ["b.rb"]⟩ [⟨0, ["c.rb"]⟩] hsame rfl (by decide +kernel) (fun _ _ => rfl)
      (by decide +kernel) (by decide +kernel)
    refine ⟨_, _, hold, hnew, ?_, ?_, ?_, ?_⟩
    all_goals decide +kernel
  · refine (herror _ _).mpr ⟨["b.rb"], "x.rb", ["y.rb"], rfl, ?_, rfl, ?_, ?_⟩
    · intro q hq
      cases List.mem_singleton.mp hq
      exact ⟨rfl, by decide +kernel⟩
    all_goals decide +kernel

/-! ### A file that nests too deep -/

/-- Some opening brackets, and as many closing ones. -/
def brackets (n : Nat) : String :=
  String.ofList (List.replicate n '[' ++ List.replicate n ']')

/-- The tree of some brackets around each other. -/
def bracketTree : Nat → Ruby.Tree
  | 0 => Ruby.Tree.construct "program" 0 0 none []
  | n + 1 => Ruby.Tree.construct "program" 0 (2 * n + 2) none [Node.nestedArrays 0 n]

/-- An auditor who takes a text for as many arrays as it has closing brackets. -/
def bracketAuditor : Auditor :=
  { reader := fun text => bracketTree (text.toList.count ']')
    cops := []
    now := default }

/-- A file of brackets and an empty one. -/
def bracketFiles (n : Nat) : Files :=
  { root := .directory [("a.rb", .file (Utf8.bytes (brackets n))), ("b.rb", .file [])]
    here := [] }

theorem discover_bracketFiles (n : Nat) :
    (bracketFiles n).discover false ["a.rb", "b.rb"] = .ok [⟨0, ["a.rb"]⟩, ⟨0, ["b.rb"]⟩] := rfl

theorem length_bytes_brackets (n : Nat) : (Utf8.bytes (brackets n)).length = 2 * n := by
  have hopening : '['.utf8Size = 1 := rfl
  have hclosing : ']'.utf8Size = 1 := rfl
  rw [Utf8.bytes_eq_encode, brackets, String.toList_ofList, Utf8.encode, List.length_flatMap]
  simp [hopening, hclosing, Nat.two_mul]

theorem readText_bracketFiles {n : Nat} (h : 2 * n ≤ 512 * 1024) :
    Formula.readText (bracketFiles n) bracketAuditor.limit ⟨0, ["a.rb"]⟩ = .ok (brackets n) := by
  have hholds : (bracketFiles n).Holds ⟨0, ["a.rb"]⟩ (Utf8.bytes (brackets n)) := rfl
  have hsize : ((Utf8.bytes (brackets n)).length : Int) ≤ bracketAuditor.limit * 1024 := by
    rw [length_bytes_brackets]
    show ((2 * n : Nat) : Int) ≤ 512 * 1024
    omega
  rw [Formula.readText_of_text hholds hsize, Text.withLineFeeds_eq_self]
  simp [brackets]

theorem hasError_bracketTree (n : Nat) : (bracketTree (n + 1)).hasError = false := by
  have hchildren : Rose.children (bracketTree (n + 1)) = [Node.nestedArrays 0 n] := rfl
  rw [Ruby.Tree.hasError_eq, hchildren]
  simp only [List.any_cons, List.any_nil, Node.hasError_nestedArrays]
  rfl

theorem callDepth_bracketTree (n : Nat) : Node.callDepth (bracketTree (n + 1)) = 3 * n + 7 := by
  have hkind : Node.kindOf (bracketTree (n + 1)).value.type = .other := rfl
  have hparts : Ruby.Tree.parts (bracketTree (n + 1)) = [Node.nestedArrays 0 n] := by
    cases n <;> rfl
  rw [Node.callDepth_eq, hkind, hparts, List.map_singleton, Node.callDepth_nestedArrays]
  simp only [Node.deepest, List.map_singleton, List.foldr_cons, List.foldr_nil]
  omega

theorem callDepth_bracketFiles {n : Nat} (h : 2 * (n + 1) ≤ 512 * 1024) :
    Formula.callDepth bracketAuditor.reader (bracketFiles (n + 1)) bracketAuditor.limit
      ⟨0, ["a.rb"]⟩ = 3 * n + 7 := by
  have htree : bracketAuditor.reader (brackets (n + 1)) = bracketTree (n + 1) := by
    simp [bracketAuditor, brackets, List.count_replicate]
  rw [Formula.callDepth, readText_bracketFiles h]
  show (if (bracketAuditor.reader (brackets (n + 1))).hasError then 0 else
    Node.callDepth (bracketAuditor.reader (brackets (n + 1)))) = _
  rw [htree, hasError_bracketTree, callDepth_bracketTree]
  rfl

/-- Where 1000 calls may be nested, the empty file has a result of its own, but with a file
of 334 brackets around each other there is no report. -/
theorem auditPathsOn_bracketFiles :
    (bracketFiles 334).discover false ["a.rb", "b.rb"] = .ok [⟨0, ["a.rb"]⟩, ⟨0, ["b.rb"]⟩] ∧
      (∃ report, (bracketAuditor.auditPathsOn { calls := 1000 } (bracketFiles 334) false
          ["b.rb"]).value = .ok report ∧ report.results.map (·.path) = [some "b.rb"]) ∧
      (bracketAuditor.auditPathsOn { calls := 1000 } (bracketFiles 334) false
        ["a.rb", "b.rb"]).value = .error (.tooDeep "a.rb") := by
  have hfound := discover_bracketFiles 334
  have hfound' : (bracketFiles 334).discover false ["b.rb"] = .ok [⟨0, ["b.rb"]⟩] := rfl
  refine ⟨hfound, ⟨_, value_auditPathsOn_of_fits (finds_of_discover (fun _ _ => rfl) hfound')
    hfound' ?_, ?_⟩, value_auditPathsOn_of_breaksOff ⟨finds_of_discover (fun _ _ => rfl) hfound,
      _, [], _, _, hfound, rfl, List.forall_mem_nil _, ?_, rfl⟩⟩
  · decide +kernel
  · decide +kernel
  · rw [callDepth_bracketFiles (n := 333) (by decide)]
    decide

end Auditor

end TapLint
