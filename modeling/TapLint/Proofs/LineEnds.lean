/-
The ends of lines.

A line ends with a line feed, with a carriage return, or with a carriage return and a line feed
after it, which are one end and not two.  Reading puts a line feed for each of them:

* `unifyLineEnds_eq` — the pairs are replaced first, and then the carriage returns that are left;
* `SameLines` — texts that have the same lines, whatever the lines end with;
* `unifyLineEnds_eq_iff` — these are the texts that are read alike;
* `withLineFeeds_endingWith` — a text with one line end for all lines is read as with line feeds.
-/
import TapLint.Files.Text

namespace TapLint.Text

/-! ### Replacing -/

/-- Puts a line feed for every carriage return with a line feed after it. -/
def replacePairs : List Char → List Char
  | [] => []
  | [c] => [c]
  | c :: d :: cs =>
    if c = '\r' ∧ d = '\n' then '\n' :: replacePairs cs else c :: replacePairs (d :: cs)

/-- Puts a line feed for a carriage return. -/
def toLineFeed (c : Char) : Char := if c = '\r' then '\n' else c

/-- A text with every carriage return that has a line feed after it, and then every one that is
left, replaced: the first together with the line feed. -/
def withLineFeeds (s : String) : String :=
  String.ofList ((replacePairs s.toList).map toLineFeed)

/-- What a text begins with, where a line end counts as a line feed, and what follows.  A
carriage return is a line end by itself only if no line feed follows. -/
inductive Begins : List Char → Char → List Char → Prop where
  | char {c : Char} {cs : List Char} : c ≠ '\r' → Begins (c :: cs) c cs
  | pair (cs : List Char) : Begins ('\r' :: '\n' :: cs) '\n' cs
  | carriageReturn {cs : List Char} : cs.head? ≠ some '\n' → Begins ('\r' :: cs) '\n' cs

theorem replacePairs_cons {c : Char} {cs : List Char} (h : c = '\r' → cs.head? ≠ some '\n') :
    replacePairs (c :: cs) = c :: replacePairs cs := by
  cases cs with
  | nil => rfl
  | cons d cs =>
    have hpair : ¬(c = '\r' ∧ d = '\n') := by
      rintro ⟨rfl, rfl⟩
      exact h rfl rfl
    rw [replacePairs, if_neg hpair]

/-- Replacing leaves what a text begins with. -/
theorem Begins.map_replacePairs {c : Char} {cs rest : List Char} (h : Begins cs c rest) :
    (replacePairs cs).map toLineFeed = c :: (replacePairs rest).map toLineFeed := by
  cases h with
  | char hc => rw [replacePairs_cons (absurd · hc), List.map_cons, toLineFeed, if_neg hc]
  | pair =>
    rw [replacePairs, if_pos ⟨rfl, rfl⟩, List.map_cons]
    rfl
  | carriageReturn hnext =>
    rw [replacePairs_cons fun _ => hnext, List.map_cons]
    rfl

theorem exists_begins (c : Char) (cs : List Char) :
    ∃ d rest, Begins (c :: cs) d rest ∧ rest.length < (c :: cs).length := by
  by_cases hc : c = '\r'
  · subst hc
    by_cases hnext : cs.head? = some '\n'
    · obtain ⟨rest, rfl⟩ := List.head?_eq_some_iff.mp hnext
      exact ⟨'\n', rest, .pair rest, by simp only [List.length_cons]; omega⟩
    · exact ⟨'\n', cs, .carriageReturn hnext, by simp⟩
  · exact ⟨c, cs, .char hc, by simp⟩

theorem unifyLineEndsFrom_eq (sofar cs : List Char) :
    unifyLineEndsFrom sofar cs = sofar.reverse ++ (replacePairs cs).map toLineFeed := by
  induction sofar, cs using unifyLineEndsFrom.induct with
  | case1 sofar cs ih =>
    rw [unifyLineEndsFrom, ih, (Begins.pair cs).map_replacePairs, List.reverse_cons,
      List.append_assoc, List.singleton_append]
  | case2 sofar cs hnext ih =>
    have hbegins : Begins ('\r' :: cs) '\n' cs := by
      refine .carriageReturn fun h => ?_
      obtain ⟨rest, rfl⟩ := List.head?_eq_some_iff.mp h
      exact hnext rest rfl
    rw [unifyLineEndsFrom, ih, hbegins.map_replacePairs, List.reverse_cons, List.append_assoc,
      List.singleton_append]
    exact hnext
  | case3 sofar c cs hpair hreturn ih =>
    have hbegins : Begins (c :: cs) c cs := .char hreturn
    rw [unifyLineEndsFrom, ih, hbegins.map_replacePairs, List.reverse_cons, List.append_assoc,
      List.singleton_append]
    · exact hpair
    · exact hreturn
  | case4 sofar => simp [unifyLineEndsFrom, replacePairs]

/-- Reading replaces the pairs first, and then the carriage returns that are left. -/
theorem unifyLineEnds_eq (s : String) : unifyLineEnds s = withLineFeeds s := by
  rw [unifyLineEnds, unifyLineEndsFrom_eq, withLineFeeds]
  rfl

/-- A text without carriage returns is read as it is. -/
theorem withLineFeeds_eq_self {s : String} (h : '\r' ∉ s.toList) : withLineFeeds s = s := by
  have hself : ∀ cs : List Char, '\r' ∉ cs → (replacePairs cs).map toLineFeed = cs := by
    intro cs
    induction cs with
    | nil => exact fun _ => rfl
    | cons c cs ih =>
      intro h
      have hc : c ≠ '\r' := fun heq => h (heq ▸ List.mem_cons_self)
      rw [(Begins.char hc).map_replacePairs, ih fun hcs => h (List.mem_cons_of_mem c hcs)]
  rw [withLineFeeds, hself _ h, String.ofList_toList]

/-! ### Lines that are the same -/

/-- Texts that have the same lines, but for what the lines end with. -/
inductive SameLines : List Char → List Char → Prop where
  | nil : SameLines [] []
  | cons {c : Char} {cs ds rest rest' : List Char} :
      Begins cs c rest → Begins ds c rest' → SameLines rest rest' → SameLines cs ds

theorem SameLines.map_replacePairs {cs ds : List Char} (h : SameLines cs ds) :
    (replacePairs cs).map toLineFeed = (replacePairs ds).map toLineFeed := by
  induction h with
  | nil => rfl
  | cons hcs hds _ ih => rw [hcs.map_replacePairs, hds.map_replacePairs, ih]

theorem sameLines_of_map_replacePairs {cs ds : List Char}
    (h : (replacePairs cs).map toLineFeed = (replacePairs ds).map toLineFeed) :
    SameLines cs ds := by
  -- a line end may take two characters, so the induction is on the length
  induction hlength : cs.length using Nat.strongRecOn generalizing cs ds with
  | ind n ih =>
    subst hlength
    cases cs with
    | nil =>
      cases ds with
      | nil => exact .nil
      | cons d ds =>
        obtain ⟨_, _, hds, -⟩ := exists_begins d ds
        rw [hds.map_replacePairs] at h
        cases h
    | cons c cs =>
      obtain ⟨_, _, hcs, hshorter⟩ := exists_begins c cs
      rw [hcs.map_replacePairs] at h
      cases ds with
      | nil => cases h
      | cons d ds =>
        obtain ⟨_, _, hds, -⟩ := exists_begins d ds
        rw [hds.map_replacePairs, List.cons.injEq] at h
        obtain ⟨rfl, hrest⟩ := h
        exact .cons hcs hds (ih _ hshorter hrest rfl)

/-- The texts that are read alike are those that have the same lines. -/
theorem unifyLineEnds_eq_iff {s t : String} :
    unifyLineEnds s = unifyLineEnds t ↔ SameLines s.toList t.toList := by
  rw [unifyLineEnds_eq, unifyLineEnds_eq, withLineFeeds, withLineFeeds, String.ofList_inj]
  exact ⟨sameLines_of_map_replacePairs, SameLines.map_replacePairs⟩

/-! ### One line end for all lines -/

/-- What lines can end with. -/
def lineEnds : List (List Char) := [['\n'], ['\r', '\n'], ['\r']]

/-- A text whose lines end with something else than a line feed. -/
def endingWith (e cs : List Char) : List Char :=
  cs.flatMap fun c => if c = '\n' then e else [c]

theorem endingWith_cons (e : List Char) (c : Char) (cs : List Char) :
    endingWith e (c :: cs) = (if c = '\n' then e else [c]) ++ endingWith e cs :=
  List.flatMap_cons

theorem head?_endingWith_carriageReturn (cs : List Char) :
    (endingWith ['\r'] cs).head? ≠ some '\n' := by
  cases cs with
  | nil => exact (Option.some_ne_none _).symm
  | cons c cs =>
    rw [endingWith_cons]
    split
    next => exact fun h => absurd (Option.some.inj h) (by decide)
    next hc => exact fun h => hc (Option.some.inj h)

theorem begins_endingWith {e : List Char} (he : e ∈ lineEnds) {c : Char} (hc : c ≠ '\r')
    (cs : List Char) : Begins (endingWith e (c :: cs)) c (endingWith e cs) := by
  rw [endingWith_cons]
  split
  next hfeed =>
    subst hfeed
    simp only [lineEnds, List.mem_cons, List.not_mem_nil, or_false] at he
    rcases he with rfl | rfl | rfl
    · exact .char hc
    · exact .pair _
    · exact .carriageReturn (head?_endingWith_carriageReturn cs)
  next => exact .char hc

theorem map_replacePairs_endingWith {e : List Char} (he : e ∈ lineEnds) {cs : List Char}
    (hcs : '\r' ∉ cs) : (replacePairs (endingWith e cs)).map toLineFeed = cs := by
  induction cs with
  | nil => rfl
  | cons c cs ih =>
    have hc : c ≠ '\r' := fun h => hcs (h ▸ List.mem_cons_self)
    rw [(begins_endingWith he hc cs).map_replacePairs, ih fun h => hcs (List.mem_cons_of_mem c h)]

/-- Whatever the lines of a text end with, the text with line feeds is read. -/
theorem withLineFeeds_endingWith {e : List Char} (he : e ∈ lineEnds) {s : String}
    (hs : '\r' ∉ s.toList) : withLineFeeds (String.ofList (endingWith e s.toList)) = s := by
  rw [withLineFeeds, String.toList_ofList, map_replacePairs_endingWith he hs, String.ofList_toList]

theorem sameLines_endingWith {e e' : List Char} (he : e ∈ lineEnds) (he' : e' ∈ lineEnds)
    {cs : List Char} (hcs : '\r' ∉ cs) : SameLines (endingWith e cs) (endingWith e' cs) := by
  refine sameLines_of_map_replacePairs ?_
  rw [map_replacePairs_endingWith he hcs, map_replacePairs_endingWith he' hcs]

end TapLint.Text
