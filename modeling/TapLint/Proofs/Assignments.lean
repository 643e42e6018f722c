/-
Files of assignments.

A file of settings assigns texts to variables, line by line, and leaves an environment behind.
Of the lines that assign to one variable the last one counts:

* `Text.Trims` — a text and what is left of it without the blanks at its ends;
* `Assigns` — what a line assigns, said without the way in which it is read;
* `extend_append` — assignments that are possible set the variables one after the other;
* `setAll_setAll` — setting them all once more changes nothing;
* `Updates` — what some lines make of an environment, variable by variable.

The main statement is `ofFile_updates`.
-/
import Mathlib.Data.List.TakeWhile
import TapLint.Proofs.LineEnds
import TapLint.Proofs.Lines
import TapLint.Proofs.Streaming
import TapLint.Settings.Basic

namespace TapLint

namespace Text

/-! ### Blanks at the ends -/

variable {cs ds before : List Char} {c : Char}

/-- Whether `ds` is what is left of `cs` without the blanks at its two ends. -/
def Trims (cs ds : List Char) : Prop :=
  ∃ before after, cs = before ++ ds ++ after ∧ (∀ c ∈ before, isBlank c) ∧
    (∀ c ∈ after, isBlank c) ∧ (∀ c ∈ ds.head?, ¬isBlank c) ∧ ∀ c ∈ ds.getLast?, ¬isBlank c

theorem Trims.subset (h : Trims cs ds) : ds ⊆ cs := by
  obtain ⟨before, after, rfl, -⟩ := h
  exact fun c hc => List.mem_append_left after (List.mem_append_right before hc)

theorem not_isBlank_of_mem_head? (h : c ∈ (cs.dropWhile isBlank).head?) : ¬isBlank c := by
  have hfirst := List.head?_dropWhile_not isBlank cs
  rw [Option.mem_def.mp h] at hfirst
  simpa using hfirst

theorem dropWhile_isBlank_append (hbefore : ∀ c ∈ before, isBlank c)
    (hcs : ∀ c ∈ cs.head?, ¬isBlank c) : (before ++ cs).dropWhile isBlank = cs := by
  rw [List.dropWhile_append_of_pos hbefore]
  cases cs with
  | nil => rfl
  | cons c cs => exact List.dropWhile_cons_of_neg (hcs c rfl)

theorem trims_trimChars (cs : List Char) : Trims cs (trimChars cs) := by
  let rest := cs.dropWhile isBlank
  have hrest : rest = trimChars cs ++ (rest.reverse.takeWhile isBlank).reverse := by
    rw [trimChars, ← List.reverse_append, List.takeWhile_append_dropWhile, List.reverse_reverse]
  refine ⟨cs.takeWhile isBlank, (rest.reverse.takeWhile isBlank).reverse, ?_,
    fun c hc => List.mem_takeWhile_imp hc, fun c hc => ?_, fun c hc => ?_, fun c hc => ?_⟩
  · rw [List.append_assoc, ← hrest, List.takeWhile_append_dropWhile]
  · exact List.mem_takeWhile_imp (List.mem_reverse.mp hc)
  · have hfirst : c ∈ rest.head? := by
      rw [hrest, List.head?_append, Option.mem_def.mp hc]
      rfl
    exact not_isBlank_of_mem_head? hfirst
  · rw [trimChars, List.getLast?_reverse] at hc
    exact not_isBlank_of_mem_head? hc

theorem trimChars_eq_iff : trimChars cs = ds ↔ Trims cs ds := by
  constructor
  · rintro rfl
    exact trims_trimChars cs
  · rintro ⟨before, after, rfl, hbefore, hafter, hfirst, hlast⟩
    rw [List.append_assoc, trimChars]
    by_cases hds : ds = []
    · -- there are only blanks, and the ones in front are all of them
      have hblank : (before ++ after).dropWhile isBlank = [] :=
        List.dropWhile_eq_nil_iff.mpr fun c hc =>
          (List.mem_append.mp hc).elim (hbefore c) (hafter c)
      rw [hds, List.nil_append, hblank]
      rfl
    · obtain ⟨d, rest, rfl⟩ := List.exists_cons_of_ne_nil hds
      have hleft : (before ++ (d :: rest ++ after)).dropWhile isBlank = d :: rest ++ after :=
        dropWhile_isBlank_append hbefore hfirst
      rw [hleft, List.reverse_append, dropWhile_isBlank_append, List.reverse_reverse]
      · exact fun c hc => hafter c (List.mem_reverse.mp hc)
      · rwa [List.head?_reverse]

/-! ### Characters of a text -/

theorem mem_of_mem_replacePairs (h : c ∈ replacePairs cs) : c ∈ cs := by
  induction cs using replacePairs.induct with
  | case1 => exact h
  | case2 => exact h
  | case3 d e cs hpair ih =>
    rw [replacePairs, if_pos hpair, ← hpair.2] at h
    rcases List.mem_cons.mp h with rfl | h
    · exact List.mem_cons_of_mem d List.mem_cons_self
    · exact List.mem_cons_of_mem d (List.mem_cons_of_mem e (ih h))
  | case4 d e cs hpair ih =>
    rw [replacePairs, if_neg hpair] at h
    rcases List.mem_cons.mp h with rfl | h
    · exact List.mem_cons_self
    · exact List.mem_cons_of_mem d (ih h)

/-- Reading a line end puts nothing but a line feed into a text. -/
theorem mem_of_mem_withLineFeeds {s : String} (h : c ∈ (withLineFeeds s).toList) :
    c ∈ s.toList ∨ c = '\n' := by
  rw [withLineFeeds, String.toList_ofList] at h
  obtain ⟨d, hd, rfl⟩ := List.mem_map.mp h
  rw [toLineFeed]
  split
  · exact .inr rfl
  · exact .inl (mem_of_mem_replacePairs hd)

end Text

namespace Environment

open Text (Trims trimChars_eq_iff)

variable {env : Environment} {line name text : String} {lines : List String}

/-! ### What a line assigns -/

/-- Whether a line assigns a text to a name: without the blanks at its ends it begins with no `#`
and its first equals sign stands between two parts, which are the name and the text but for the
blanks at their ends. -/
def Assigns (line name text : String) : Prop :=
  ∃ left right, Trims line.toList (left ++ '=' :: right) ∧ left.head? ≠ some '#' ∧ '=' ∉ left ∧
    Trims left name.toList ∧ Trims right text.toList

theorem takeWhile_dropWhile_eq_iff {cs left right : List Char} :
    cs.takeWhile (· ≠ '=') = left ∧ cs.dropWhile (· ≠ '=') = '=' :: right ↔
      cs = left ++ '=' :: right ∧ '=' ∉ left := by
  constructor
  · rintro ⟨rfl, hright⟩
    rw [← hright, List.takeWhile_append_dropWhile]
    refine ⟨rfl, fun h => ?_⟩
    simpa using List.mem_takeWhile_imp h
  · rintro ⟨rfl, hleft⟩
    have hall : ∀ c ∈ left, decide (c ≠ '=') := fun c hc => by
      simpa using fun heq : c = '=' => hleft (heq ▸ hc)
    rw [List.takeWhile_append_of_pos hall, List.dropWhile_append_of_pos hall]
    simp

/-- A line is read as what it assigns. -/
theorem assignment?_eq_some_iff : assignment? line.toList = some (name, text) ↔
    Assigns line name text := by
  rw [assignment?]
  constructor
  · intro h
    split at h
    next => cases h
    next => cases h
    next hhash =>
      split at h
      next => cases h
      next c right hdrop =>
        -- what is not dropped begins with the equals sign
        have hc : c = '=' := by
          have hfirst := List.head?_dropWhile_not (fun c => decide (c ≠ '='))
            (Text.trimChars line.toList)
          rw [hdrop] at hfirst
          simpa using hfirst
        obtain ⟨hline, hleft⟩ := takeWhile_dropWhile_eq_iff.mp ⟨rfl, hc ▸ hdrop⟩
        obtain ⟨rfl, rfl⟩ := Prod.mk.inj (Option.some.inj h)
        refine ⟨_, right, trimChars_eq_iff.mp hline, fun hhead => ?_, hleft, ?_, ?_⟩
        · obtain ⟨rest, hrest⟩ := List.head?_eq_some_iff.mp hhead
          rw [hrest] at hline
          exact hhash _ hline
        · rw [← trimChars_eq_iff, String.toList_ofList]
        · rw [← trimChars_eq_iff, String.toList_ofList]
  · rintro ⟨left, right, hline, hhash, hleft, hname, htext⟩
    have hcs := trimChars_eq_iff.mpr hline
    obtain ⟨htake, hdrop⟩ := takeWhile_dropWhile_eq_iff.mpr ⟨hcs, hleft⟩
    split
    next hnil => simp [hnil] at hcs
    next rest hcomment =>
      rw [hcomment] at hcs
      cases left with
      | nil => cases hcs
      | cons c left =>
        cases hcs
        exact absurd rfl hhash
    next =>
      rw [hdrop, htake, trimChars_eq_iff.mpr hname, String.ofList_toList]
      dsimp only
      rw [trimChars_eq_iff.mpr htext, String.ofList_toList]

theorem Assigns.subset (h : Assigns line name text) :
    name.toList ⊆ line.toList ∧ text.toList ⊆ line.toList := by
  obtain ⟨left, right, hline, -, -, hname, htext⟩ := h
  have hleft : left ⊆ line.toList := fun c hc => hline.subset (List.mem_append_left _ hc)
  have hright : right ⊆ line.toList := fun c hc =>
    hline.subset (List.mem_append_right left (List.mem_cons_of_mem '=' hc))
  exact ⟨fun c hc => hleft (hname.subset hc), fun c hc => hright (htext.subset hc)⟩

/-- What some lines assign, in order. -/
def assignmentsOf (lines : List String) : List (String × String) :=
  lines.filterMap fun line => assignment? line.toList

theorem mem_assignmentsOf_iff :
    (name, text) ∈ assignmentsOf lines ↔ ∃ line ∈ lines, Assigns line name text := by
  simp only [assignmentsOf, List.mem_filterMap, assignment?_eq_some_iff]

theorem assignmentsOf_append (above below : List String) :
    assignmentsOf (above ++ below) = assignmentsOf above ++ assignmentsOf below :=
  List.filterMap_append

theorem assignmentsOf_cons (h : Assigns line name text) (below : List String) :
    assignmentsOf (line :: below) = (name, text) :: assignmentsOf below :=
  List.filterMap_cons_some (assignment?_eq_some_iff.mpr h)

theorem assignments_eq (s : String) : assignments s = assignmentsOf (Text.linesOf s) := by
  rw [assignments, assignmentsOf, Text.linesOf_eq, List.filterMap_map, Path.splitChars_eq_splitOn]
  simp

/-! ### Setting variables -/

/-- Puts some texts in the places of variables, one after the other. -/
def putAll (as : List (String × String)) (vs : List (String × String)) : List (String × String) :=
  as.foldl (fun vs a => put a.1 a.2 vs) vs

theorem putAll_assignment (a : String × String) (as vs : List (String × String)) :
    putAll (a :: as) vs = putAll as (put a.1 a.2 vs) := rfl

/-- Sets some variables, one after the other. -/
def setAll (env : Environment) (as : List (String × String)) : Environment :=
  ⟨putAll as env.bindings⟩

variable {as bs : List (String × String)}

theorem setAll_cons (env : Environment) (a : String × String) (as : List (String × String)) :
    env.setAll (a :: as) = (env.set a.1 a.2).setAll as := rfl

theorem setAll_append (env : Environment) (as bs : List (String × String)) :
    env.setAll (as ++ bs) = (env.setAll as).setAll bs := by
  rw [setAll, putAll, List.foldl_append]
  rfl

theorem get?_cons (v : String × String) (vs : List (String × String)) (name : String) :
    get? ⟨v :: vs⟩ name = if v.1 = name then some v.2 else get? ⟨vs⟩ name := by
  by_cases h : v.1 = name <;> simp [get?, h]

theorem get?_set (env : Environment) (name text other : String) :
    (env.set name text).get? other = if name = other then some text else env.get? other := by
  obtain ⟨vs⟩ := env
  rw [set]
  -- the first variable of the list decides, whether it is the one that is set or not
  induction vs with
  | nil => rw [put, get?_cons]
  | cons v vs ih =>
    rw [put]
    by_cases hv : v.1 = name
    · rw [if_pos hv, get?_cons, get?_cons, hv]
      split <;> rfl
    · rw [if_neg hv, get?_cons, get?_cons, ih]
      by_cases ho : name = other
      · rw [if_pos ho, if_pos ho, if_neg (ho ▸ hv)]
      · rw [if_neg ho, if_neg ho]

theorem get?_setAll_of_not_mem (h : ∀ a ∈ as, a.1 ≠ name) :
    (env.setAll as).get? name = env.get? name := by
  induction as generalizing env with
  | nil => rfl
  | cons a as ih =>
    rw [setAll_cons, ih fun b hb => h b (List.mem_cons_of_mem a hb), get?_set,
      if_neg (h a List.mem_cons_self)]

theorem get?_setAll_of_last (as : List (String × String)) (h : ∀ b ∈ bs, b.1 ≠ name) :
    (env.setAll (as ++ (name, text) :: bs)).get? name = some text := by
  rw [setAll_append, setAll_cons, get?_setAll_of_not_mem h, get?_set, if_pos rfl]

/-! ### Setting them once more -/

/-- The text of a variable after some assignments, if it had a text before. -/
def finalText (as : List (String × String)) (name text : String) : String :=
  as.foldl (fun text a => if a.1 = name then a.2 else text) text

theorem finalText_cons (a : String × String) (as : List (String × String)) (name text : String) :
    finalText (a :: as) name text = finalText as name (if a.1 = name then a.2 else text) := rfl

theorem finalText_finalText (as : List (String × String)) (name text : String) :
    finalText as name (finalText as name text) = finalText as name text := by
  induction as generalizing text with
  | nil => rfl
  | cons a as ih =>
    rw [finalText_cons, finalText_cons]
    by_cases ha : a.1 = name
    · rw [if_pos ha, if_pos ha]
    · rw [if_neg ha, if_neg ha, ih]

/-- A variable that is there takes what is assigned to it and leaves the rest to those behind. -/
theorem putAll_cons (as : List (String × String)) (v : String × String)
    (vs : List (String × String)) :
    putAll as (v :: vs) =
      (v.1, finalText as v.1 v.2) :: putAll (as.filter fun a => a.1 ≠ v.1) vs := by
  induction as generalizing v vs with
  | nil => rfl
  | cons a as ih =>
    rw [putAll_assignment, put, finalText_cons]
    by_cases ha : v.1 = a.1
    · rw [if_pos ha, if_pos ha.symm, ih, List.filter_cons_of_neg (by simpa using ha.symm), ha]
    · rw [if_neg ha, if_neg (Ne.symm ha), ih, List.filter_cons_of_pos (by simpa using Ne.symm ha),
        putAll_assignment]

theorem putAll_putAll_nil (as : List (String × String)) :
    putAll as (putAll as []) = putAll as [] := by
  induction hlength : as.length using Nat.strongRecOn generalizing as with
  | ind n ih =>
    subst hlength
    cases as with
    | nil => rfl
    | cons a as =>
      -- the first assignment makes a variable, and there are fewer for what comes behind it
      have hfirst : putAll (a :: as) [] = putAll (a :: as) [a] := by
        rw [putAll_assignment, putAll_assignment, put, put, if_pos rfl]
      have hfewer : ((a :: as).filter fun b => b.1 ≠ a.1).length < (a :: as).length := by
        rw [List.filter_cons_of_neg (by simp)]
        exact Nat.lt_succ_of_le (List.length_filter_le _ as)
      rw [hfirst, putAll_cons, putAll_cons, finalText_finalText, ih _ hfewer _ rfl]

theorem putAll_putAll (as vs : List (String × String)) :
    putAll as (putAll as vs) = putAll as vs := by
  induction vs generalizing as with
  | nil => exact putAll_putAll_nil as
  | cons v vs ih => rw [putAll_cons, putAll_cons, finalText_finalText, ih]

theorem setAll_setAll (env : Environment) (as : List (String × String)) :
    (env.setAll as).setAll as = env.setAll as := by
  rw [setAll, setAll, putAll_putAll]

/-! ### Lines of assignments -/

/-- Whether a line assigns to a name. -/
def AssignsTo (line name : String) : Prop := ∃ text, Assigns line name text

instance : Decidable (Assigns line name text) := decidable_of_iff _ assignment?_eq_some_iff

instance : Decidable (AssignsTo line name) :=
  decidable_of_iff (∃ a ∈ assignment? line.toList, a.1 = name) <| by
    constructor
    · rintro ⟨⟨_, text⟩, ha, rfl⟩
      exact ⟨text, assignment?_eq_some_iff.mp ha⟩
    · rintro ⟨text, hassigns⟩
      exact ⟨(name, text), assignment?_eq_some_iff.mpr hassigns, rfl⟩

/-- What some lines make of an environment.  A variable has the text that the last line assigns
that assigns to it, and is as it was if there is none. -/
structure Updates (env : Environment) (lines : List String) (result : Environment) : Prop where
  last : ∀ above line below name text, lines = above ++ line :: below → Assigns line name text →
    (∀ l ∈ below, ¬AssignsTo l name) → result.get? name = some text
  other : ∀ name, (∀ line ∈ lines, ¬AssignsTo line name) → result.get? name = env.get? name

theorem ne_of_mem_assignmentsOf (h : ∀ line ∈ lines, ¬AssignsTo line name) :
    ∀ a ∈ assignmentsOf lines, a.1 ≠ name := by
  rintro ⟨_, text⟩ ha rfl
  obtain ⟨line, hline, hassigns⟩ := mem_assignmentsOf_iff.mp ha
  exact h line hline ⟨text, hassigns⟩

theorem updates_setAll (env : Environment) (lines : List String) :
    Updates env lines (env.setAll (assignmentsOf lines)) := by
  constructor
  · rintro above line below name text rfl hline hbelow
    rw [assignmentsOf_append, assignmentsOf_cons hline]
    exact get?_setAll_of_last _ (ne_of_mem_assignmentsOf hbelow)
  · intro name hlines
    exact get?_setAll_of_not_mem (ne_of_mem_assignmentsOf hlines)

/-- Whether an assignment can be made. -/
def IsPossible (a : String × String) : Prop :=
  a.1 ≠ "" ∧ Char.ofNat 0 ∉ a.1.toList ∧ Char.ofNat 0 ∉ a.2.toList

theorem assign_of_no_null (env : Environment) (hname : Char.ofNat 0 ∉ name.toList)
    (htext : Char.ofNat 0 ∉ text.toList) :
    env.assign name text = if name = "" then .error .emptyName else .ok (env.set name text) := by
  simp [assign, hasNull, hname, htext]

theorem extend_append (h : ∀ a ∈ as, IsPossible a) (env : Environment)
    (bs : List (String × String)) : env.extend (as ++ bs) = (env.setAll as).extend bs := by
  induction as generalizing env with
  | nil => rfl
  | cons a as ih =>
    obtain ⟨hne, hname, htext⟩ := h a List.mem_cons_self
    rw [List.cons_append, extend, assign_of_no_null env hname htext, if_neg hne]
    exact ih (fun b hb => h b (List.mem_cons_of_mem a hb)) _

/-- Lines without the null character make their assignments if none is to the empty name. -/
theorem isPossible_of_mem (hnull : ∀ line ∈ lines, Char.ofNat 0 ∉ line.toList)
    (hnames : ∀ line ∈ lines, ¬AssignsTo line "") : ∀ a ∈ assignmentsOf lines, IsPossible a := by
  rintro ⟨name, text⟩ ha
  obtain ⟨line, hline, hassigns⟩ := mem_assignmentsOf_iff.mp ha
  exact ⟨ne_of_mem_assignmentsOf hnames _ ha, fun h => hnull line hline (hassigns.subset.1 h),
    fun h => hnull line hline (hassigns.subset.2 h)⟩

theorem extend_assignmentsOf (env : Environment)
    (hnull : ∀ line ∈ lines, Char.ofNat 0 ∉ line.toList)
    (hnames : ∀ line ∈ lines, ¬AssignsTo line "") :
    env.extend (assignmentsOf lines) = (env.setAll (assignmentsOf lines), none) := by
  rw [← List.append_nil (assignmentsOf lines), extend_append (isPossible_of_mem hnull hnames),
    List.append_nil]
  rfl

/-- The first line that assigns to the empty name ends the reading. -/
theorem extend_assignmentsOf_of_empty (env : Environment) {above below : List String}
    (hnull : ∀ l ∈ above ++ line :: below, Char.ofNat 0 ∉ l.toList)
    (hnames : ∀ l ∈ above, ¬AssignsTo l "") (hline : AssignsTo line "") :
    env.extend (assignmentsOf (above ++ line :: below)) =
      (env.setAll (assignmentsOf above), some .emptyName) := by
  obtain ⟨text, hassigns⟩ := hline
  have habove : ∀ a ∈ assignmentsOf above, IsPossible a :=
    isPossible_of_mem (fun l hl => hnull l (List.mem_append_left _ hl)) hnames
  have htext : Char.ofNat 0 ∉ text.toList := fun h =>
    hnull line (List.mem_append_right above List.mem_cons_self) (hassigns.subset.2 h)
  rw [assignmentsOf_append, assignmentsOf_cons hassigns, extend_append habove, extend,
    assign_of_no_null _ (by decide) htext, if_pos rfl]

end Environment

namespace Settings

open Environment (AssignsTo Updates)

variable {files : Files} {path : Path} {text : String}

theorem ofFile_eq_ofText (env : Environment) (h : files.HoldsText path text) :
    ofFile env files path = ofText env (Text.withLineFeeds text) := by
  obtain ⟨bytes, hfile, htext⟩ := h
  rw [ofFile, hfile]
  simp only [Text.streamed_of_strict htext, Text.unifyLineEnds_eq]

/-- **Reading a file of assignments updates the environment, and the last assignment counts.**
If no line assigns to the empty name, each variable has what is assigned to it last, the others
are as they were, the settings are those of the new environment, and reading the file again
changes nothing.  If there is such a line, the lines above the first one are all that counts. -/
theorem ofFile_updates (env : Environment) (hfile : files.HoldsText path text)
    (hnull : Char.ofNat 0 ∉ text.toList) :
    let lines := Text.linesOf (Text.withLineFeeds text)
    let r := ofFile env files path
    ((∀ line ∈ lines, ¬AssignsTo line "") →
      Updates env lines r.1 ∧ r.2 = .ok <$> fill r.1 {} ∧ ofFile r.1 files path = r) ∧
    ((∃ line ∈ lines, AssignsTo line "") →
      ∃ above line below, lines = above ++ line :: below ∧ (∀ l ∈ above, ¬AssignsTo l "") ∧
        AssignsTo line "" ∧ Updates env above r.1 ∧
        r.2 = pure (.error (.assignment .emptyName))) := by
  intro lines r
  -- the second reading begins in another environment and finds the same lines
  have hread (env : Environment) :
      ofFile env files path = ofText env (Text.withLineFeeds text) := ofFile_eq_ofText env hfile
  have hlines : ∀ line ∈ lines, Char.ofNat 0 ∉ line.toList := fun line hline hzero =>
    (Text.mem_of_mem_withLineFeeds (Text.mem_of_mem_linesOf hline hzero)).elim hnull (by decide)
  have hr : r = ofText env (Text.withLineFeeds text) := hread env
  rw [ofText, Environment.assignments_eq] at hr
  constructor
  · intro hnames
    have hextend (env : Environment) := Environment.extend_assignmentsOf env hlines hnames
    rw [hextend] at hr
    dsimp only at hr
    refine ⟨hr ▸ Environment.updates_setAll env lines, hr ▸ rfl, ?_⟩
    rw [hread, ofText, Environment.assignments_eq, hextend, hr]
    dsimp only
    rw [Environment.setAll_setAll]
  · intro hempty
    -- the first of these lines is where the reading ends
    obtain ⟨line, hfind⟩ : ∃ line, lines.find? (AssignsTo · "") = some line := by
      simpa [← Option.isSome_iff_exists] using hempty
    obtain ⟨hline, above, below, hsplit, habove⟩ := List.find?_eq_some_iff_append.mp hfind
    simp only [decide_eq_true_eq, Bool.not_eq_true', decide_eq_false_iff_not] at hline habove
    have hstop := Environment.extend_assignmentsOf_of_empty env (hsplit ▸ hlines) habove hline
    rw [← hsplit] at hstop
    rw [hstop] at hr
    refine ⟨above, line, below, hsplit, habove, hline, ?_, ?_⟩
    · exact hr ▸ Environment.updates_setAll env above
    · exact hr ▸ rfl

/-- A directory with a file of assignments. -/
def assignmentFiles (text : String) : Files :=
  { root := .directory [(".env", .file (Utf8.bytes text))], here := [] }

theorem holdsText_assignmentFiles (text : String) :
    (assignmentFiles text).HoldsText (Path.ofString ".env") text :=
  ⟨Utf8.bytes text, rfl, Utf8.strict_eq_ok_iff.mpr rfl⟩

/-- The comment assigns nothing, the last line assigns to `A` once more, and nothing is said of
`C`.  Where a line has no name, what is below it does not count. -/
theorem ofFile_updates_assignmentFiles :
    let env : Environment := { bindings := [("A", "0"), ("C", "c")] }
    let r := ofFile env (assignmentFiles "A = 1\r\n#B=z\rB=x=y\n A=2 ") (Path.ofString ".env")
    let r' := ofFile env (assignmentFiles "A=1\n =2\nA=3") (Path.ofString ".env")
    (r.1.get? "A" = some "2" ∧ r.1.get? "B" = some "x=y" ∧ r.1.get? "C" = some "c" ∧
      r.2 = .ok <$> fill r.1 {}) ∧
    r'.1.get? "A" = some "1" ∧ r'.2 = pure (.error (.assignment .emptyName)) := by
  intro env r r'
  have hlines : Text.linesOf (Text.withLineFeeds "A = 1\r\n#B=z\rB=x=y\n A=2 ") =
      ["A = 1", "#B=z", "B=x=y", " A=2 "] := by
    rw [Text.linesOf_eq]
    decide +kernel
  have hlines' : Text.linesOf (Text.withLineFeeds "A=1\n =2\nA=3") = ["A=1", " =2", "A=3"] := by
    rw [Text.linesOf_eq]
    decide +kernel
  constructor
  · obtain ⟨hread, -⟩ :=
      ofFile_updates env (holdsText_assignmentFiles "A = 1\r\n#B=z\rB=x=y\n A=2 ")
        (by decide +kernel)
    rw [hlines] at hread
    obtain ⟨hupdates, hsettings, -⟩ := hread (by decide +kernel)
    exact ⟨hupdates.last ["A = 1", "#B=z", "B=x=y"] " A=2 " [] "A" "2" rfl
        (by decide +kernel) (by decide +kernel),
      hupdates.last ["A = 1", "#B=z"] "B=x=y" [" A=2 "] "B" "x=y" rfl
        (by decide +kernel) (by decide +kernel),
      hupdates.other "C" (by decide +kernel), hsettings⟩
  · obtain ⟨-, hread⟩ :=
      ofFile_updates env (holdsText_assignmentFiles "A=1\n =2\nA=3") (by decide +kernel)
    rw [hlines'] at hread
    obtain ⟨above, line, below, hsplit, habove, hline, hupdates, herror⟩ :=
      hread (by decide +kernel)
    -- the line without a name is the second one
    rcases List.cons_eq_append_iff.mp hsplit with ⟨rfl, hfirst⟩ | ⟨above, rfl, hrest⟩
    · cases hfirst
      exact absurd hline (by decide +kernel)
    · rcases List.cons_eq_append_iff.mp hrest with ⟨rfl, -⟩ | ⟨above, rfl, -⟩
      · exact ⟨hupdates.last [] "A=1" [] "A" "1" rfl (by decide +kernel) (by decide +kernel),
          herror⟩
      · exact absurd (habove " =2" (by simp)) (by decide +kernel)

end Settings

end TapLint
