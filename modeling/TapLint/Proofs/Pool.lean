/-
Every schedule of a pool gives the same outcomes.

In which order workers take tasks and finish them is open, and some lists of actions
stop halfway.  A list of actions that leaves nothing to be done (`Finishes`) gives the
outcomes of the tasks in the order of the tasks, whatever happened in between:

* `outcomes_perform` — the outcomes of a pool that has finished;
* `exists_finishes_append` — a pool with a worker can always be finished, however far
  it has come;
* `finishes_steadily` — keeping all workers busy finishes it.

The invariant is `Sound`: a place that is taken holds the outcome of its own task, and
a task whose place is empty has not been forgotten.
-/
import TapLint.Audit.Pool

namespace TapLint.Pool

variable {α β : Type} {workers n : Nat} {task : Nat → α} {p : Pool α}

/-! ### What actions do -/

theorem act_start {i : Nat} (hi : i ∈ p.waiting) (hfree : p.running.length < workers) :
    act workers task p (.start i) =
      { p with waiting := p.waiting.erase i, running := p.running ++ [i] } :=
  if_pos ⟨hi, hfree⟩

theorem act_finish {i : Nat} (hi : i ∈ p.running) :
    act workers task p (.finish i) =
      { p with running := p.running.erase i, places := p.places.set i (some (task i)) } :=
  if_pos hi

theorem perform_append (begun rest : List Action) :
    perform workers task p (begun ++ rest) =
      perform workers task (perform workers task p begun) rest :=
  List.foldl_append

/-! ### What every action keeps -/

/-- What holds of a pool of `n` tasks at any time. -/
structure Sound (task : Nat → α) (n : Nat) (p : Pool α) : Prop where
  /-- Every task has a place. -/
  length_places : p.places.length = n
  /-- A place that is taken holds the outcome of its task. -/
  settled : ∀ i x, p.places[i]? = some (some x) → x = task i
  /-- A task whose place is empty waits or is being worked on. -/
  pending : ∀ i, p.places[i]? = some none → i ∈ p.waiting ∨ i ∈ p.running

theorem sound_ofSize (task : Nat → α) (n : Nat) : Sound task n (ofSize n) where
  length_places := List.length_replicate
  settled i x h := by
    have hmem := List.mem_of_getElem? h
    simp [ofSize, List.mem_replicate] at hmem
  pending i h := by
    obtain ⟨hi, -⟩ := List.getElem?_eq_some_iff.mp h
    simp only [ofSize, List.length_replicate] at hi
    exact .inl (List.mem_range.mpr hi)

theorem Sound.start (h : Sound task n p) (i : Nat) :
    Sound task n { p with waiting := p.waiting.erase i, running := p.running ++ [i] } where
  length_places := h.length_places
  settled := h.settled
  pending j hj := by
    by_cases hji : j = i
    · exact .inr (hji ▸ List.mem_append_right _ (List.mem_singleton_self j))
    · rcases h.pending j hj with hw | hr
      · exact .inl ((List.mem_erase_of_ne hji).mpr hw)
      · exact .inr (List.mem_append_left _ hr)

theorem Sound.finish (h : Sound task n p) (i : Nat) :
    Sound task n { p with running := p.running.erase i
                          places := p.places.set i (some (task i)) } where
  length_places := by rw [List.length_set, h.length_places]
  settled j x hj := by
    rw [List.getElem?_set] at hj
    by_cases hij : i = j
    · subst hij
      split at hj <;> simp_all
    · rw [if_neg hij] at hj
      exact h.settled j x hj
  pending j hj := by
    rw [List.getElem?_set] at hj
    by_cases hij : i = j
    · -- the place of the finished task is no longer empty
      subst hij
      split at hj <;> simp_all
    · rw [if_neg hij] at hj
      exact (h.pending j hj).imp_right (List.mem_erase_of_ne (Ne.symm hij)).mpr

/-- An action keeps a pool sound. -/
theorem Sound.act (h : Sound task n p) (action : Action) :
    Sound task n (act workers task p action) := by
  cases action with
  | start i =>
    rw [Pool.act]
    split
    · exact h.start i
    · exact h
  | finish i =>
    rw [Pool.act]
    split
    · exact h.finish i
    · exact h

/-- A list of actions keeps a pool sound. -/
theorem Sound.perform (h : Sound task n p) (actions : List Action) :
    Sound task n (perform workers task p actions) := by
  induction actions generalizing p with
  | nil => exact h
  | cons action actions ih => exact ih (h.act action)

theorem isDone_iff : p.isDone ↔ p.waiting = [] ∧ p.running = [] := by
  rw [isDone, Bool.and_eq_true, List.isEmpty_iff, List.isEmpty_iff]

/-- When nothing is left to be done, every place holds the outcome of its task. -/
theorem Sound.outcomes_eq (h : Sound task n p) (hdone : p.isDone) :
    p.outcomes = (List.range n).map task := by
  obtain ⟨hwaiting, hrunning⟩ := isDone_iff.mp hdone
  have hplaces : p.places = (List.range n).map fun i => some (task i) := by
    refine List.ext_getElem? fun i => ?_
    rw [List.getElem?_map]
    by_cases hi : i < n
    · have hlen : i < p.places.length := by rw [h.length_places]; exact hi
      have hget := List.getElem?_eq_getElem hlen
      rw [List.getElem?_range hi, hget]
      cases hx : p.places[i] with
      | none =>
        rw [hx] at hget
        have := h.pending i hget
        simp [hwaiting, hrunning] at this
      | some x =>
        rw [hx] at hget
        rw [h.settled i x hget]
        rfl
    · have hlen : p.places.length ≤ i := by rw [h.length_places]; omega
      rw [List.getElem?_eq_none hlen, List.getElem?_eq_none (by simpa using Nat.le_of_not_lt hi)]
      rfl
  rw [outcomes, hplaces, List.filterMap_map]
  exact congrFun List.filterMap_eq_map _

/-! ### Schedules that finish -/

/-- Whether a list of actions leaves nothing to be done of `n` tasks.  What the tasks
are makes no difference (`Finishes.isDone`). -/
def Finishes (workers n : Nat) (actions : List Action) : Prop :=
  ((ofSize n : Pool Unit).perform workers (fun _ => ()) actions).isDone

instance (workers n : Nat) (actions : List Action) : Decidable (Finishes workers n actions) :=
  inferInstanceAs (Decidable (_ = true))

/-- The pool whose outcomes are mapped. -/
def map (f : α → β) (p : Pool α) : Pool β :=
  { waiting := p.waiting, running := p.running, places := p.places.map (Option.map f) }

theorem map_act (f : α → β) (action : Action) :
    (act workers task p action).map f = act workers (f ∘ task) (p.map f) action := by
  cases action with
  | start i =>
    rw [act, apply_ite (map f)]
    rfl
  | finish i =>
    rw [act, apply_ite (map f)]
    simp only [map, List.map_set, Option.map_some]
    rfl

theorem map_perform (f : α → β) (actions : List Action) :
    (perform workers task p actions).map f = perform workers (f ∘ task) (p.map f) actions := by
  induction actions generalizing p with
  | nil => rfl
  | cons action actions ih =>
    simp only [perform, List.foldl_cons] at ih ⊢
    rw [ih, map_act]

theorem Finishes.isDone {actions : List Action} (h : Finishes workers n actions) :
    (perform workers task (ofSize n) actions).isDone := by
  have hmap : (perform workers task (ofSize n) actions).map (fun _ => ()) =
      perform workers ((fun _ => ()) ∘ task) ((ofSize n).map fun _ => ()) actions :=
    map_perform (fun _ => ()) actions
  have hsize : (ofSize n : Pool α).map (fun _ => ()) = ofSize n := by
    simp [ofSize, map]
  have hforget : ((perform workers task (ofSize n) actions).map fun _ => ()).isDone := by
    rw [hmap, hsize]
    exact h
  exact hforget

/-- **The outcomes do not depend on the schedule.**  Once a pool has finished, its
outcomes are those of the tasks, in the order of the tasks. -/
theorem outcomes_perform {actions : List Action} (h : Finishes workers n actions) :
    (perform workers task (ofSize n) actions).outcomes = (List.range n).map task :=
  ((sound_ofSize task n).perform actions).outcomes_eq h.isDone

/-! ### A pool can always be finished -/

/-- Whatever a pool has come to, a worker is enough to finish it. -/
theorem exists_isDone_perform (hworkers : 0 < workers) (task : Nat → α) (p : Pool α) :
    ∃ actions, (perform workers task p actions).isDone := by
  -- a task that waits counts twice, so that to start one is a step as well
  induction hsize : 2 * p.waiting.length + p.running.length using Nat.strongRecOn
    generalizing p with
  | ind size ih =>
    subst hsize
    cases hr : p.running with
    | cons i rest =>
      have hact : act workers task p (.finish i) =
          { p with running := rest, places := p.places.set i (some (task i)) } := by
        rw [act_finish (by simp [hr])]
        simp [hr]
      obtain ⟨actions, hdone⟩ := ih (2 * p.waiting.length + rest.length) (by simp [hr])
        (act workers task p (.finish i)) (by rw [hact])
      exact ⟨.finish i :: actions, hdone⟩
    | nil =>
      cases hw : p.waiting with
      | cons i rest =>
        have hact : act workers task p (.start i) = { p with waiting := rest, running := [i] } := by
          rw [act_start (by simp [hw]) (by simpa [hr] using hworkers)]
          simp [hw, hr]
        obtain ⟨actions, hdone⟩ := ih (2 * rest.length + 1) (by simp [hw, hr]; omega)
          (act workers task p (.start i)) (by rw [hact]; rfl)
        exact ⟨.start i :: actions, hdone⟩
      | nil => exact ⟨[], isDone_iff.mpr ⟨hw, hr⟩⟩

/-- Every beginning of a schedule goes on to one that finishes. -/
theorem exists_finishes_append (hworkers : 0 < workers) (n : Nat) (begun : List Action) :
    ∃ rest, Finishes workers n (begun ++ rest) := by
  obtain ⟨rest, hdone⟩ := exists_isDone_perform hworkers (fun _ => ())
    (perform workers (fun _ => ()) (ofSize n) begun)
  refine ⟨rest, ?_⟩
  rw [Finishes, perform_append]
  exact hdone

/-! ### Keeping all workers busy -/

variable {crew k : Nat}

/-- A pool that is worked on task by task: `k` tasks are finished, up to `crew` others
are being worked on, and the rest waits. -/
structure Steady (crew n k : Nat) (p : Pool α) : Prop where
  waiting : p.waiting = List.range' (k + crew) (n - (k + crew))
  running : p.running = List.range' k (min crew (n - k))

/-- The first starts give every worker a task. -/
theorem steady_starts (hcrew : crew ≤ n) (hworkers : crew ≤ workers) :
    Steady crew n 0 (perform workers task (ofSize n) ((List.range crew).map .start)) := by
  induction crew with
  | zero =>
    constructor
    · simp [perform, ofSize, List.range_eq_range']
    · simp [perform, ofSize]
  | succ crew ih =>
    have h := ih (by omega) (by omega)
    rw [List.range_succ, List.map_append, perform_append]
    generalize perform workers task (ofSize n) ((List.range crew).map .start) = p at h ⊢
    have hwaiting : p.waiting = crew :: List.range' (crew + 1) (n - (crew + 1)) := by
      rw [h.waiting, Nat.zero_add, show n - crew = (n - (crew + 1)) + 1 by omega, List.range'_succ]
    have hrunning : p.running = List.range' 0 crew := by
      rw [h.running, Nat.sub_zero, Nat.min_eq_left (by omega)]
    have hact : act workers task p (.start crew) =
        { p with waiting := List.range' (crew + 1) (n - (crew + 1))
                 running := List.range' 0 (crew + 1) } := by
      rw [act_start (by simp [hwaiting]) (by rw [hrunning, List.length_range']; omega)]
      simp [hwaiting, hrunning, List.range'_1_concat]
    constructor
    · rw [List.map_singleton, perform, List.foldl_cons, hact, Nat.zero_add]
      rfl
    · rw [List.map_singleton, perform, List.foldl_cons, hact, Nat.sub_zero, Nat.min_eq_left hcrew]
      rfl

/-- Finishing the oldest task and starting the next one goes one task on. -/
theorem Steady.next (h : Steady crew n k p) (hpos : 0 < crew) (hworkers : crew ≤ workers)
    (hk : k < n) :
    Steady crew n (k + 1) (perform workers task p [.finish k, .start (k + crew)]) := by
  have hrunning : p.running = k :: List.range' (k + 1) (min crew (n - k) - 1) := by
    rw [h.running, show min crew (n - k) = (min crew (n - k) - 1) + 1 by omega, List.range'_succ]
    rfl
  have hfinish : act workers task p (.finish k) =
      { p with running := List.range' (k + 1) (min crew (n - k) - 1)
               places := p.places.set k (some (task k)) } := by
    rw [act_finish (by simp [hrunning])]
    simp [hrunning]
  rw [perform, List.foldl_cons, hfinish, List.foldl_cons, List.foldl_nil]
  by_cases hlast : k + crew < n
  · have hwaiting : p.waiting = (k + crew) :: List.range' (k + crew + 1) (n - (k + crew + 1)) := by
      rw [h.waiting, show n - (k + crew) = (n - (k + crew + 1)) + 1 by omega, List.range'_succ]
    rw [show min crew (n - k) - 1 = crew - 1 by omega,
      act_start (by simp [hwaiting]) (by simp; omega)]
    constructor
    · simp [hwaiting, Nat.add_right_comm k 1 crew]
    · rw [show min crew (n - (k + 1)) = (crew - 1) + 1 by omega, List.range'_1_concat,
        show k + 1 + (crew - 1) = k + crew by omega]
  · -- nothing waits any more
    have hwaiting : p.waiting = [] := by
      rw [h.waiting, show n - (k + crew) = 0 by omega, List.range'_zero]
    rw [act, if_neg (by simp [hwaiting])]
    constructor
    · rw [show n - (k + 1 + crew) = 0 by omega]
      exact hwaiting
    · rw [show min crew (n - (k + 1)) = min crew (n - k) - 1 by omega]

theorem Steady.rounds (h : Steady crew n 0 p) (hpos : 0 < crew) (hworkers : crew ≤ workers)
    (hk : k ≤ n) :
    Steady crew n k (perform workers task p
      ((List.range k).flatMap fun i => [.finish i, .start (i + crew)])) := by
  induction k with
  | zero => exact h
  | succ k ih =>
    rw [List.range_succ, List.flatMap_append, perform_append, List.flatMap_singleton]
    exact (ih (by omega)).next hpos hworkers hk

/-- With all workers kept busy, every task is finished. -/
theorem finishes_steadily (hpos : 0 < crew) (hcrew : crew ≤ n) (hworkers : crew ≤ workers) :
    Finishes workers n (steadily crew n) := by
  have hstart : Steady crew n 0 (perform workers (fun _ => ()) (ofSize n)
      ((List.range crew).map .start)) := steady_starts hcrew hworkers
  have h : Steady crew n n (perform workers (fun _ => ()) (ofSize n) (steadily crew n)) := by
    rw [steadily, perform_append]
    exact hstart.rounds hpos hworkers (Nat.le_refl n)
  rw [Finishes, isDone_iff]
  constructor
  · rw [h.waiting, show n - (n + crew) = 0 by omega, List.range'_zero]
  · rw [h.running, Nat.sub_self, Nat.min_zero, List.range'_zero]

end TapLint.Pool
