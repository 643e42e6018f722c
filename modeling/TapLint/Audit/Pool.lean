/-
Doing many tasks at a time.

A pool has a number of workers.  A free worker takes a task that waits; a task
that is finished leaves its outcome in its own place.  In which order the tasks are
taken and finished is open, and a list of actions says how it went in one case.

* `Pool.act` — what an action does;
* `Pool.perform` — what a list of actions does;
* `Pool.outcomes` — the outcomes, in the order of the tasks;
* `Pool.steadily` — a list of actions that keeps all workers busy.
-/

namespace TapLint

/-- Something that happens in a pool. -/
inductive Action where
  /-- A free worker takes a task. -/
  | start (task : Nat)
  /-- The worker of a task is done with it. -/
  | finish (task : Nat)
  deriving Repr, DecidableEq

/-- Tasks that wait, tasks that are being worked on, and for every task the place
of its outcome. -/
structure Pool (α : Type) where
  waiting : List Nat
  running : List Nat
  places : List (Option α)
  deriving Repr, DecidableEq

namespace Pool

variable {α : Type}

/-- A pool in which all of `n` tasks wait. -/
def ofSize (n : Nat) : Pool α :=
  { waiting := List.range n, running := [], places := List.replicate n none }

/-- What an action does.  One that cannot happen does nothing. -/
def act (workers : Nat) (task : Nat → α) (p : Pool α) : Action → Pool α
  | .start i =>
    if i ∈ p.waiting ∧ p.running.length < workers then
      { p with waiting := p.waiting.erase i, running := p.running ++ [i] }
    else p
  | .finish i =>
    if i ∈ p.running then
      { p with running := p.running.erase i, places := p.places.set i (some (task i)) }
    else p

/-- What a list of actions does. -/
def perform (workers : Nat) (task : Nat → α) (p : Pool α) (actions : List Action) : Pool α :=
  actions.foldl (act workers task) p

/-- Whether nothing is left to be done. -/
def isDone (p : Pool α) : Bool := p.waiting.isEmpty && p.running.isEmpty

/-- The outcomes, in the order of the tasks. -/
def outcomes (p : Pool α) : List α := p.places.filterMap id

/-- Every worker starts on a task, and whenever the oldest task is finished the next
one that waits is started. -/
def steadily (workers n : Nat) : List Action :=
  (List.range workers).map .start ++
    (List.range n).flatMap fun i => [.finish i, .start (i + workers)]

end Pool

end TapLint
