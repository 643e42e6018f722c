/-
Finitely branching trees with a value at every node.

Concrete syntax and the simplified syntax built from it are both trees of this
kind; they differ only in what a node carries.  The module gives

* `Rose.fold` — the value of a tree from the values of its subtrees;
* `Rose.preorder` — every subtree, a node before its children, by recursion;
* `Rose.walk` — the same list, by a loop over a stack;
* `Rose.walkWithAncestors` — the walk, with the path that leads to each node.

A deep tree costs the loops no call depth, which is why the program uses them.
-/

namespace TapLint

universe u v

/-- A tree whose every node has a value and finitely many children in order. -/
inductive Rose (α : Type u) where
  | node (value : α) (children : List (Rose α))

namespace Rose

variable {α : Type u} {β : Type v}

/-- What the root carries. -/
def value : Rose α → α
  | node a _ => a

/-- The subtrees directly below the root. -/
def children : Rose α → List (Rose α)
  | node _ cs => cs

instance [Inhabited α] : Inhabited (Rose α) := ⟨node default []⟩

@[simp] theorem value_node (a : α) (cs : List (Rose α)) : (node a cs).value = a := rfl

@[simp] theorem children_node (a : α) (cs : List (Rose α)) : (node a cs).children = cs := rfl

/-! ### Recursion -/

mutual

/-- The value of a tree, computed from the root's value and the values of the children. -/
def fold (f : α → List β → β) : Rose α → β
  | node a cs => f a (foldList f cs)

/-- The values of a list of trees. -/
def foldList (f : α → List β → β) : List (Rose α) → List β
  | [] => []
  | c :: cs => fold f c :: foldList f cs

end

theorem foldList_eq_map (f : α → List β → β) (cs : List (Rose α)) :
    foldList f cs = cs.map (fold f) := by
  induction cs with
  | nil => rfl
  | cons c cs ih => simp [foldList, ih]

theorem fold_node (f : α → List β → β) (a : α) (cs : List (Rose α)) :
    fold f (node a cs) = f a (cs.map (fold f)) := by
  rw [fold, foldList_eq_map]

mutual

/-- How many nodes a tree has. -/
def size : Rose α → Nat
  | node _ cs => sizeList cs + 1

/-- How many nodes a list of trees has. -/
def sizeList : List (Rose α) → Nat
  | [] => 0
  | c :: cs => size c + sizeList cs

end

theorem sizeList_append (xs ys : List (Rose α)) :
    sizeList (xs ++ ys) = sizeList xs + sizeList ys := by
  induction xs with
  | nil => simp [sizeList]
  | cons x xs ih => simp [sizeList, ih, Nat.add_assoc]

theorem size_eq (t : Rose α) : t.size = sizeList t.children + 1 := by
  cases t; rfl

mutual

/-- Every subtree, the tree itself first, a node before what is below it. -/
def preorder : Rose α → List (Rose α)
  | node a cs => node a cs :: preorderList cs

/-- The subtrees of a list of trees, one tree after the other. -/
def preorderList : List (Rose α) → List (Rose α)
  | [] => []
  | c :: cs => preorder c ++ preorderList cs

end

/-! ### Loops over a stack -/

/-- Pops the top tree, puts its children back in its place, and goes on until
the stack is empty; what was popped is the result, in that order. -/
def drain (stack : List (Rose α)) (popped : List (Rose α)) : List (Rose α) :=
  match stack with
  | [] => popped.reverse
  | t :: rest => drain (t.children ++ rest) (t :: popped)
termination_by sizeList stack
decreasing_by
  rw [sizeList_append, sizeList, size_eq]
  omega

/-- Every node strictly below the root, a node before what is below it. -/
def descendants (t : Rose α) : List (Rose α) :=
  drain t.children []

/-- The root and all its descendants. -/
def walk (t : Rose α) : List (Rose α) :=
  t :: t.descendants

/-- Like `drain`, each tree with its ancestors, the outermost first. -/
def drainWithAncestors (stack : List (Rose α × List (Rose α)))
    (popped : List (Rose α × List (Rose α))) : List (Rose α × List (Rose α)) :=
  match stack with
  | [] => popped.reverse
  | (t, ancestors) :: rest =>
    drainWithAncestors (t.children.map (·, ancestors ++ [t]) ++ rest) ((t, ancestors) :: popped)
termination_by sizeList (stack.map (·.1))
decreasing_by
  have h : (t.children.map fun c => (c, ancestors ++ [t])).map (·.1) = t.children := by
    simp [Function.comp_def]
  simp only [List.map_append, h, List.map_cons, sizeList_append, sizeList, size_eq]
  omega

/-- Every node with the chain of its ancestors, from the root to its parent. -/
def walkWithAncestors (t : Rose α) : List (Rose α × List (Rose α)) :=
  drainWithAncestors [(t, [])] []

end Rose

end TapLint
