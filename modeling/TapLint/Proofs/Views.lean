/-
The named parts of a node.

A node has its parts as places among its children, and the conversion fills these places kind by
kind.  Here each part is given by the concrete node that it comes from:

* `receiver_ofTree_call`, and `arguments_ofTree_call` before — the parts of a call;
* `key_ofTree_pair`, `valueNode_ofTree_pair` — those of a pair;
* `superclass_ofTree_classDecl`, `body_ofTree_classDecl` — those of a class;
* `body_ofTree_block` — the body of a block;
* `ownParts_ofTree` — a node has no parts but those of its kind.

The main statement is `views_of_mem_walk`: rules look at the parts of a node and the walk goes
through its children, and both see the same nodes.
-/
import TapLint.Proofs.Folding

namespace TapLint.Node

open Ruby (Tree)
open Ruby.Tree (superclassPart)

variable {src : Source}

/-! ### Calls and pairs -/

theorem receiver_ofTree_call {t : Tree} (h : kindOf t.value.type = .call) :
    (ofTree src t).receiver = (t.field? "receiver").map (ofTree src) := by
  rw [ofTree_eq, assembleNode]
  simp only [factsOf, h, ofCall, fieldOf_convert, receiver, Rose.value_node]
  cases t.field? "receiver" <;> simp [child?, node_convert]

theorem key_ofTree_pair {t : Tree} (h : kindOf t.value.type = .pair) :
    (ofTree src t).key = (t.field? "key").map (ofTree src) := by
  rw [ofTree_eq, assembleNode]
  simp only [factsOf, h, ofPair, fieldOf_convert, key, Rose.value_node]
  cases t.field? "key" <;> simp [child?, node_convert]

theorem valueNode_ofTree_pair {t : Tree} (h : kindOf t.value.type = .pair) :
    (ofTree src t).valueNode = (t.field? "value").map (ofTree src) := by
  rw [ofTree_eq, assembleNode]
  simp only [factsOf, h, ofPair, fieldOf_convert, valueNode, Rose.value_node]
  -- the value is the last child, after the key if there is one
  cases t.field? "value" <;> simp [child?, node_convert]

/-! ### Classes and blocks -/

theorem superclass_ofTree_classDecl {t : Tree} (h : kindOf t.value.type = .classDecl) :
    (ofTree src t).superclass = t.superclassPart.map (ofTree src) := by
  rw [ofTree_eq, assembleNode]
  simp only [factsOf, h, ofClass, fieldOf_convert, superclass, Rose.value_node]
  cases hs : t.field? "superclass" with
  | none => simp [superclassPart, hs]
  | some s => cases hp : s.parts <;> simp [superclassPart, hs, hp, child?]

theorem body_ofTree_classDecl {t : Tree} (h : kindOf t.value.type = .classDecl) :
    (ofTree src t).body = bodyOf src (t.statements.map (convert src)) := by
  rw [ofTree_eq, assembleNode]
  simp only [factsOf, h, ofClass, statementsOf_convert, body, Rose.value_node]
  cases bodyOf src (t.statements.map (convert src)) with
  | none => rfl
  | some b =>
    -- the body is the last child, after the superclass if there is one
    rw [Option.map_some, Option.bind_some, child?, Rose.children_node]
    simp

/-- The body of a class is of the type of bodies, and so it is no call. -/
theorem type_bodyOf {ss : List Tree} {b : Node}
    (h : bodyOf src (ss.map (convert src)) = some b) : b.type = bodyType ∧ b.kind = .other := by
  match ss with
  | [] => cases h
  | [s] =>
    simp only [List.map_cons, List.map_nil, bodyOf, label_convert, node_convert] at h
    split at h
    next htype =>
      cases h
      rw [type_ofTree, kind_ofTree, eq_of_beq htype]
      exact ⟨rfl, rfl⟩
    next =>
      cases h
      exact ⟨rfl, rfl⟩
  | s :: r :: ss =>
    cases h
    exact ⟨rfl, rfl⟩

theorem body_ofTree_block {t : Tree} (h : kindOf t.value.type = .block) :
    (ofTree src t).body = (ofTree src t).children.find? isBlockBody := by
  rw [ofTree_eq, assembleNode]
  simp only [factsOf, h]
  exact List.find?_eq_bind_findIdx?_getElem?.symm

/-! ### The parts that a node does not have -/

/-- A node has no named parts but those of its kind. -/
structure OwnParts (n : Node) : Prop where
  call : n.kind ≠ .call → n.receiver = none ∧ n.arguments = []
  pair : n.kind ≠ .pair → n.key = none ∧ n.valueNode = none
  superclass : n.kind ≠ .classDecl → n.superclass = none
  body : n.kind ≠ .classDecl → n.kind ≠ .block → n.body = none
  name : n.kind ≠ .call → n.kind ≠ .constant → n.kind ≠ .classDecl → n.name = none
  literal : n.literal.isSome ↔ n.kind = .string ∨ n.kind = .symbol

theorem ownParts_ofTree (src : Source) (t : Tree) : (ofTree src t).OwnParts := by
  rw [ofTree_eq, assembleNode]
  cases h : kindOf t.value.type
  all_goals
    simp only [factsOf, h]
    constructor <;> simp [ofCall, ofPair, ofClass, factsOf, h, kind, receiver, arguments, key,
      valueNode, superclass, body, name, literal]

theorem ownParts_covering {kind : Kind} {type : String} {first : Node} {more : List Node}
    (h : Implied kind type (first :: more)) : (covering src kind type first more).OwnParts := by
  cases h
  all_goals
    constructor <;> simp [covering, Node.kind, receiver, arguments, key, valueNode, superclass,
      body, name, literal]

/-! ### Parts and children -/

/-- What a node of the converted tree of `t` has by name, and what it has as children. -/
structure Views (src : Source) (t : Tree) (n : Node) : Prop where
  kind_eq : n.kind = kindOf n.type
  /-- A call has its receiver, its arguments and then the block of the concrete call. -/
  call : n.kind = .call → ∃ s : Tree, s ∈ t.preorder ∧ n = ofTree src s ∧
    n.receiver = (s.field? "receiver").map (ofTree src) ∧
    n.arguments = foldPairs src (s.argumentParts.map (ofTree src)) ∧
    n.children =
      n.receiver.toList ++ n.arguments ++ ((s.field? "block").map (ofTree src)).toList
  pair : n.kind = .pair → ∃ s : Tree, s ∈ t.preorder ∧ n = ofTree src s ∧
    n.key = (s.field? "key").map (ofTree src) ∧
    n.valueNode = (s.field? "value").map (ofTree src) ∧
    n.children = n.key.toList ++ n.valueNode.toList
  classDecl : n.kind = .classDecl → ∃ s : Tree, s ∈ t.preorder ∧ n = ofTree src s ∧
    n.superclass = s.superclassPart.map (ofTree src) ∧
    n.body = bodyOf src (s.statements.map (convert src)) ∧
    n.children = n.superclass.toList ++ n.body.toList
  class_body : n.kind = .classDecl → ∀ b ∈ n.body, b.type = bodyType ∧ b.kind = .other
  block_body : n.kind = .block → n.body = n.children.find? isBlockBody
  arguments_not_pair : ∀ a ∈ n.arguments, a.kind ≠ .pair
  ownParts : n.OwnParts

theorem views_ofTree {s t : Tree} (hs : s ∈ t.preorder) : Views src t (ofTree src s) where
  kind_eq := by rw [kind_ofTree, type_ofTree]
  call h := by
    rw [kind_ofTree] at h
    refine ⟨s, hs, rfl, receiver_ofTree_call h, arguments_ofTree_call h, ?_⟩
    rw [children_ofTree_call src h, receiver_ofTree_call h, arguments_ofTree_call h]
  pair h := by
    rw [kind_ofTree] at h
    refine ⟨s, hs, rfl, key_ofTree_pair h, valueNode_ofTree_pair h, ?_⟩
    rw [children_ofTree_pair src h, key_ofTree_pair h, valueNode_ofTree_pair h]
  classDecl h := by
    rw [kind_ofTree] at h
    refine ⟨s, hs, rfl, superclass_ofTree_classDecl h, body_ofTree_classDecl h, ?_⟩
    rw [children_ofTree_classDecl src h, superclass_ofTree_classDecl h, body_ofTree_classDecl h]
  class_body h b hb := by
    rw [kind_ofTree] at h
    rw [body_ofTree_classDecl h] at hb
    exact type_bodyOf hb
  block_body h := by
    rw [kind_ofTree] at h
    exact body_ofTree_block h
  arguments_not_pair a ha := by
    by_cases h : (ofTree src s).kind = .call
    · rw [kind_ofTree] at h
      rw [arguments_ofTree_call h] at ha
      exact kind_ne_pair_of_mem_foldPairs ha
    · rw [((ownParts_ofTree src s).call h).2] at ha
      exact absurd ha List.not_mem_nil
  ownParts := ownParts_ofTree src s

/-- A covering node has children and no named parts. -/
theorem views_covering {t : Tree} {kind : Kind} {type : String} {first : Node} {more : List Node}
    (h : Implied kind type (first :: more)) : Views src t (covering src kind type first more) := by
  have hown : (covering src kind type first more).OwnParts := ownParts_covering h
  cases h
  all_goals
    refine ⟨rfl, nofun, nofun, nofun, nofun, nofun, ?_, hown⟩
    intro a ha
    rw [(hown.call nofun).2] at ha
    exact absurd ha List.not_mem_nil

/-- **Parts and children agree.**  Every node of a converted tree, whatever the concrete tree,
has the kind of its type.  The children of a call are its receiver, its arguments, of which
none is a pair, and the converted block; those of a pair its key and its value; those of a
class its superclass and its body, which is of the type of bodies; the body of a block is the
first of its children that can be one; strings and symbols have a value; and no node has any
other part. -/
theorem views_of_mem_walk (src : Source) (t : Tree) :
    ∀ n ∈ (ofTree src t).walk, Views src t n := by
  intro n hn
  rw [walk, Rose.walk_eq_preorder] at hn
  cases origin_of_mem hn with
  | concrete hs => exact views_ofTree hs
  | implied himplied _ => exact views_covering himplied

/-! ### A call of which most is lacking -/

open Ruby.Tree (construct token)

/-- A call of nothing, with pairs on both sides of another argument, of which one has no key, and
a block without a body. -/
def bareCall : Tree :=
  construct "method_call" 0 24 none [
    construct "argument_list" 0 18 (some "arguments") [
      construct "pair" 0 4 none [
        token "=>" 0,
        construct "integer" 3 4 (some "value") []],
      construct "hash_splat_argument" 6 9 none [construct "identifier" 8 9 none []],
      construct "pair" 11 18 none [
        construct "hash_key_symbol" 11 12 (some "key") [],
        construct "integer" 14 15 (some "value") []]],
    construct "block" 19 24 (some "block") []]

/-- In a tree where most of what a call can have is lacking, the call has three arguments and,
with its block, four children. -/
theorem views_of_mem_walk_bareCall :
    ∃ n ∈ (ofTree (.ofText none "") bareCall).walk,
      n.kind = .call ∧ n.name = none ∧ n.arguments.map kind = [.hash, .other, .hash] ∧
        n.children.map kind = [.hash, .other, .hash, .block] ∧
        Views (.ofText none "") bareCall n := by
  have hcall : ∃ n ∈ (ofTree (.ofText none "") bareCall).walk,
      n.kind = .call ∧ n.name = none ∧ n.arguments.map kind = [.hash, .other, .hash] ∧
        n.children.map kind = [.hash, .other, .hash, .block] := by decide +kernel
  obtain ⟨n, hn, hkind, hname, harguments, hchildren⟩ := hcall
  exact ⟨n, hn, hkind, hname, harguments, hchildren, views_of_mem_walk _ bareCall n hn⟩

end TapLint.Node
