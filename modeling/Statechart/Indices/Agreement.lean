import Statechart.Indices.Indices
import Statechart.State.Nesting

set_option autoImplicit false

namespace Statechart

namespace Hierarchy

/-- The indices of a tree, each folded by a walk of its own. -/
def walked (root : StateNode) : Hierarchy where
  names := root.traverse .preOrder [] (fun names visit =>
    if visit.parent.isSome then names ++ [visit.node.name] else names)
  compound := root.traverse .preOrder .empty
    (fun table visit => table.insert visit.node.name visit.node.isCompound)
  paths := root.traverse .breadthFirst .empty
    (fun table visit => table.insert visit.node.name visit.path)
  childNames := root.traverse .preOrder .empty (fun table visit =>
    table.insert visit.node.name (visit.node.children.map StateNode.name))
  parents := root.traverse .breadthFirst .empty (fun table visit =>
    match visit.parent with
    | some parent => table.insert visit.node.name parent.name
    | none => table)
  descendants := root.traverse .postOrder .empty addDescendants
  shallowAncestors := (root.traverse .preOrder (.empty, .empty) addAncestors).1
  deepAncestors := (root.traverse .preOrder (.empty, .empty) addAncestors).2

/-- Whether one state lies inside another by the texts of their paths: the text of the inner one
goes on from that of the outer one with a dot. -/
def isDottedAncestor (hierarchy : Hierarchy) (ancestor state : String) : Bool :=
  match hierarchy.paths.find? ancestor, hierarchy.paths.find? state with
  | some outer, some inner => (Indices.pathText inner).startsWith (Indices.pathText outer ++ ".")
  | _, _ => false

/-- A list leads outwards from a state, each time to the state that the index has around it,
until there is none. -/
inductive FollowsParents (hierarchy : Hierarchy) : String → List String → Prop where
  | last {state : String} (alone : hierarchy.parents.find? state = none) :
      FollowsParents hierarchy state [state]
  | next {state parent : String} {outwards : List String}
    (around : hierarchy.parents.find? state = some parent)
    (onward : FollowsParents hierarchy parent outwards) :
    FollowsParents hierarchy state (state :: outwards)

/-- What the indices say of two names: one is around the other by the paths, by their texts, by
the lineages and by the descendants exactly if it is in the tree, and parents and children are
kept the same way round. -/
structure AgreeOn (hierarchy : Hierarchy) (states : List StateNode) (outer inner : String) :
    Prop where
  paths : hierarchy.isStrictAncestor outer inner = true ↔ StateNode.Above states outer inner
  texts : hierarchy.isDottedAncestor outer inner = true ↔ StateNode.Above states outer inner
  lineage : outer ∈ (hierarchy.lineage inner).tail ↔ StateNode.Above states outer inner
  descendants : (∃ names, hierarchy.descendants.find? outer = some names ∧ inner ∈ names) ↔
    StateNode.Above states outer inner
  parent : hierarchy.parents.find? inner = some outer ↔
    ∃ names, hierarchy.childNames.find? outer = some names ∧ inner ∈ names

/-- What the indices say of one name. -/
structure AgreeAt (hierarchy : Hierarchy) (states : List StateNode) (state : String) : Prop where
  outwards : hierarchy.FollowsParents state (hierarchy.lineage state)
  unrepeated : (hierarchy.lineage state).Nodup
  root : (hierarchy.lineage state).getLast? = some rootName
  history : hierarchy.historyAncestors state
    = (hierarchy.lineage state).filter (fun around => around ≠ state ∧ around ≠ rootName)
  shallow : hierarchy.shallowAncestors.find? state = (hierarchy.historyAncestors state).head?
  descendants : ∃ node, (node = .root states ∨ StateNode.Inside node (.root states)) ∧
    node.name = state ∧ hierarchy.descendants.find? state = some node.namesInside
  once : ∀ names, hierarchy.descendants.find? state = some names → names.Nodup
  compound : hierarchy.isCompound state = true ↔
    ∃ names, hierarchy.descendants.find? state = some names ∧ names ≠ []

end Hierarchy

end Statechart
