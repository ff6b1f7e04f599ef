import Statechart.Proofs.State.Visits
import Statechart.Proofs.Traversal.Frontier

set_option autoImplicit false

namespace Statechart

namespace StateNode

theorem postOrderAt_eq (parent : Option StateNode) (path : List Nat) (node : StateNode) :
    node.postOrderAt parent path = forestPostOrderAt node path 0 node.children ++
      [⟨node, parent, path⟩] := by
  cases node
  rw [postOrderAt]

theorem forestPreOrderAt_eq (parent : StateNode) (path : List Nat) (position : Nat)
    (forest : List StateNode) : forestPreOrderAt parent path position forest
      = (forest.zipIdx position).flatMap
        (fun item => item.1.preOrderAt (some parent) (path ++ [item.2])) := by
  induction forest generalizing position with
  | nil => rw [forestPreOrderAt, List.zipIdx_nil, List.flatMap_nil]
  | cons first rest ih => rw [forestPreOrderAt, ih, List.zipIdx_cons, List.flatMap_cons]

theorem forestPostOrderAt_eq (parent : StateNode) (path : List Nat) (position : Nat)
    (forest : List StateNode) : forestPostOrderAt parent path position forest
      = (forest.zipIdx position).flatMap
        (fun item => item.1.postOrderAt (some parent) (path ++ [item.2])) := by
  induction forest generalizing position with
  | nil => rw [forestPostOrderAt, List.zipIdx_nil, List.flatMap_nil]
  | cons first rest ih => rw [forestPostOrderAt, ih, List.zipIdx_cons, List.flatMap_cons]

theorem height_eq (node : StateNode) :
    node.height = (node.children.map height).foldr max 0 + 1 := by
  have highest (forest : List StateNode) : forestHeight forest =
      (forest.map height).foldr max 0 := by
    induction forest with
    | nil => rw [forestHeight, List.map_nil, List.foldr_nil]
    | cons first rest ih => rw [forestHeight, ih, List.map_cons, List.foldr_cons]
  cases node with
  | mk name children => rw [height, highest]

end StateNode

namespace Place

open StateNode

theorem flatMap_children {β : Type} (items : Visit StateNode → List β)
    (place : Place StateNode.children) : place.children.flatMap (fun child => items child.visit)
      = place.visit.node.children.zipIdx.flatMap (fun item =>
          items ⟨item.1, some place.visit.node, place.visit.path ++ [item.2]⟩) := by
  rw [← List.flatMap_map, map_visit_children, Visit.below, List.flatMap_map]

theorem preOrder_eq_preOrderAt (place : Place StateNode.children) :
    place.preOrder = place.visit.node.preOrderAt place.visit.parent place.visit.path := by
  induction place using Place.induct with
  | step place ih =>
    rw [preOrder_eq, preOrderAt_eq, forestPreOrderAt_eq, List.flatMap_congr ih]
    exact congrArg _
      (flatMap_children (fun visit => visit.node.preOrderAt visit.parent visit.path) place)

theorem postOrder_eq_postOrderAt (place : Place StateNode.children) :
    place.postOrder = place.visit.node.postOrderAt place.visit.parent place.visit.path := by
  induction place using Place.induct with
  | step place ih =>
    rw [postOrder_eq, postOrderAt_eq, forestPostOrderAt_eq, List.flatMap_congr ih]
    exact congrArg (· ++ [place.visit])
      (flatMap_children (fun visit => visit.node.postOrderAt visit.parent visit.path) place)

theorem height_eq_height (place : Place StateNode.children) :
    place.height = place.visit.node.height := by
  induction place using Place.induct with
  | step place ih =>
    have nodes : place.children.map (fun child => child.visit.node) =
        place.visit.node.children := by
      have visited := congrArg (List.map Visit.node) place.map_visit_children
      rw [Visit.below, List.map_map, List.map_map] at visited
      exact visited.trans (List.zipIdx_map_fst 0 _)
    rw [height_eq, StateNode.height_eq, List.map_congr_left ih, ← nodes, List.map_map]
    rfl

end Place

namespace StateNode

def visits (order : WalkOrder) (node : StateNode) : List (Visit StateNode) :=
  match order with
  | .breadthFirst => node.breadthOrder
  | .preOrder => node.preOrder
  | .postOrder => node.postOrder

/-- A walk over a tree folds its visitor over the visits of the tree. -/
theorem traverse_eq_foldl {β : Type} (order : WalkOrder) (node : StateNode) (seed : β)
    (visitor : β → Visit StateNode → β) :
    node.traverse order seed visitor = (node.visits order).foldl visitor seed := by
  have lists : (Place.ofRoot node.finitelyBelow).visits order = node.visits order := by
    cases order with
    | breadthFirst =>
      have levels := Place.height_eq_height (Place.ofRoot node.finitelyBelow)
      rw [Place.visits, Place.breadthOrder, levels]
      rfl
    | preOrder => exact Place.preOrder_eq_preOrderAt _
    | postOrder => exact Place.postOrder_eq_postOrderAt _
  rw [traverse, Statechart.traverse_eq_foldl, lists]

end StateNode

end Statechart
