import Mathlib.Data.List.MinMax
import Statechart.Traversal.Walk

set_option autoImplicit false

namespace Statechart

variable {α : Type}

/-- The node that a path of child positions leads to. -/
def nodeAt (childrenOf : α → List α) : List Nat → α → Option α
  | [], node => some node
  | position :: path, node => (childrenOf node)[position]?.bind (nodeAt childrenOf path)

/-- A path of child positions leads down from a node. -/
def LeadsDown (childrenOf : α → List α) (root : α) (path : List Nat) : Prop :=
  (nodeAt childrenOf path root).isSome = true

namespace Visit

/-- A visit says truly how its node is reached from a root: its path leads to the node, and
without the last step to the parent. Only the root has no parent. -/
structure Reaches (childrenOf : α → List α) (root : α) (visit : Visit α) : Prop where
  node : nodeAt childrenOf visit.path root = some visit.node
  parent : visit.path ≠ [] → visit.parent = nodeAt childrenOf visit.path.dropLast root
  top : visit.parent = none ↔ visit.path = []

/-- A visit comes before another level by level: its path is shorter, or equally long and
lexicographically smaller. -/
def Before (first second : Visit α) : Prop :=
  first.depth < second.depth ∨ first.depth = second.depth ∧ first.path < second.path

end Visit

/-- A visit below which only finitely many paths lead. -/
structure Place (childrenOf : α → List α) where
  visit : Visit α
  finite : FinitelyBelow childrenOf visit.node

namespace Place

variable {childrenOf : α → List α}

def ofRoot {root : α} (finite : FinitelyBelow childrenOf root) : Place childrenOf :=
  ⟨.root root, finite⟩

/-- The places one step further down, in the order of the children. -/
def children (place : Place childrenOf) : List (Place childrenOf) :=
  (place.visit.below childrenOf).attach.map
    (fun child => ⟨child.1, place.finite.child (mem_of_mem_below child.2)⟩)

theorem map_visit_children (place : Place childrenOf) :
    place.children.map visit = place.visit.below childrenOf := by
  rw [children, List.map_map]
  exact List.attach_map_subtype_val _

theorem mem_below_of_mem_children {place child : Place childrenOf}
    (direct : child ∈ place.children) : child.visit ∈ place.visit.below childrenOf := by
  rw [← map_visit_children]
  exact List.mem_map_of_mem direct

/-- A walk makes fewer stops below a child than below its parent. -/
theorem stopsBelow_lt {place child : Place childrenOf} (direct : child ∈ place.children) :
    (stopsBelow childrenOf child.visit.node).length <
      (stopsBelow childrenOf place.visit.node).length := by
  have listed := mem_of_mem_below (mem_below_of_mem_children direct)
  have part :=
    (List.sublist_flatten_of_mem
      (List.mem_map_of_mem (f := stopsBelow childrenOf) listed)).length_le
  rw [stopsBelow_eq place.finite, List.length_cons, List.length_cons, List.flatMap_def]
  omega

/-- What holds of a place if it holds of its children holds of every place. -/
theorem induct {motive : Place childrenOf → Prop}
    (step : ∀ place : Place childrenOf, (∀ child ∈ place.children, motive child) → motive place)
    (place : Place childrenOf) : motive place := by
  induction count : (stopsBelow childrenOf place.visit.node).length using Nat.strongRecOn
      generalizing place with
  | ind count ih =>
    subst count
    exact step place (fun child direct => ih _ (stopsBelow_lt direct) child rfl)

/-- The visits below a place: its own, and then those below its children, child by child. -/
def preOrder (place : Place childrenOf) : List (Visit α) :=
  place.visit :: place.children.attach.flatMap (fun child => child.1.preOrder)
termination_by (stopsBelow childrenOf place.visit.node).length
decreasing_by exact stopsBelow_lt child.2

/-- The visits below a place: those below its children, child by child, and then its own. -/
def postOrder (place : Place childrenOf) : List (Visit α) :=
  place.children.attach.flatMap (fun child => child.1.postOrder) ++ [place.visit]
termination_by (stopsBelow childrenOf place.visit.node).length
decreasing_by exact stopsBelow_lt child.2

/-- The number of levels below a place, its own included. -/
def height (place : Place childrenOf) : Nat :=
  (place.children.attach.map (fun child => child.1.height)).foldr max 0 + 1
termination_by (stopsBelow childrenOf place.visit.node).length
decreasing_by exact stopsBelow_lt child.2

theorem preOrder_eq (place : Place childrenOf) :
    place.preOrder = place.visit :: place.children.flatMap preOrder := by
  rw [preOrder, List.flatMap_subtype (g := preOrder) (fun _ _ => rfl), List.unattach_attach]

theorem postOrder_eq (place : Place childrenOf) :
    place.postOrder = place.children.flatMap postOrder ++ [place.visit] := by
  rw [postOrder, List.flatMap_subtype (g := postOrder) (fun _ _ => rfl), List.unattach_attach]

theorem height_eq (place : Place childrenOf) :
    place.height = (place.children.map height).foldr max 0 + 1 := by
  rw [height, List.map_subtype (g := height) (fun _ _ => rfl), List.unattach_attach]

theorem height_lt_of_mem {place child : Place childrenOf} (direct : child ∈ place.children) :
    child.height < place.height := by
  have bounded : child.height ≤ (place.children.map height).foldr max 0 :=
    List.le_max_of_le' 0 (List.mem_map_of_mem direct) le_rfl
  rw [height_eq place]
  exact Nat.lt_succ_of_le bounded

/-- The visits below a place level by level, each level in the order of the level above it. -/
def breadthOrder (place : Place childrenOf) : List (Visit α) :=
  (List.range place.height).flatMap (fun steps => place.visit.level childrenOf steps)

/-- The visits below a place in an order. -/
def visits (order : WalkOrder) (place : Place childrenOf) : List (Visit α) :=
  match order with
  | .breadthFirst => place.breadthOrder
  | .preOrder => place.preOrder
  | .postOrder => place.postOrder

end Place

end Statechart
