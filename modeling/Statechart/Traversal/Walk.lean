import Statechart.Traversal.Frontier

set_option autoImplicit false

namespace Statechart

/-- Numbered one by one, items are in the order of their numbers. -/
theorem pairwise_zipIdx {α : Type} (items : List α) :
    items.zipIdx.Pairwise (fun first second => first.2 < second.2) := by
  have positions : (items.zipIdx.map Prod.snd).Pairwise (· < ·) := by
    rw [List.zipIdx_map_snd]
    exact List.pairwise_lt_range'
  exact List.pairwise_map.mp positions

/-- A node as it is reached from the root. -/
structure Visit (α : Type) where
  node : α
  parent : Option α
  path : List Nat

namespace Visit

variable {α : Type}

def root (node : α) : Visit α :=
  ⟨node, none, []⟩

/-- The number of steps from the root. -/
def depth (visit : Visit α) : Nat :=
  visit.path.length

/-- The visits one step further down, in the order of the children. -/
def below (childrenOf : α → List α) (visit : Visit α) : List (Visit α) :=
  (childrenOf visit.node).zipIdx.map
    (fun child => ⟨child.1, some visit.node, visit.path ++ [child.2]⟩)

/-- The visits a number of steps further down, in the order of their paths. -/
def level (childrenOf : α → List α) : Nat → Visit α → List (Visit α)
  | 0, visit => [visit]
  | steps + 1, visit => (visit.below childrenOf).flatMap (level childrenOf steps)

end Visit

/-- The order in which a walk visits nodes. -/
inductive WalkOrder where
  | breadthFirst
  | preOrder
  | postOrder
  deriving DecidableEq

namespace WalkOrder

def discipline : WalkOrder → Discipline
  | .breadthFirst => .queue
  | .preOrder | .postOrder => .stack

/-- Whether children come before their parent. -/
def childrenFirst : WalkOrder → Bool
  | .breadthFirst | .preOrder => false
  | .postOrder => true

end WalkOrder

variable {α β : Type}

/-- Only finitely many paths lead down from a node. -/
def FinitelyBelow (childrenOf : α → List α) (node : α) : Prop :=
  Acc (fun child parent => child ∈ childrenOf parent) node

theorem FinitelyBelow.child {childrenOf : α → List α} {node child : α}
    (finite : FinitelyBelow childrenOf node)
    (member : child ∈ childrenOf node) : FinitelyBelow childrenOf child :=
  finite.inv member

theorem FinitelyBelow.of_children {childrenOf : α → List α} {node : α}
    (below : ∀ child ∈ childrenOf node, FinitelyBelow childrenOf child) :
    FinitelyBelow childrenOf node :=
  .intro node below

/-- The nodes that a walk stops at below a node, each one twice: when its children are
scheduled, and when it is visited. -/
noncomputable def FinitelyBelow.stops {childrenOf : α → List α} {node : α}
    (finite : FinitelyBelow childrenOf node) : List α :=
  Acc.rec (motive := fun _ _ => List α)
    (fun node _ below => node :: node ::
      (childrenOf node).attach.flatMap (fun child => below child.1 child.2)) finite

open Classical in
/-- The stops below a node, or none if there are infinitely many. -/
noncomputable def stopsBelow (childrenOf : α → List α) (node : α) : List α :=
  if finite : FinitelyBelow childrenOf node then finite.stops else []

theorem stopsBelow_eq {childrenOf : α → List α} {node : α}
    (finite : FinitelyBelow childrenOf node) :
    stopsBelow childrenOf node = node :: node ::
      (childrenOf node).flatMap (stopsBelow childrenOf) := by
  have below : (childrenOf node).attach.flatMap (fun child => (finite.child child.2).stops)
      = (childrenOf node).flatMap (stopsBelow childrenOf) := by
    rw [List.flatMap_subtype (g := stopsBelow childrenOf)
      (fun child member => (dif_pos (finite.child member)).symm), List.unattach_attach]
  rw [← below, stopsBelow, dif_pos finite]
  cases finite with
  | intro _ below => rfl

theorem map_node_below (childrenOf : α → List α) (visit : Visit α) :
    (visit.below childrenOf).map Visit.node = childrenOf visit.node := by
  rw [Visit.below, List.map_map]
  exact List.zipIdx_map_fst 0 (childrenOf visit.node)

theorem mem_of_mem_below {childrenOf : α → List α} {visit child : Visit α}
    (member : child ∈ visit.below childrenOf) : child.node ∈ childrenOf visit.node := by
  rw [← map_node_below childrenOf visit]
  exact List.mem_map_of_mem member

/-- A pending node of a walk; an expanded one has its children in front of it. -/
structure Pending (childrenOf : α → List α) where
  visit : Visit α
  expanded : Bool
  finite : FinitelyBelow childrenOf visit.node

namespace Pending

variable {childrenOf : α → List α}

def children (entry : Pending childrenOf) : List (Pending childrenOf) :=
  (entry.visit.below childrenOf).attach.map
    (fun child => ⟨child.1, false, entry.finite.child (mem_of_mem_below child.2)⟩)

def expand (entry : Pending childrenOf) : Pending childrenOf :=
  { entry with expanded := true }

/-- The stops that a pending node will still make necessary, only one of them when it waits for
its visit. -/
noncomputable def stops (entry : Pending childrenOf) : List α :=
  if entry.expanded then [entry.visit.node] else stopsBelow childrenOf entry.visit.node

@[simp] theorem stops_expand (entry : Pending childrenOf) :
    entry.expand.stops = [entry.visit.node] := rfl

theorem stops_of_fresh (entry : Pending childrenOf) (fresh : entry.expanded = false) :
    entry.stops = entry.visit.node :: entry.visit.node :: entry.children.flatMap stops := by
  have below : (childrenOf entry.visit.node).flatMap (stopsBelow childrenOf) =
      entry.children.flatMap stops := by
    rw [← map_node_below childrenOf entry.visit, List.flatMap_map, children, List.flatMap_map]
    rw [List.flatMap_subtype (g := fun visit => stopsBelow childrenOf visit.node) (fun _ _ => rfl),
      List.unattach_attach]
  rw [stops, fresh, if_neg Bool.false_ne_true, stopsBelow_eq entry.finite, below]

theorem length_stops_pos (entry : Pending childrenOf) : 0 < entry.stops.length := by
  cases fresh : entry.expanded with
  | true => simp [stops, fresh]
  | false => simp [stops_of_fresh entry fresh]

end Pending

/-- Visits everything pending, and everything below it. A queue gives breadth first and a stack
depth first; for children before their parent a node is put back once behind its children. -/
def walk {childrenOf : α → List α} (childrenFirst : Bool) (visitor : β → Visit α → β)
    (frontier : Frontier (Pending childrenOf)) (result : β) : β :=
  match _next : frontier.items with
  | [] => result
  | entry :: rest =>
    let remaining : Frontier (Pending childrenOf) := { frontier with items := rest }
    if _done : entry.expanded then walk childrenFirst visitor remaining (visitor result entry.visit)
    else if childrenFirst && !entry.children.isEmpty then
      walk childrenFirst visitor (remaining.pushAll (entry.children ++ [entry.expand])) result
    else walk childrenFirst visitor (remaining.pushAll entry.children) (visitor result entry.visit)
termination_by (frontier.items.flatMap Pending.stops).length
decreasing_by
  · have positive := entry.length_stops_pos
    rw [_next, List.flatMap_cons, List.length_append]
    omega
  · rw [Frontier.length_flatMap_pushAll, _next, List.flatMap_cons,
      entry.stops_of_fresh (by simpa using _done)]
    simp only [List.flatMap_append, List.flatMap_singleton, Pending.stops_expand,
      List.length_append, List.length_cons, List.length_nil]
    omega
  · rw [Frontier.length_flatMap_pushAll, _next, List.flatMap_cons,
      entry.stops_of_fresh (by simpa using _done)]
    simp only [List.length_append, List.length_cons]
    omega

/-- Folds a visitor over everything below a root, each downward path visited once. -/
def traverse (order : WalkOrder) (childrenOf : α → List α) (root : α)
    (finite : FinitelyBelow childrenOf root) (seed : β) (visitor : β → Visit α → β) : β :=
  walk order.childrenFirst visitor
    ((Frontier.empty order.discipline).push ⟨Visit.root root, false, finite⟩) seed

end Statechart
