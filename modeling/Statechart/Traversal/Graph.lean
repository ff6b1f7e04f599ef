import Statechart.Traversal.Walk

set_option autoImplicit false

namespace Statechart

/-- A graph whose nodes are numbered: entry `n` lists the successors of node `n`. -/
structure Graph where
  successors : List (List Nat)

namespace Graph

/-- The successors of a node; a number beyond the list has none. -/
def childrenOf (graph : Graph) (node : Nat) : List Nat :=
  graph.successors[node]?.getD []

/-- A node with the number of steps that may still be taken from it. -/
structure Bounded where
  node : Nat
  room : Nat

def boundedChildren (graph : Graph) (place : Bounded) : List Bounded :=
  match place.room with
  | 0 => []
  | room + 1 => (graph.childrenOf place.node).map (⟨·, room⟩)

theorem finitelyBelow_bounded (graph : Graph) (room : Nat) :
    ∀ node, FinitelyBelow graph.boundedChildren ⟨node, room⟩ := by
  induction room with
  | zero => exact fun node => .of_children (fun child member => nomatch member)
  | succ room ih =>
    refine fun node => .of_children (fun child member => ?_)
    obtain ⟨successor, _, rfl⟩ := List.mem_map.mp member
    exact ih successor

/-- Folds a visitor over every downward path of at most as many steps as there are nodes; in a
graph without cycles no path is longer. -/
def traverse {β : Type} (graph : Graph) (order : WalkOrder) (root : Nat) (seed : β)
    (visitor : β → Visit Nat → β) : β :=
  Statechart.traverse order graph.boundedChildren ⟨root, graph.successors.length⟩
    (graph.finitelyBelow_bounded graph.successors.length root) seed
    (fun result visit =>
      visitor result ⟨visit.node.node, visit.parent.map Bounded.node, visit.path⟩)

end Graph

end Statechart
