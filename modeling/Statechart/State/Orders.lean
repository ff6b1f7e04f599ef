import Statechart.State.Node
import Statechart.Traversal.Walk

set_option autoImplicit false

namespace Statechart.StateNode

mutual

/-- The visits of a tree met at a place: each node before the nodes inside it. -/
def preOrderAt (parent : Option StateNode) (path : List Nat) : StateNode → List (Visit StateNode)
  | ⟨name, children⟩ =>
    ⟨⟨name, children⟩, parent, path⟩ :: forestPreOrderAt ⟨name, children⟩ path 0 children

/-- The visits of neighbouring trees, the first of which has the given position. -/
def forestPreOrderAt (parent : StateNode) (path : List Nat) (position : Nat) :
    List StateNode → List (Visit StateNode)
  | [] => []
  | node :: rest =>
    preOrderAt (some parent) (path ++ [position]) node ++
      forestPreOrderAt parent path (position + 1) rest

end

mutual

/-- The visits of a tree met at a place: each node after the nodes inside it. -/
def postOrderAt (parent : Option StateNode) (path : List Nat) : StateNode → List (Visit StateNode)
  | ⟨name, children⟩ =>
    forestPostOrderAt ⟨name, children⟩ path 0 children ++ [⟨⟨name, children⟩, parent, path⟩]

/-- The visits of neighbouring trees, the first of which has the given position. -/
def forestPostOrderAt (parent : StateNode) (path : List Nat) (position : Nat) :
    List StateNode → List (Visit StateNode)
  | [] => []
  | node :: rest =>
    postOrderAt (some parent) (path ++ [position]) node ++
      forestPostOrderAt parent path (position + 1) rest

end

def preOrder (node : StateNode) : List (Visit StateNode) :=
  node.preOrderAt none []

def postOrder (node : StateNode) : List (Visit StateNode) :=
  node.postOrderAt none []

/-- The visits of a tree level by level. -/
def breadthOrder (node : StateNode) : List (Visit StateNode) :=
  (List.range node.height).flatMap (fun depth => (Visit.root node).level children depth)

mutual

theorem finitelyBelow : (node : StateNode) → FinitelyBelow children node
  | ⟨_, children⟩ => .of_children (forest_finitelyBelow children)

theorem forest_finitelyBelow : (forest : List StateNode) →
    ∀ node ∈ forest, FinitelyBelow children node
  | [], _, member => nomatch member
  | first :: rest, node, member =>
    if same : node = first then same ▸ finitelyBelow first
    else forest_finitelyBelow rest node ((List.mem_cons.mp member).resolve_left same)

end

def traverse {β : Type} (order : WalkOrder) (node : StateNode) (seed : β)
    (visitor : β → Visit StateNode → β) : β :=
  Statechart.traverse order children node node.finitelyBelow seed visitor

example : (preOrder ⟨"a", [⟨"b", [⟨"c", []⟩]⟩, ⟨"d", []⟩]⟩).map
    (fun visit => (visit.node.name, visit.path))
    = [("a", []), ("b", [0]), ("c", [0, 0]), ("d", [1])] := by decide +kernel

example : (postOrder ⟨"a", [⟨"b", [⟨"c", []⟩]⟩, ⟨"d", []⟩]⟩).map
    (fun visit => (visit.node.name, visit.path))
    = [("c", [0, 0]), ("b", [0]), ("d", [1]), ("a", [])] := by decide +kernel

example : (breadthOrder ⟨"a", [⟨"b", [⟨"c", []⟩]⟩, ⟨"d", []⟩]⟩).map
    (fun visit => (visit.node.name, visit.path))
    = [("a", []), ("b", [0]), ("d", [1]), ("c", [0, 0])] := by decide +kernel

end Statechart.StateNode
