import Statechart.State.Orders
import Statechart.Table

set_option autoImplicit false

namespace Statechart

/-- The indices of a hierarchy, the virtual root included unless it is said to be left out.
Where a name is declared more than once, the last declaration in the order of the index counts:
in pre-order for what lies inside a state, level by level for where it lies. -/
structure Hierarchy where
  /-- The declared names in pre-order, repeated ones repeated, the root left out. -/
  names : List String
  /-- Whether a state is compound. -/
  compound : Table Bool
  /-- The child positions that lead to a state. -/
  paths : Table (List Nat)
  /-- The names of the children. -/
  childNames : Table (List String)
  /-- The name of the state directly around, for every state but the root. -/
  parents : Table String
  /-- The names of all states inside. -/
  descendants : Table (List String)
  /-- The name of the state directly around, for states below the top level. -/
  shallowAncestors : Table String
  /-- The names of the states around, innermost first, the root left out. -/
  deepAncestors : Table (List String)
  deriving DecidableEq

namespace Hierarchy

/-- The names below the root, in pre-order. -/
def namesOf (root : StateNode) : List String :=
  (root.preOrder.filter (fun visit => visit.parent.isSome)).map (fun visit => visit.node.name)

def compoundOf (root : StateNode) : Table Bool :=
  .ofList (root.preOrder.map (fun visit => (visit.node.name, visit.node.isCompound)))

def pathsOf (root : StateNode) : Table (List Nat) :=
  .ofList (root.breadthOrder.map (fun visit => (visit.node.name, visit.path)))

def childNamesOf (root : StateNode) : Table (List String) :=
  .ofList (root.preOrder.map (fun visit =>
    (visit.node.name, visit.node.children.map StateNode.name)))

def parentsOf (root : StateNode) : Table String :=
  .ofList (root.breadthOrder.filterMap
    (fun visit => visit.parent.map (fun parent => (visit.node.name, parent.name))))

/-- Adds a node whose children have been added: below it lie each child and what lies below that. -/
def addDescendants (table : Table (List String)) (visit : Visit StateNode) : Table (List String) :=
  table.insert visit.node.name
    (visit.node.children.flatMap (fun child => child.name :: (table.find? child.name).getD []))

def descendantsOf (root : StateNode) : Table (List String) :=
  root.postOrder.foldl addDescendants .empty

/-- Adds a node whose parent has been added: around it lie the parent and what lies around that. -/
def addAncestors (tables : Table String × Table (List String)) (visit : Visit StateNode) :
    Table String × Table (List String) :=
  match visit.parent with
  | some parent =>
    if 1 < visit.depth then
      (tables.1.insert visit.node.name parent.name,
        tables.2.insert visit.node.name (parent.name :: (tables.2.find? parent.name).getD []))
    else (tables.1, tables.2.insert visit.node.name [])
  | none => (tables.1, tables.2.insert visit.node.name [])

/-- What lies around each name: the parent alone, and all ancestors. -/
def ancestorsOf (root : StateNode) : Table String × Table (List String) :=
  root.preOrder.foldl addAncestors (.empty, .empty)

def ofRoot (root : StateNode) : Hierarchy where
  names := namesOf root
  compound := compoundOf root
  paths := pathsOf root
  childNames := childNamesOf root
  parents := parentsOf root
  descendants := descendantsOf root
  shallowAncestors := (ancestorsOf root).1
  deepAncestors := (ancestorsOf root).2

def ofStates (states : List StateNode) : Hierarchy :=
  ofRoot (.root states)

/-- Whether a name belongs to the hierarchy, the root included. -/
def contains (hierarchy : Hierarchy) (state : String) : Bool :=
  hierarchy.compound.contains state

def isCompound (hierarchy : Hierarchy) (state : String) : Bool :=
  (hierarchy.compound.find? state).getD false

/-- A state and the states around it, at most so many. -/
def chain (hierarchy : Hierarchy) : Nat → String → List String
  | 0, _ => []
  | room + 1, state =>
    match hierarchy.parents.find? state with
    | none => [state]
    | some parent => state :: chain hierarchy room parent

/-- A state and the states around it up to the root. No chain without repetition is longer than
the names that have a parent and one more. -/
def lineage (hierarchy : Hierarchy) (state : String) : List String :=
  hierarchy.chain (hierarchy.parents.size + 1) state

/-- The states around a state for which its exit is recorded. -/
def historyAncestors (hierarchy : Hierarchy) (state : String) : List String :=
  (hierarchy.deepAncestors.find? state).getD []

/-- Whether one state lies inside another: its path goes on from the other's. -/
def isStrictAncestor (hierarchy : Hierarchy) (ancestor state : String) : Bool :=
  match hierarchy.paths.find? ancestor, hierarchy.paths.find? state with
  | some outer, some inner => outer.isPrefixOf inner && outer.length < inner.length
  | _, _ => false

/-- The number of different declared names, the root's left out. -/
def declaredCount (hierarchy : Hierarchy) : Nat :=
  (hierarchy.compound.keys.filter (fun name => name ≠ rootName)).length

end Hierarchy

end Statechart
