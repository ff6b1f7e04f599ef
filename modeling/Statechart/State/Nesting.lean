import Statechart.State.Orders

set_option autoImplicit false

namespace Statechart.StateNode

/-- A node lies inside another: directly in it, or directly in a node that lies inside it. -/
inductive Inside : StateNode → StateNode → Prop where
  | child {inner outer : StateNode} (direct : inner ∈ outer.children) : Inside inner outer
  | deeper {inner middle outer : StateNode} (direct : inner ∈ middle.children)
    (above : Inside middle outer) : Inside inner outer

/-- The declared names are pairwise distinct and none of them is the root's: no name occurs
twice under the root. -/
def DistinctNames (states : List StateNode) : Prop :=
  ((root states).preOrder.map (fun visit => visit.node.name)).Nodup

/-- A state of this name is declared. -/
def Declared (states : List StateNode) (name : String) : Prop :=
  ∃ node, Inside node (root states) ∧ node.name = name

/-- A state of this name is declared that has no states inside it. -/
def DeclaredAtomic (states : List StateNode) (name : String) : Prop :=
  ∃ node, Inside node (root states) ∧ node.name = name ∧ node.children = []

/-- A state of this name is declared that has states inside it. -/
def DeclaredCompound (states : List StateNode) (name : String) : Prop :=
  ∃ node, Inside node (root states) ∧ node.name = name ∧ node.children ≠ []

/-- A declared state of the first name has a state of the second name directly in it. -/
def IsParent (states : List StateNode) (outer inner : String) : Prop :=
  ∃ above below, Inside above (root states) ∧ below ∈ above.children ∧ above.name = outer ∧
    below.name = inner

/-- A declared state of the first name has a state of the second name inside it, at any depth. -/
def Encloses (states : List StateNode) (outer inner : String) : Prop :=
  ∃ above below, Inside above (root states) ∧ Inside below above ∧ above.name = outer ∧
    below.name = inner

/-- A node of the first name, which may be the root, has a state of the second name inside it,
at any depth. -/
def Above (states : List StateNode) (outer inner : String) : Prop :=
  ∃ above below, (above = root states ∨ Inside above (root states)) ∧ Inside below above ∧
    above.name = outer ∧ below.name = inner

/-- The names of the nodes inside a node, in pre-order. -/
def namesInside (node : StateNode) : List String :=
  node.preOrder.tail.map (fun visit => visit.node.name)

/-- A state of the name is met, and more than so many steps from the root: the outermost states
are one step from it. -/
def DeeperThan (states : List StateNode) (steps : Nat) (name : String) : Prop :=
  ∃ visit ∈ (root states).preOrder, visit.node.name = name ∧ steps < visit.depth

/-- How deep the declared states are nested, where the outermost ones are nested once. -/
def deepest (states : List StateNode) : Nat :=
  ((root states).preOrder.map Visit.depth).max?.getD 0

theorem Inside.trans {inner middle outer : StateNode} (low : Inside inner middle)
    (high : Inside middle outer) : Inside inner outer := by
  induction low with
  | child direct => exact .deeper direct high
  | deeper direct _ ih => exact .deeper direct (ih high)

theorem Inside.exists_child {inner outer : StateNode} (inside : Inside inner outer) :
    ∃ child ∈ outer.children, child = inner ∨ Inside inner child := by
  induction inside with
  | child direct => exact ⟨_, direct, Or.inl rfl⟩
  | deeper direct _ ih =>
    obtain ⟨child, member, holds⟩ := ih
    refine ⟨child, member, Or.inr ?_⟩
    rcases holds with rfl | below
    · exact Inside.child direct
    · exact Inside.deeper direct below

theorem Inside.sizeOf_lt {inner outer : StateNode} (inside : Inside inner outer) :
    sizeOf inner < sizeOf outer := by
  have below {node child : StateNode} (direct : child ∈ node.children) : sizeOf child <
      sizeOf node := by
    have smaller := List.sizeOf_lt_of_mem direct
    cases node
    simp only [mk.sizeOf_spec] at smaller ⊢
    omega
  induction inside with
  | child direct => exact below direct
  | deeper direct _ ih => exact Nat.lt_trans (below direct) ih

section

variable {states : List StateNode} {name : String}

theorem declared_of_atomic (atomic : DeclaredAtomic states name) : Declared states name := by
  obtain ⟨node, inside, named, _⟩ := atomic
  exact ⟨node, inside, named⟩

theorem declared_of_compound (compound : DeclaredCompound states name) : Declared states name := by
  obtain ⟨node, inside, named, _⟩ := compound
  exact ⟨node, inside, named⟩

theorem declared_of_encloses {outer : String} (encloses : Encloses states outer name) :
    Declared states name := by
  obtain ⟨above, below, aboveInside, nested, _, named⟩ := encloses
  exact ⟨below, nested.trans aboveInside, named⟩

theorem above_iff (states : List StateNode) (outer inner : String) :
    Above states outer inner ↔ Encloses states outer inner ∨
    outer = rootName ∧ Declared states inner := by
  constructor
  · rintro ⟨above, below, rfl | placed, inside, rfl, rfl⟩
    · exact Or.inr ⟨rfl, below, inside, rfl⟩
    · exact Or.inl ⟨above, below, placed, inside, rfl, rfl⟩
  · rintro (⟨above, below, placed, inside, outerNamed, innerNamed⟩ | ⟨rfl, below, inside, named⟩)
    · exact ⟨above, below, Or.inr placed, inside, outerNamed, innerNamed⟩
    · exact ⟨root states, below, Or.inl rfl, inside, rfl, named⟩

theorem compound_of_encloses {inner : String} (encloses : Encloses states name inner) :
    DeclaredCompound states name := by
  obtain ⟨above, below, aboveInside, nested, named, _⟩ := encloses
  obtain ⟨child, direct, _⟩ := nested.exists_child
  exact ⟨above, aboveInside, named, List.ne_nil_of_mem direct⟩

theorem atomic_of_not_compound (declared : Declared states name)
    (simple : ¬ DeclaredCompound states name) : DeclaredAtomic states name := by
  obtain ⟨node, inside, named⟩ := declared
  refine ⟨node, inside, named, ?_⟩
  apply Classical.byContradiction
  intro nested
  exact simple ⟨node, inside, named, nested⟩

end

end Statechart.StateNode
