import Mathlib.Data.List.Nodup
import Statechart.State.Nesting

set_option autoImplicit false

namespace Statechart.StateNode

theorem induct {motive : StateNode → Prop}
    (step : ∀ node, (∀ child ∈ node.children, motive child) → motive node)
    (node : StateNode) : motive node := by
  induction node.finitelyBelow with
  | intro node _ ih => exact step node ih

theorem forestDeclares_eq_any (name : String) (forest : List StateNode) :
    forestDeclares name forest = forest.any (declares name) := by
  induction forest with
  | nil => rw [forestDeclares, List.any_nil]
  | cons first rest ih => rw [forestDeclares, ih, List.any_cons]

theorem declares_iff (name : String) (node : StateNode) :
    node.declares name = true ↔ node.name = name ∨ ∃ below, Inside below node ∧
    below.name = name := by
  induction node using induct with
  | step node ih =>
    obtain ⟨own, children⟩ := node
    rw [declares, forestDeclares_eq_any, Bool.or_eq_true, decide_eq_true_eq, List.any_eq_true]
    apply or_congr Iff.rfl
    constructor
    · rintro ⟨child, direct, holds⟩
      rcases (ih child direct).mp holds with named | ⟨below, inside, named⟩
      · exact ⟨child, .child direct, named⟩
      · exact ⟨below, inside.trans (.child direct), named⟩
    · rintro ⟨below, inside, named⟩
      obtain ⟨child, direct, rfl | further⟩ := inside.exists_child
      · exact ⟨child, direct, (ih child direct).mpr (Or.inl named)⟩
      · exact ⟨child, direct, (ih child direct).mpr (Or.inr ⟨below, further, named⟩)⟩

theorem forestDeclares_iff (name : String) (states : List StateNode) :
    forestDeclares name states = true ↔ Declared states name := by
  rw [forestDeclares_eq_any, List.any_eq_true]
  constructor
  · rintro ⟨node, top, holds⟩
    rcases (declares_iff name node).mp holds with named | ⟨below, inside, named⟩
    · exact ⟨node, .child top, named⟩
    · exact ⟨below, inside.trans (.child top), named⟩
  · rintro ⟨node, inside, named⟩
    obtain ⟨child, direct, rfl | further⟩ := inside.exists_child
    · exact ⟨child, direct, (declares_iff name child).mpr (Or.inl named)⟩
    · exact ⟨child, direct, (declares_iff name child).mpr (Or.inr ⟨node, further, named⟩)⟩

theorem preOrderAt_eq (parent : Option StateNode) (path : List Nat) (node : StateNode) :
    node.preOrderAt parent path = ⟨node, parent, path⟩ ::
      forestPreOrderAt node path 0 node.children := by
  cases node
  rw [preOrderAt]

mutual

theorem names_preOrderAt : (node : StateNode) → (parent otherParent : Option StateNode) →
    (path otherPath : List Nat) → (node.preOrderAt parent path).map (fun visit => visit.node.name)
      = (node.preOrderAt otherParent otherPath).map (fun visit => visit.node.name)
  | ⟨name, children⟩, _, _, path, otherPath => by
    rw [preOrderAt, preOrderAt, List.map_cons, List.map_cons,
      names_forestPreOrderAt children ⟨name, children⟩ ⟨name, children⟩ path otherPath 0 0]

theorem names_forestPreOrderAt : (forest : List StateNode) → (parent otherParent : StateNode) →
    (path otherPath : List Nat) → (position otherPosition : Nat) →
    (forestPreOrderAt parent path position forest).map (fun visit => visit.node.name)
      = (forestPreOrderAt otherParent otherPath otherPosition forest).map
        (fun visit => visit.node.name)
  | [], _, _, _, _, _, _ => rfl
  | first :: rest, parent, otherParent, path, otherPath, position, otherPosition => by
    rw [forestPreOrderAt, forestPreOrderAt, List.map_append, List.map_append,
      names_preOrderAt first (some parent) (some otherParent) (path ++ [position])
        (otherPath ++ [otherPosition]),
      names_forestPreOrderAt rest parent otherParent path otherPath (position + 1)
        (otherPosition + 1)]

end

theorem mem_forestPreOrderAt (parent : StateNode) (path : List Nat) (position : Nat)
    (forest : List StateNode) (visit : Visit StateNode) :
    visit ∈ forestPreOrderAt parent path position forest ↔
      ∃ (index : Nat) (node : StateNode), forest[index]? = some node ∧
        visit ∈ node.preOrderAt (some parent) (path ++ [position + index]) := by
  induction forest generalizing position with
  | nil => simp [forestPreOrderAt]
  | cons first rest ih =>
    rw [forestPreOrderAt, List.mem_append, ih]
    constructor
    · rintro (inside | ⟨index, node, found, inside⟩)
      · exact ⟨0, first, rfl, inside⟩
      · refine ⟨index + 1, node, found, ?_⟩
        rwa [Nat.add_right_comm, Nat.add_assoc] at inside
    · rintro ⟨index, node, found, inside⟩
      cases index with
      | zero =>
        cases found
        exact Or.inl inside
      | succ index =>
        refine Or.inr ⟨index, node, found, ?_⟩
        rwa [Nat.add_right_comm, Nat.add_assoc]

theorem mem_preOrderAt (parent : Option StateNode) (path : List Nat) (node : StateNode)
    (visit : Visit StateNode) : visit ∈ node.preOrderAt parent path ↔ visit = ⟨node, parent, path⟩ ∨
      ∃ (index : Nat) (child : StateNode), node.children[index]? = some child ∧
        visit ∈ child.preOrderAt (some node) (path ++ [index]) := by
  rw [preOrderAt_eq, List.mem_cons, mem_forestPreOrderAt]
  simp only [Nat.zero_add]

theorem self_mem_preOrderAt (parent : Option StateNode) (path : List Nat) (node : StateNode) :
    ⟨node, parent, path⟩ ∈ node.preOrderAt parent path :=
  (mem_preOrderAt parent path node _).mpr (Or.inl rfl)

/-- The paths of the visits of a tree go on from the path at which it is met. -/
theorem path_prefix_of_mem {node : StateNode} {parent : Option StateNode} {path : List Nat}
    {visit : Visit StateNode}
    (member : visit ∈ node.preOrderAt parent path) : path <+: visit.path := by
  induction node using induct generalizing parent path with
  | step node ih =>
    rcases (mem_preOrderAt parent path node visit).mp member
      with rfl | ⟨index, child, found, inside⟩
    · exact List.prefix_refl path
    · exact (List.prefix_append path [index]).trans (ih child (List.mem_of_getElem? found) inside)

/-- A visit is that of the tree itself, or that of a child of a node that is met too. -/
theorem parent_of_mem {node : StateNode} {parent : Option StateNode} {path : List Nat}
    {visit : Visit StateNode} (member : visit ∈ node.preOrderAt parent path) :
    visit = ⟨node, parent, path⟩ ∨ ∃ above ∈ node.preOrderAt parent path, ∃ index : Nat,
      above.node.children[index]? = some visit.node ∧ visit.parent = some above.node ∧
        visit.path = above.path ++ [index] := by
  induction node using induct generalizing parent path with
  | step node ih =>
    rcases (mem_preOrderAt parent path node visit).mp member
      with rfl | ⟨index, child, found, inside⟩
    · exact Or.inl rfl
    · refine Or.inr ?_
      rcases ih child (List.mem_of_getElem? found) inside with rfl | ⟨above, met, rest⟩
      · exact ⟨_, self_mem_preOrderAt parent path node, index, found, rfl, rfl⟩
      · exact ⟨above, (mem_preOrderAt parent path node above).mpr
          (Or.inr ⟨index, child, found, met⟩), rest⟩

theorem child_mem {node : StateNode} {parent : Option StateNode} {path : List Nat}
    {visit : Visit StateNode} (member : visit ∈ node.preOrderAt parent path) {index : Nat}
    {child : StateNode}
    (found : visit.node.children[index]? = some child) :
    ⟨child, some visit.node, visit.path ++ [index]⟩ ∈ node.preOrderAt parent path := by
  induction node using induct generalizing parent path with
  | step node ih =>
    rcases (mem_preOrderAt parent path node visit).mp member
      with rfl | ⟨position, middle, entry, inside⟩
    · exact (mem_preOrderAt parent path node _).mpr
        (Or.inr ⟨index, child, found, self_mem_preOrderAt _ _ child⟩)
    · exact (mem_preOrderAt parent path node _).mpr
        (Or.inr ⟨position, middle, entry, ih middle (List.mem_of_getElem? entry) inside⟩)

/-- Pre-order puts no visit in front of that of a node around it. -/
theorem preOrderAt_pairwise (parent : Option StateNode) (path : List Nat) (node : StateNode) :
    (node.preOrderAt parent path).Pairwise
      (fun earlier later => ¬ later.path <+: earlier.path) := by
  induction node using induct generalizing parent path with
  | step node ih =>
    -- Neighbouring trees are met at different positions, so no path in one goes on from a path
    -- in the other.
    have neighbours : ∀ (position : Nat) (forest : List StateNode),
        (∀ child ∈ forest, child ∈ node.children) →
        (forestPreOrderAt node path position forest).Pairwise
          (fun earlier later => ¬ later.path <+: earlier.path) := by
      intro position forest known
      induction forest generalizing position with
      | nil => exact .nil
      | cons first rest tail =>
        rw [forestPreOrderAt, List.pairwise_append]
        refine ⟨ih first (known first List.mem_cons_self) _ _,
          tail (position + 1) (fun child member => known child (List.mem_cons_of_mem _ member)), ?_⟩
        intro earlier inFirst later inRest related
        obtain ⟨index, other, _, inOther⟩ :=
          (mem_forestPreOrderAt node path (position + 1) rest later).mp inRest
        have left := path_prefix_of_mem inFirst
        have right := (path_prefix_of_mem inOther).trans related
        have same : path ++ [position] = path ++ [position + 1 + index] :=
          List.IsPrefix.eq_of_length (List.prefix_of_prefix_length_le left right (by simp))
            (by simp)
        have positions := List.append_cancel_left same
        simp only [List.cons.injEq, and_true] at positions
        omega
    rw [preOrderAt_eq, List.pairwise_cons]
    refine ⟨?_, neighbours 0 node.children (fun _ member => member)⟩
    intro later inside related
    obtain ⟨index, child, _, inChild⟩ :=
      (mem_forestPreOrderAt node path 0 node.children later).mp inside
    have longer := ((path_prefix_of_mem inChild).trans related).length_le
    simp only [List.length_append, List.length_singleton] at longer
    omega

/-- A path leads to one visit only. -/
theorem visit_of_path {node : StateNode} {parent : Option StateNode} {path : List Nat}
    {first second : Visit StateNode} (firstMet : first ∈ node.preOrderAt parent path)
    (secondMet : second ∈ node.preOrderAt parent path)
    (paths : first.path = second.path) : first = second := by
  have apart : ((node.preOrderAt parent path).map Visit.path).Nodup := by
    rw [List.Nodup, List.pairwise_map]
    apply (preOrderAt_pairwise parent path node).imp
    intro earlier later unrelated same
    exact unrelated (same ▸ List.prefix_refl _)
  exact List.inj_on_of_nodup_map apart firstMet secondMet paths

theorem mem_below (visit other : Visit StateNode) :
    other ∈ visit.below children ↔ ∃ (index : Nat) (child : StateNode),
      visit.node.children[index]? = some child ∧
      other = ⟨child, some visit.node, visit.path ++ [index]⟩ := by
  rw [Visit.below, List.mem_map]
  constructor
  · rintro ⟨item, listed, rfl⟩
    exact ⟨item.2, item.1, List.mem_zipIdx_iff_getElem?.mp listed, rfl⟩
  · rintro ⟨index, child, found, rfl⟩
    exact ⟨(child, index), List.mem_zipIdx_iff_getElem?.mpr found, rfl⟩

theorem height_lt_of_mem {node child : StateNode} (direct : child ∈ node.children) :
    child.height < node.height := by
  have bounded : ∀ forest : List StateNode, ∀ tree ∈ forest, tree.height ≤ forestHeight forest := by
    intro forest
    induction forest with
    | nil => exact List.forall_mem_nil _
    | cons first rest ih =>
      intro tree member
      rw [forestHeight]
      rcases List.mem_cons.mp member with rfl | later
      · exact Nat.le_max_left _ _
      · exact Nat.le_trans (ih tree later) (Nat.le_max_right _ _)
  cases node with
  | mk name children =>
    rw [height]
    exact Nat.lt_succ_of_le (bounded children child direct)

theorem mem_preOrderAt_of_level {steps : Nat} {start visit : Visit StateNode}
    (member : visit ∈ start.level children steps) :
    visit ∈ start.node.preOrderAt start.parent start.path := by
  induction steps generalizing start with
  | zero =>
    rw [Visit.level, List.mem_singleton] at member
    rw [member]
    exact self_mem_preOrderAt start.parent start.path start.node
  | succ steps ih =>
    rw [Visit.level, List.mem_flatMap] at member
    obtain ⟨next, isNext, further⟩ := member
    obtain ⟨index, child, found, rfl⟩ := (mem_below start next).mp isNext
    exact (mem_preOrderAt _ _ _ visit).mpr (Or.inr ⟨index, child, found, ih further⟩)

theorem exists_level_of_mem_preOrderAt {node : StateNode} {parent : Option StateNode}
    {path : List Nat} {visit : Visit StateNode} (member : visit ∈ node.preOrderAt parent path) :
    ∃ steps < node.height, visit ∈ Visit.level children steps ⟨node, parent, path⟩ := by
  induction node using induct generalizing parent path with
  | step node ih =>
    rcases (mem_preOrderAt parent path node visit).mp member
      with rfl | ⟨index, child, found, inside⟩
    · refine ⟨0, ?_, List.mem_singleton_self _⟩
      cases node
      rw [height]
      exact Nat.succ_pos _
    · have direct := List.mem_of_getElem? found
      obtain ⟨steps, bound, further⟩ := ih child direct inside
      refine ⟨steps + 1, ?_, ?_⟩
      · have lower := height_lt_of_mem direct
        omega
      · rw [Visit.level, List.mem_flatMap]
        exact ⟨_, (mem_below _ _).mpr ⟨index, child, found, rfl⟩, further⟩

/-- Level by level the same visits are met. -/
theorem mem_breadthOrder_iff (node : StateNode) (visit : Visit StateNode) :
    visit ∈ node.breadthOrder ↔ visit ∈ node.preOrder := by
  rw [breadthOrder, List.mem_flatMap]
  constructor
  · rintro ⟨steps, _, member⟩
    exact mem_preOrderAt_of_level member
  · intro member
    obtain ⟨steps, bound, further⟩ := exists_level_of_mem_preOrderAt member
    exact ⟨steps, List.mem_range.mpr bound, further⟩

end Statechart.StateNode
