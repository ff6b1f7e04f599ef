import Statechart.Proofs.Indices.Ancestors

set_option autoImplicit false

namespace Statechart

open StateNode

namespace Hierarchy

variable {states : List StateNode}

/-- A node whose path goes on from that of another lies inside it. -/
theorem inside_of_path_prefix {outer inner : Visit StateNode}
    (outerMet : outer ∈ (root states).preOrder) (innerMet : inner ∈ (root states).preOrder)
    (goesOn : outer.path <+: inner.path)
    (longer : outer.path.length < inner.path.length) : Inside inner.node outer.node := by
  -- By induction on the length of the path: the path of the node around is shorter by one.
  induction near : inner.path.length using Nat.strongRecOn generalizing inner with
  | ind length ih =>
    rcases parent_of_mem innerMet with rfl | ⟨above, aboveMet, index, found, _, extended⟩
    · exact absurd longer (Nat.not_lt_zero _)
    · have direct := List.mem_of_getElem? found
      have shorter : above.path.length + 1 = length := by
        rw [← near, extended, List.length_append, List.length_singleton]
      have upTo : outer.path <+: above.path :=
        List.prefix_of_prefix_length_le goesOn (extended ▸ List.prefix_append above.path [index])
          (by omega)
      rcases Nat.lt_or_ge outer.path.length above.path.length with further | same
      · exact Inside.deeper direct (ih above.path.length (by omega) aboveMet upTo further rfl)
      · have paths := upTo.eq_of_length_le same
        rw [visit_of_path outerMet aboveMet paths]
        exact Inside.child direct

section

variable (distinct : DistinctNames states)

include distinct

theorem path_prefix_of_inside {outer inner : Visit StateNode}
    (outerMet : outer ∈ (root states).preOrder) (innerMet : inner ∈ (root states).preOrder)
    (inside : Inside inner.node outer.node) :
    outer.path <+: inner.path ∧ outer.path.length < inner.path.length := by
  generalize low : inner.node = node at inside
  generalize high : outer.node = top at inside
  induction inside generalizing inner with
  | child direct =>
    subst low high
    obtain ⟨index, found⟩ := List.mem_iff_getElem?.mp direct
    rw [visit_unique distinct innerMet (child_mem outerMet found) rfl]
    exact ⟨List.prefix_append _ _, by simp⟩
  | @deeper node middle top direct above ih =>
    subst low high
    obtain ⟨visit, met, rfl⟩ := (exists_visit_iff middle).mpr (by
      have known := (exists_visit_iff outer.node).mp ⟨outer, outerMet, rfl⟩
      rcases known with isRoot | placed
      · exact Or.inr (isRoot ▸ above)
      · exact Or.inr (above.trans placed))
    obtain ⟨index, found⟩ := List.mem_iff_getElem?.mp direct
    obtain ⟨goesOn, longer⟩ := ih met rfl rfl
    rw [visit_unique distinct innerMet (child_mem met found) rfl]
    refine ⟨goesOn.trans (List.prefix_append _ _), ?_⟩
    rw [List.length_append]
    omega

theorem find?_paths_iff (name : String) (path : List Nat) :
    (ofStates states).paths.find? name = some path ↔
      ∃ visit ∈ (root states).preOrder, visit.node.name = name ∧ visit.path = path :=
  find?_ofList_visits_iff distinct (mem_breadthOrder_iff (root states)) Visit.path name path

/-- Of two names one lies inside the other in the tree exactly if their paths say so. -/
theorem isStrictAncestor_iff_above (outer inner : String) :
    (ofStates states).isStrictAncestor outer inner = true ↔ Above states outer inner := by
  unfold isStrictAncestor
  constructor
  · intro nested
    cases outerPath : (ofStates states).paths.find? outer with
    | none =>
      rw [outerPath] at nested
      cases nested
    | some high =>
      cases innerPath : (ofStates states).paths.find? inner with
      | none =>
        rw [outerPath, innerPath] at nested
        cases nested
      | some low =>
        rw [outerPath, innerPath] at nested
        obtain ⟨above, aboveMet, rfl, rfl⟩ := (find?_paths_iff distinct outer high).mp outerPath
        obtain ⟨below, belowMet, rfl, rfl⟩ := (find?_paths_iff distinct inner low).mp innerPath
        simp only [Bool.and_eq_true, List.isPrefixOf_iff_prefix, decide_eq_true_eq] at nested
        exact ⟨above.node, below.node, (exists_visit_iff above.node).mp ⟨above, aboveMet, rfl⟩,
          inside_of_path_prefix aboveMet belowMet nested.1 nested.2, rfl, rfl⟩
  · rintro ⟨above, below, known, inside, rfl, rfl⟩
    have belowInside : Inside below (root states) := by
      rcases known with rfl | placed
      · exact inside
      · exact inside.trans placed
    obtain ⟨visit, met, rfl⟩ := (exists_visit_iff above).mpr known
    obtain ⟨other, otherMet, rfl⟩ := (exists_visit_iff below).mpr (Or.inr belowInside)
    rw [(find?_paths_iff distinct _ _).mpr ⟨visit, met, rfl, rfl⟩,
      (find?_paths_iff distinct _ _).mpr ⟨other, otherMet, rfl, rfl⟩]
    simp only [Bool.and_eq_true, List.isPrefixOf_iff_prefix, decide_eq_true_eq]
    exact path_prefix_of_inside distinct met otherMet inside

theorem isStrictAncestor_iff {outer : String} (notRoot : outer ≠ rootName) (inner : String) :
    (ofStates states).isStrictAncestor outer inner = true ↔ Encloses states outer inner := by
  rw [isStrictAncestor_iff_above distinct, above_iff]
  exact or_iff_left (fun isRoot => notRoot isRoot.1)

theorem find?_parents_iff (inner outer : String) :
    (ofStates states).parents.find? inner = some outer ↔
      IsParent states outer inner ∨ outer = rootName ∧ ∃ node ∈ states, node.name = inner := by
  show (Table.ofList _).find? inner = some outer ↔ _
  rw [Table.find?_ofList_iff]
  · simp only [List.mem_filterMap, mem_breadthOrder_iff, Option.map_eq_some_iff, Prod.mk.injEq]
    constructor
    · rintro ⟨visit, met, parent, isParent, rfl, rfl⟩
      rcases parent_of_mem met with rfl | ⟨above, aboveMet, index, found, around, _⟩
      · cases isParent
      · cases around.symm.trans isParent
        have direct := List.mem_of_getElem? found
        rcases (exists_visit_iff above.node).mp ⟨above, aboveMet, rfl⟩ with isRoot | placed
        · rw [isRoot] at direct ⊢
          exact Or.inr ⟨rfl, visit.node, direct, rfl⟩
        · exact Or.inl ⟨above.node, visit.node, placed, direct, rfl, rfl⟩
    · have entry {above node : StateNode} (known : above = root states ∨ Inside above (root states))
          (direct : node ∈ above.children) : ∃ visit ∈ (root states).preOrder, ∃ parent,
            visit.parent = some parent ∧
            visit.node.name = node.name ∧ parent.name = above.name := by
        obtain ⟨visit, met, rfl⟩ := (exists_visit_iff above).mpr known
        obtain ⟨index, found⟩ := List.mem_iff_getElem?.mp direct
        exact ⟨_, child_mem met found, visit.node, rfl, rfl, rfl⟩
      rintro (⟨above, node, placed, direct, rfl, rfl⟩ | ⟨rfl, node, direct, rfl⟩)
      · exact entry (Or.inr placed) direct
      · exact entry (Or.inl rfl) direct
  · intro first firstListed second secondListed names
    simp only [List.mem_filterMap, mem_breadthOrder_iff, Option.map_eq_some_iff]
      at firstListed secondListed
    obtain ⟨visit, met, parent, isParent, rfl⟩ := firstListed
    obtain ⟨other, otherMet, otherParent, isOther, rfl⟩ := secondListed
    rw [visit_unique distinct met otherMet names] at isParent
    cases isParent.symm.trans isOther
    rfl

theorem find?_parents_root : (ofStates states).parents.find? rootName = none := by
  cases around : (ofStates states).parents.find? rootName with
  | none => rfl
  | some outer =>
    have inRoot : ∃ node, Inside node (root states) ∧ node.name = rootName := by
      rcases (find?_parents_iff distinct rootName outer).mp around with
        ⟨above, node, placed, direct, _, named⟩ | ⟨_, node, direct, named⟩
      · exact ⟨node, Inside.deeper direct placed, named⟩
      · exact ⟨node, Inside.child direct, named⟩
    obtain ⟨node, inside, named⟩ := inRoot
    exact absurd named (name_ne_root distinct inside)

/-- The lineage of a state holds the state itself, states around it, and the root. -/
theorem encloses_of_mem_lineage {state member : String}
    (inLineage : member ∈ (ofStates states).lineage state) :
    member = state ∨ Encloses states member state ∨ member = rootName := by
  unfold lineage at inLineage
  generalize (ofStates states).parents.size + 1 = room at inLineage
  induction room generalizing state with
  | zero => cases inLineage
  | succ room ih =>
    rw [chain] at inLineage
    cases around : (ofStates states).parents.find? state with
    | none =>
      rw [around] at inLineage
      exact Or.inl (List.mem_singleton.mp inLineage)
    | some parent =>
      rw [around] at inLineage
      rcases List.mem_cons.mp inLineage with here | further
      · exact Or.inl here
      · refine Or.inr ?_
        rcases (find?_parents_iff distinct state parent).mp around with isParent | ⟨rfl, _⟩
        · obtain ⟨above, node, placed, direct, rfl, rfl⟩ := isParent
          rcases ih further with rfl | ⟨higher, below, higherPlaced, nested, rfl, named⟩ | isRoot
          · exact Or.inl ⟨above, node, placed, Inside.child direct, rfl, rfl⟩
          · have same := node_unique distinct (nested.trans higherPlaced) placed named
            subst same
            exact Or.inl ⟨higher, node, higherPlaced, Inside.deeper direct nested, rfl, rfl⟩
          · exact Or.inr isRoot
        · have alone : ∀ more, chain (ofStates states) more rootName ⊆ [rootName] := by
            intro more
            cases more with
            | zero => exact List.nil_subset _
            | succ more =>
              rw [chain, find?_parents_root distinct]
              exact List.Subset.refl _
          exact Or.inr (List.mem_singleton.mp (alone room further))

end

end Hierarchy

end Statechart
