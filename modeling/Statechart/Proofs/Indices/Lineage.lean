import Mathlib.Data.List.Perm.Subperm
import Statechart.Proofs.Indices.Places

set_option autoImplicit false

namespace Statechart

open StateNode

namespace Hierarchy

variable {states : List StateNode} (distinct : DistinctNames states)

include distinct

theorem not_encloses_self (name : String) : ¬ Encloses states name name := by
  intro encloses
  obtain ⟨above, below, aboveInside, nested, rfl, same⟩ := encloses
  have equal := node_unique distinct (nested.trans aboveInside) aboveInside same
  have smaller := nested.sizeOf_lt
  rw [equal] at smaller
  exact Nat.lt_irrefl _ smaller

theorem historyAncestors_of_undeclared {state : String} (undeclared : ¬ Declared states state) :
    (ofStates states).historyAncestors state = [] := by
  apply List.eq_nil_iff_forall_not_mem.mpr
  intro outer member
  exact undeclared
    (declared_of_encloses ((mem_historyAncestors_iff distinct outer state).mp member))

theorem encloses_pairwise_of_inside {node : StateNode} (inside : Inside node (root states)) :
    (node.name :: (ofStates states).historyAncestors node.name).Pairwise
      (fun inner outer => Encloses states outer inner) := by
  have around {name outer : String} (member : outer ∈ (ofStates states).historyAncestors name) :
      Encloses states outer name :=
    (mem_historyAncestors_iff distinct outer name).mp member
  generalize top : root states = whole at inside
  induction inside with
  | child direct =>
    subst top
    rw [historyAncestors_top distinct direct]
    exact List.pairwise_singleton _ _
  | @deeper node middle _ direct middleInside ih =>
    subst top
    have above := ih rfl
    rw [← historyAncestors_child distinct middleInside direct] at above
    exact List.pairwise_cons.mpr ⟨fun outer member => around member, above⟩

/-- From a state outwards, every state lies inside all those that follow. -/
theorem encloses_pairwise (state : String) :
    (state :: (ofStates states).historyAncestors state).Pairwise
      (fun inner outer => Encloses states outer inner) := by
  by_cases declared : Declared states state
  · obtain ⟨node, inside, rfl⟩ := declared
    exact encloses_pairwise_of_inside distinct inside
  · rw [historyAncestors_of_undeclared distinct declared]
    exact List.pairwise_singleton _ _

theorem nodup_around (state : String) :
    (state :: (ofStates states).historyAncestors state).Nodup := by
  apply (encloses_pairwise distinct state).imp
  intro inner outer encloses same
  exact not_encloses_self distinct inner (same ▸ encloses)

theorem exists_parent_iff (state : String) :
    (∃ outer, (ofStates states).parents.find? state = some outer) ↔ Declared states state := by
  simp only [find?_parents_iff distinct]
  constructor
  · intro found
    obtain ⟨outer, parent | top⟩ := found
    · obtain ⟨above, below, placed, direct, _, named⟩ := parent
      exact ⟨below, Inside.deeper direct placed, named⟩
    · obtain ⟨_, node, direct, named⟩ := top
      exact ⟨node, Inside.child direct, named⟩
  · intro declared
    obtain ⟨node, inside, rfl⟩ := declared
    cases inside with
    | child direct => exact ⟨rootName, Or.inr ⟨rfl, node, direct, rfl⟩⟩
    | @deeper _ middle _ direct above =>
      exact ⟨middle.name, Or.inl ⟨middle, node, above, direct, rfl, rfl⟩⟩

/-- There are more states with a state around them than states around any one of them. -/
theorem length_historyAncestors_lt {state : String} (declared : Declared states state) :
    ((ofStates states).historyAncestors state).length < (ofStates states).parents.size := by
  have different := nodup_around distinct state
  have listed : state :: (ofStates states).historyAncestors state ⊆
      (ofStates states).parents.keys := by
    intro name member
    have isDeclared : Declared states name := by
      rcases List.mem_cons.mp member with rfl | around
      · exact declared
      · have encloses := (mem_historyAncestors_iff distinct name state).mp around
        exact declared_of_compound (compound_of_encloses encloses)
    rw [Table.mem_keys_iff]
    exact (exists_parent_iff distinct name).mpr isDeclared
  have short := (List.subperm_of_subset different listed).length_le
  have size : (ofStates states).parents.keys.length = (ofStates states).parents.size :=
    List.length_map _
  simp only [List.length_cons] at short
  omega

theorem chain_of_inside {node : StateNode} (inside : Inside node (root states)) (room : Nat)
    (enough : ((ofStates states).historyAncestors node.name).length + 2 ≤ room) :
    (ofStates states).chain room node.name
      = node.name :: (ofStates states).historyAncestors node.name ++ [rootName] := by
  generalize top : root states = whole at inside
  induction inside generalizing room with
  | @child node _ direct =>
    subst top
    have parent : (ofStates states).parents.find? node.name = some rootName :=
      (find?_parents_iff distinct node.name rootName).mpr (Or.inr ⟨rfl, node, direct, rfl⟩)
    rw [historyAncestors_top distinct direct] at enough ⊢
    obtain ⟨more, rfl⟩ := Nat.exists_eq_add_of_le' enough
    simp only [chain, parent, find?_parents_root distinct]
    rfl
  | @deeper node middle _ direct middleInside ih =>
    subst top
    have parent : (ofStates states).parents.find? node.name = some middle.name :=
      (find?_parents_iff distinct node.name middle.name).mpr
        (Or.inl ⟨middle, node, middleInside, direct, rfl, rfl⟩)
    rw [historyAncestors_child distinct middleInside direct] at enough ⊢
    obtain ⟨more, rfl⟩ := Nat.exists_eq_add_of_le' (Nat.le_trans (Nat.le_add_left 1 _) enough)
    have shorter : ((ofStates states).historyAncestors middle.name).length + 2 ≤ more := by
      simp only [List.length_cons] at enough
      omega
    simp only [chain, parent]
    rw [ih more shorter rfl]
    rfl

/-- The lineage of a declared state is the state, the states around it, and the root. -/
theorem lineage_of_declared {state : String} (declared : Declared states state) :
    (ofStates states).lineage state = state :: (ofStates states).historyAncestors state ++
      [rootName] := by
  have short := length_historyAncestors_lt distinct declared
  obtain ⟨node, inside, rfl⟩ := declared
  exact chain_of_inside distinct inside _ (by omega)

/-- Nothing is around a name that is not declared, the root's included. -/
theorem lineage_of_undeclared {state : String} (undeclared : ¬ Declared states state) :
    (ofStates states).lineage state = [state] := by
  have alone : (ofStates states).parents.find? state = none := by
    cases found : (ofStates states).parents.find? state with
    | none => rfl
    | some outer => exact absurd ((exists_parent_iff distinct state).mp ⟨outer, found⟩) undeclared
  rw [lineage, chain, alone]

/-- From a state outwards, whatever comes later in a lineage is around what comes before it, or
is the root. -/
theorem lineage_pairwise (state : String) :
    ((ofStates states).lineage state).Pairwise
      (fun inner outer => Encloses states outer inner ∨ outer = rootName) := by
  by_cases declared : Declared states state
  · rw [lineage_of_declared distinct declared, List.pairwise_append]
    refine ⟨(encloses_pairwise distinct state).imp Or.inl, List.pairwise_singleton _ _, ?_⟩
    intro inner _ outer last
    exact Or.inr (List.mem_singleton.mp last)
  · rw [lineage_of_undeclared distinct declared]
    exact List.pairwise_singleton _ _

theorem mem_lineage_of_around {state outer : String}
    (around : outer = state ∨ Encloses states outer state) :
    outer ∈ (ofStates states).lineage state := by
  by_cases declared : Declared states state
  · rw [lineage_of_declared distinct declared]
    apply List.mem_append_left
    rcases around with rfl | encloses
    · exact List.mem_cons_self
    · exact List.mem_cons_of_mem _ ((mem_historyAncestors_iff distinct outer state).mpr encloses)
  · rcases around with rfl | encloses
    · rw [lineage_of_undeclared distinct declared]
      exact List.mem_singleton_self _
    · exact absurd (declared_of_encloses encloses) declared

theorem ne_root_of_around {state outer : String}
    (around : outer = state ∨ Encloses states outer state)
    (notRoot : state ≠ rootName) : outer ≠ rootName := by
  rcases around with rfl | encloses
  · exact notRoot
  · exact ne_root_of_declared distinct (declared_of_compound (compound_of_encloses encloses))

end Hierarchy

end Statechart
