import Mathlib.Data.List.Nodup
import Statechart.Indices.Hierarchy
import Statechart.Proofs.State.Visits
import Statechart.Proofs.Table

set_option autoImplicit false

namespace Statechart

open StateNode

namespace Hierarchy

variable {states : List StateNode}

theorem preOrder_root (states : List StateNode) :
    (root states).preOrder = ⟨root states, none, []⟩ :: forestPreOrderAt (root states)
    [] 0 states :=
  preOrderAt_eq none [] (root states)

theorem parent_isSome_of_mem_forest {parent : StateNode} {path : List Nat} {position : Nat}
    {forest : List StateNode} {visit : Visit StateNode}
    (member : visit ∈ forestPreOrderAt parent path position forest) :
    visit.parent.isSome = true := by
  obtain ⟨index, node, _, inside⟩ :=
    (mem_forestPreOrderAt parent path position forest visit).mp member
  rcases parent_of_mem inside with rfl | ⟨above, _, _, _, around, _⟩
  · rfl
  · rw [around]
    rfl

theorem namesOf_root (states : List StateNode) :
    namesOf (root states) = (forestPreOrderAt (root states) [] 0 states).map
      (fun visit => visit.node.name) := by
  rw [namesOf, preOrder_root, List.filter_cons_of_neg (by simp)]
  rw [List.filter_eq_self.mpr (fun visit member => parent_isSome_of_mem_forest member)]

theorem distinctNames_iff (states : List StateNode) :
    DistinctNames states ↔ (ofStates states).names.Nodup ∧ rootName ∉ (ofStates states).names := by
  show ((root states).preOrder.map (fun visit => visit.node.name)).Nodup ↔
    (namesOf (root states)).Nodup ∧ rootName ∉ namesOf (root states)
  rw [namesOf_root, preOrder_root, List.map_cons, List.nodup_cons]
  exact and_comm

theorem inside_root_iff (node : StateNode) :
    Inside node (root states) ↔ ∃ visit ∈ (root states).preOrder, visit.parent.isSome = true ∧
    visit.node = node := by
  constructor
  · intro inside
    generalize outer : root states = top at inside
    induction inside with
    | child direct =>
      subst outer
      obtain ⟨index, found⟩ := List.mem_iff_getElem?.mp direct
      exact ⟨_, child_mem (self_mem_preOrderAt none [] (root states)) found, rfl, rfl⟩
    | deeper direct _ ih =>
      subst outer
      obtain ⟨visit, met, _, rfl⟩ := ih rfl
      obtain ⟨index, found⟩ := List.mem_iff_getElem?.mp direct
      exact ⟨_, child_mem met found, rfl, rfl⟩
  · rintro ⟨visit, met, below, rfl⟩
    -- The visit of the node around is nearer to the root.
    induction near : visit.path.length using Nat.strongRecOn generalizing visit with
    | ind length ih =>
      rcases parent_of_mem met with rfl | ⟨above, metAbove, index, found, around, extended⟩
      · cases below
      · have direct := List.mem_of_getElem? found
        rcases parent_of_mem metAbove with rfl | ⟨_, _, _, _, further, _⟩
        · exact Inside.child direct
        · refine Inside.deeper direct (ih above.path.length ?_ above metAbove ?_ rfl)
          · rw [← near, extended, List.length_append, List.length_singleton]
            omega
          · rw [further]
            rfl

theorem mem_names_iff (name : String) : name ∈ (ofStates states).names ↔ Declared states name := by
  show name ∈ namesOf (root states) ↔ _
  rw [namesOf, List.mem_map]
  constructor
  · rintro ⟨visit, member, rfl⟩
    obtain ⟨met, below⟩ := List.mem_filter.mp member
    exact ⟨visit.node, (inside_root_iff visit.node).mpr ⟨visit, met, below, rfl⟩, rfl⟩
  · rintro ⟨node, inside, rfl⟩
    obtain ⟨visit, met, below, rfl⟩ := (inside_root_iff node).mp inside
    exact ⟨visit, List.mem_filter.mpr ⟨met, below⟩, rfl⟩

theorem exists_visit_iff (node : StateNode) :
    (∃ visit ∈ (root states).preOrder, visit.node = node) ↔
    node = root states ∨ Inside node (root states) := by
  rw [inside_root_iff]
  constructor
  · rintro ⟨visit, met, rfl⟩
    rcases parent_of_mem met with rfl | ⟨above, _, _, _, around, _⟩
    · exact Or.inl rfl
    · refine Or.inr ⟨visit, met, ?_, rfl⟩
      rw [around]
      rfl
  · rintro (rfl | ⟨visit, met, _, rfl⟩)
    · exact ⟨_, self_mem_preOrderAt none [] (root states), rfl⟩
    · exact ⟨visit, met, rfl⟩

theorem contains_iff (name : String) :
    (ofStates states).contains name = true ↔ name = rootName ∨ Declared states name := by
  show (Table.ofList _).contains name = true ↔ _
  rw [Table.contains_ofList]
  constructor
  · rintro ⟨value, member⟩
    obtain ⟨visit, met, entry⟩ := List.mem_map.mp member
    cases entry
    rcases (exists_visit_iff visit.node).mp ⟨visit, met, rfl⟩ with top | inside
    · exact Or.inl (congrArg StateNode.name top)
    · exact Or.inr ⟨visit.node, inside, rfl⟩
  · intro known
    have named : ∃ node, (node = root states ∨ Inside node (root states)) ∧ node.name = name := by
      rcases known with rfl | ⟨node, inside, same⟩
      · exact ⟨root states, Or.inl rfl, rfl⟩
      · exact ⟨node, Or.inr inside, same⟩
    obtain ⟨node, placed, rfl⟩ := named
    obtain ⟨visit, met, rfl⟩ := (exists_visit_iff node).mpr placed
    exact ⟨visit.node.isCompound, List.mem_map.mpr ⟨visit, met, rfl⟩⟩

theorem mem_keys_compound_iff (name : String) :
    name ∈ (ofStates states).compound.keys ↔ name = rootName ∨ Declared states name := by
  rw [Table.mem_keys_iff, ← Option.isSome_iff_exists, ← contains_iff]
  rfl

section

variable (distinct : DistinctNames states)

include distinct

theorem visit_unique {first second : Visit StateNode} (firstMet : first ∈ (root states).preOrder)
    (secondMet : second ∈ (root states).preOrder) (names : first.node.name = second.node.name) :
    first = second :=
  List.inj_on_of_nodup_map distinct firstMet secondMet names

theorem node_unique {first second : StateNode} (firstInside : Inside first (root states))
    (secondInside : Inside second (root states)) (names : first.name = second.name) :
    first = second := by
  obtain ⟨visit, met, _, rfl⟩ := (inside_root_iff first).mp firstInside
  obtain ⟨other, otherMet, _, rfl⟩ := (inside_root_iff second).mp secondInside
  rw [visit_unique distinct met otherMet names]

theorem name_ne_root {node : StateNode} (inside : Inside node (root states)) :
    node.name ≠ rootName := by
  intro same
  obtain ⟨visit, met, below, rfl⟩ := (inside_root_iff node).mp inside
  have top := visit_unique distinct met (self_mem_preOrderAt none [] (root states)) same
  rw [top] at below
  cases below

theorem ne_root_of_declared {name : String} (declared : Declared states name) :
    name ≠ rootName := by
  obtain ⟨node, inside, rfl⟩ := declared
  exact name_ne_root distinct inside

theorem not_compound_of_atomic {name : String} (atomic : DeclaredAtomic states name) :
    ¬ DeclaredCompound states name := by
  intro compound
  obtain ⟨node, inside, rfl, childless⟩ := atomic
  obtain ⟨other, otherInside, named, nested⟩ := compound
  have same := node_unique distinct otherInside inside named
  subst same
  exact nested childless

theorem encloses_trans {outer middle inner : String} (high : Encloses states outer middle)
    (low : Encloses states middle inner) : Encloses states outer inner := by
  obtain ⟨above, between, aboveInside, nested, rfl, named⟩ := high
  obtain ⟨node, below, nodeInside, deeper, same, rfl⟩ := low
  have same := node_unique distinct nodeInside (nested.trans aboveInside) (same.trans named.symm)
  subst same
  exact ⟨above, below, aboveInside, deeper.trans nested, rfl, rfl⟩

theorem parent_unique {first second below : StateNode}
    (firstKnown : first = root states ∨ Inside first (root states))
    (secondKnown : second = root states ∨ Inside second (root states))
    (firstAbove : below ∈ first.children) (secondAbove : below ∈ second.children) :
    first = second := by
  obtain ⟨visit, met, rfl⟩ := (exists_visit_iff first).mpr firstKnown
  obtain ⟨other, otherMet, rfl⟩ := (exists_visit_iff second).mpr secondKnown
  obtain ⟨index, found⟩ := List.mem_iff_getElem?.mp firstAbove
  obtain ⟨position, entry⟩ := List.mem_iff_getElem?.mp secondAbove
  have same := visit_unique distinct (child_mem met found) (child_mem otherMet entry) rfl
  exact Option.some.inj (congrArg Visit.parent same)

/-- Where a table is made of the visits, a look-up finds what is bound for the visit of that
name. -/
theorem find?_ofList_visits_iff {β : Type} {visits : List (Visit StateNode)}
    (known : ∀ visit, visit ∈ visits ↔ visit ∈ (root states).preOrder) (value : Visit StateNode → β)
    (name : String)
    (bound : β) :
    (Table.ofList (visits.map (fun visit => (visit.node.name, value visit)))).find? name =
      some bound ↔
      ∃ visit ∈ (root states).preOrder, visit.node.name = name ∧ value visit = bound := by
  rw [Table.find?_ofList_iff]
  · simp only [List.mem_map, known, Prod.mk.injEq]
  · intro first firstListed second secondListed names
    obtain ⟨visit, met, rfl⟩ := List.mem_map.mp firstListed
    obtain ⟨other, otherMet, rfl⟩ := List.mem_map.mp secondListed
    rw [visit_unique distinct ((known visit).mp met) ((known other).mp otherMet) names]

/-- A name is that of a compound state if the node of that name, which may be the root, has
children. -/
theorem isCompound_iff_children (name : String) :
    (ofStates states).isCompound name = true ↔
      ∃ node, (node = root states ∨ Inside node (root states)) ∧ node.name = name ∧
      node.children ≠ [] := by
  have value : ∀ flag : Option Bool, flag.getD false = true ↔ flag = some true := by
    rintro (_ | _ | _) <;> simp
  show ((Table.ofList _).find? name).getD false = true ↔ _
  rw [value, find?_ofList_visits_iff distinct (fun _ => Iff.rfl)]
  constructor
  · rintro ⟨visit, met, named, nested⟩
    refine ⟨visit.node, (exists_visit_iff visit.node).mp ⟨visit, met, rfl⟩, named, ?_⟩
    intro childless
    rw [StateNode.isCompound, childless] at nested
    cases nested
  · rintro ⟨node, known, named, nested⟩
    obtain ⟨visit, met, rfl⟩ := (exists_visit_iff node).mpr known
    refine ⟨visit, met, named, ?_⟩
    rw [StateNode.isCompound, List.isEmpty_eq_false_iff.mpr nested]
    rfl

theorem isCompound_iff {name : String} (notRoot : name ≠ rootName) :
    (ofStates states).isCompound name = true ↔ DeclaredCompound states name := by
  rw [isCompound_iff_children distinct]
  constructor
  · rintro ⟨node, top | inside, named, nested⟩
    · rw [top] at named
      exact absurd named.symm notRoot
    · exact ⟨node, inside, named, nested⟩
  · rintro ⟨node, inside, named, nested⟩
    exact ⟨node, Or.inr inside, named, nested⟩

end

end Hierarchy

end Statechart
