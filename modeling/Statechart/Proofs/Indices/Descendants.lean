import Statechart.Proofs.Indices.Hierarchy
import Statechart.Proofs.State.Walks
import Statechart.Proofs.Traversal.Paths

set_option autoImplicit false

namespace Statechart

namespace StateNode

theorem map_forestPreOrderAt_name (parent : StateNode) (path : List Nat) (position : Nat)
    (forest : List StateNode) :
    (forestPreOrderAt parent path position forest).map (fun visit => visit.node.name)
      = forest.flatMap (fun child => child.name :: child.namesInside) := by
  have alone (child : StateNode) :
      child.preOrder.map (fun visit => visit.node.name) = child.name :: child.namesInside := by
    rw [namesInside, preOrder, preOrderAt_eq]
    rfl
  induction forest generalizing position with
  | nil => rw [forestPreOrderAt, List.map_nil, List.flatMap_nil]
  | cons first rest ih =>
    rw [forestPreOrderAt, List.map_append, ih, List.flatMap_cons, ← alone first, preOrder,
      names_preOrderAt first (some parent) none (path ++ [position]) []]

/-- Inside a node are its children, each followed by what is inside it. -/
theorem namesInside_eq (node : StateNode) :
    node.namesInside = node.children.flatMap (fun child => child.name :: child.namesInside) := by
  rw [← map_forestPreOrderAt_name node [] 0, namesInside, preOrder, preOrderAt_eq]
  rfl

theorem mem_namesInside_iff (node : StateNode) (name : String) :
    name ∈ node.namesInside ↔ ∃ below, Inside below node ∧ below.name = name := by
  induction node using induct with
  | step node ih =>
    simp only [namesInside_eq node, List.mem_flatMap, List.mem_cons]
    constructor
    · intro listed
      obtain ⟨child, direct, here | further⟩ := listed
      · exact ⟨child, .child direct, here.symm⟩
      · obtain ⟨below, inside, named⟩ := (ih child direct).mp further
        exact ⟨below, inside.trans (.child direct), named⟩
    · intro found
      obtain ⟨below, inside, named⟩ := found
      obtain ⟨child, direct, same | further⟩ := inside.exists_child
      · exact ⟨child, direct, Or.inl (same ▸ named.symm)⟩
      · exact ⟨child, direct, Or.inr ((ih child direct).mpr ⟨below, further, named⟩)⟩

/-- What is inside a node is inside the nodes around it, in the same order. -/
theorem Inside.sublist_namesInside {inner outer : StateNode} (inside : Inside inner outer) :
    (inner.name :: inner.namesInside).Sublist outer.namesInside := by
  have below {node child : StateNode} (direct : child ∈ node.children) :
      (child.name :: child.namesInside).Sublist node.namesInside := by
    rw [namesInside_eq node, List.flatMap]
    exact List.sublist_flatten_of_mem (List.mem_map_of_mem direct)
  induction inside with
  | child direct => exact below direct
  | deeper direct _ ih => exact (below direct).trans ((List.sublist_cons_self _ _).trans ih)

theorem namesInside_eq_nil_iff (node : StateNode) : node.namesInside = [] ↔ node.children = [] := by
  rw [namesInside_eq, List.flatMap_eq_nil_iff]
  constructor
  · intro none
    apply List.eq_nil_iff_forall_not_mem.mpr
    intro child direct
    cases none child direct
  · intro childless child direct
    rw [childless] at direct
    cases direct

theorem child_mem_forestPostOrderAt {node child : StateNode} (path : List Nat) {position : Nat}
    (found : node.children[position]? = some child) :
    ⟨child, some node, path ++ [position]⟩ ∈ forestPostOrderAt node path 0 node.children := by
  rw [forestPostOrderAt_eq, List.mem_flatMap]
  refine ⟨(child, position), List.mem_zipIdx_iff_getElem?.mpr found, ?_⟩
  rw [postOrderAt_eq]
  exact List.mem_append_right _ (List.mem_singleton_self _)

theorem postOrderAt_perm (parent : Option StateNode) (path : List Nat) (node : StateNode) :
    (node.postOrderAt parent path).Perm (node.preOrderAt parent path) := by
  let place : Place children := ⟨⟨node, parent, path⟩, node.finitelyBelow⟩
  have places := place.postOrder_perm_preOrder
  rwa [Place.postOrder_eq_postOrderAt, Place.preOrder_eq_preOrderAt] at places

end StateNode

open StateNode

namespace Hierarchy

theorem find?_foldl_addDescendants_of_unmet {visits : List (Visit StateNode)} {name : String}
    (unmet : name ∉ visits.map (fun visit => visit.node.name)) (table : Table (List String)) :
    (visits.foldl addDescendants table).find? name = table.find? name := by
  induction visits generalizing table with
  | nil => rfl
  | cons visit rest ih =>
    rw [List.map_cons, List.mem_cons, not_or] at unmet
    rw [List.foldl_cons, ih unmet.2, addDescendants, Table.find?_insert_of_ne _ _ unmet.1]

/-- However the index is filled so far, going through these visits gives every visited node the
names inside it, if no two of them are of one name. In post-order a node comes after the nodes
inside it, whose entries are there already. -/
def Entered (visits : List (Visit StateNode)) : Prop :=
  (visits.map (fun visit => visit.node.name)).Nodup →
    ∀ (table : Table (List String)), ∀ visit ∈ visits,
    (visits.foldl addDescendants table).find? visit.node.name = some visit.node.namesInside

theorem Entered.append {first second : List (Visit StateNode)} (early : Entered first)
    (late : Entered second) : Entered (first ++ second) := by
  intro distinct table visit member
  rw [List.map_append, List.nodup_append] at distinct
  obtain ⟨inFirst, inSecond, unshared⟩ := distinct
  rw [List.foldl_append]
  rcases List.mem_append.mp member with before | after
  · rw [find?_foldl_addDescendants_of_unmet
      (fun again => unshared _ (List.mem_map_of_mem before) _ again rfl)]
    exact early inFirst table visit before
  · exact late inSecond _ visit after

theorem Entered.concat {earlier : List (Visit StateNode)} {last : Visit StateNode}
    (entered : Entered earlier)
    (inner : ∀ child ∈ last.node.children, ∃ visit ∈ earlier, visit.node = child) :
    Entered (earlier ++ [last]) := by
  intro distinct table visit member
  rw [List.map_append, List.nodup_append] at distinct
  obtain ⟨inEarlier, _, unshared⟩ := distinct
  rw [List.foldl_append, List.foldl_cons, List.foldl_nil, addDescendants]
  rcases List.mem_append.mp member with before | final
  · have other : visit.node.name ≠ last.node.name :=
      unshared _ (List.mem_map_of_mem before) _ (List.mem_singleton_self _)
    rw [Table.find?_insert_of_ne _ _ other]
    exact entered inEarlier table visit before
  · rw [List.mem_singleton.mp final, Table.find?_insert_self, namesInside_eq]
    congr 1
    apply List.flatMap_congr
    intro child direct
    obtain ⟨below, met, rfl⟩ := inner child direct
    rw [entered inEarlier table below met, Option.getD_some]

theorem entered_postOrderAt (parent : Option StateNode) (path : List Nat) (node : StateNode) :
    Entered (node.postOrderAt parent path) := by
  induction node using StateNode.induct generalizing parent path with
  | step node ih =>
    have neighbours : ∀ (position : Nat) (forest : List StateNode),
        (∀ child ∈ forest, child ∈ node.children) →
        Entered (forestPostOrderAt node path position forest) := by
      intro position forest known
      induction forest generalizing position with
      | nil =>
        intro _ _ visit member
        rw [forestPostOrderAt] at member
        cases member
      | cons first rest tail =>
        rw [forestPostOrderAt]
        exact (ih first (known first List.mem_cons_self) _ _).append
          (tail (position + 1) (fun child direct => known child (List.mem_cons_of_mem _ direct)))
    rw [postOrderAt_eq]
    apply (neighbours 0 node.children (fun _ direct => direct)).concat
    intro child direct
    obtain ⟨position, found⟩ := List.mem_iff_getElem?.mp direct
    exact ⟨_, child_mem_forestPostOrderAt path found, rfl⟩

section

variable {states : List StateNode} (distinct : DistinctNames states)

include distinct

theorem find?_descendants_of_visit {visit : Visit StateNode}
    (met : visit ∈ (root states).preOrder) :
    (ofStates states).descendants.find? visit.node.name = some visit.node.namesInside := by
  have sameVisits := postOrderAt_perm none [] (root states)
  have apart : (((root states).postOrderAt none []).map (fun visit => visit.node.name)).Nodup :=
    (sameVisits.map _).nodup_iff.mpr distinct
  exact entered_postOrderAt none [] (root states) apart .empty visit (sameVisits.mem_iff.mpr met)

/-- The index lists under a name what lies inside the node of that name. -/
theorem find?_descendants_iff (name : String) (names : List String) :
    (ofStates states).descendants.find? name = some names ↔
      ∃ node, (node = root states ∨ Inside node (root states)) ∧ node.name = name ∧
      node.namesInside = names := by
  constructor
  · intro found
    have met : name ∈ (root states).postOrder.map (fun visit => visit.node.name) := by
      apply Decidable.byContradiction
      intro unmet
      have untouched := find?_foldl_addDescendants_of_unmet unmet .empty
      cases untouched.symm.trans found
    obtain ⟨visit, listed, rfl⟩ := List.mem_map.mp met
    have inPreOrder := (postOrderAt_perm none [] (root states)).mem_iff.mp listed
    refine ⟨visit.node, (exists_visit_iff visit.node).mp ⟨visit, inPreOrder, rfl⟩, rfl, ?_⟩
    exact Option.some.inj ((find?_descendants_of_visit distinct inPreOrder).symm.trans found)
  · rintro ⟨node, known, rfl, rfl⟩
    obtain ⟨visit, met, rfl⟩ := (exists_visit_iff node).mpr known
    exact find?_descendants_of_visit distinct met

theorem mem_descendants_iff (outer inner : String) :
    (∃ names, (ofStates states).descendants.find? outer = some names ∧ inner ∈ names) ↔
    Above states outer inner := by
  constructor
  · intro listed
    obtain ⟨names, found, member⟩ := listed
    obtain ⟨above, known, named, rfl⟩ := (find?_descendants_iff distinct outer names).mp found
    obtain ⟨below, inside, innerNamed⟩ := (mem_namesInside_iff above inner).mp member
    exact ⟨above, below, known, inside, named, innerNamed⟩
  · intro nested
    obtain ⟨above, below, known, inside, named, innerNamed⟩ := nested
    exact ⟨above.namesInside, (find?_descendants_iff distinct outer _).mpr
      ⟨above, known, named, rfl⟩, (mem_namesInside_iff above inner).mpr ⟨below, inside, innerNamed⟩⟩

theorem nodup_descendants {name : String} {names : List String}
    (found : (ofStates states).descendants.find? name = some names) : names.Nodup := by
  have whole : (root states).namesInside.Nodup := by
    rw [namesInside, List.map_tail]
    exact List.Nodup.tail distinct
  obtain ⟨node, rfl | inside, rfl, rfl⟩ := (find?_descendants_iff distinct name names).mp found
  · exact whole
  · exact ((List.sublist_cons_self _ _).trans inside.sublist_namesInside).nodup whole

theorem find?_descendants_root :
    (ofStates states).descendants.find? rootName = some (ofStates states).names := by
  apply (find?_descendants_iff distinct rootName _).mpr
  refine ⟨root states, Or.inl rfl, rfl, ?_⟩
  rw [show (ofStates states).names = namesOf (root states) from
    rfl, namesOf_root, map_forestPreOrderAt_name]
  exact namesInside_eq (root states)

end

end Hierarchy

end Statechart
