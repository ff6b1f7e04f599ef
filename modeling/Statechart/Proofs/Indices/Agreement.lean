import Statechart.Proofs.Indices.Descendants
import Statechart.Proofs.Indices.Dotted
import Statechart.Proofs.Indices.Lineage

set_option autoImplicit false

namespace Statechart

open StateNode

namespace Hierarchy

/-- Appending the values of the chosen items one by one lists them in their order. -/
theorem foldl_append_eq {α β : Type} (chosen : α → Bool) (value : α → β) (items : List α)
    (before : List β) :
    items.foldl (fun listed item => if chosen item then listed ++ [value item] else listed) before
      = before ++ (items.filter chosen).map value := by
  rw [← List.foldl_filter, List.foldl_append_eq_append, ← List.flatMap_def, ← List.map_eq_flatMap]

/-- Each index is what a walk of its own folds up. -/
theorem ofRoot_eq_walked (root : StateNode) : ofRoot root = walked root := by
  have parents : parentsOf root = (walked root).parents := by
    simp only [walked, StateNode.traverse_eq_foldl, visits, parentsOf, Table.ofList,
      List.foldl_filterMap]
    congr 1
    funext table visit
    cases visit.parent <;> rfl
  rw [ofRoot, parents]
  simp only [walked, StateNode.traverse_eq_foldl, visits, namesOf, compoundOf, pathsOf,
    childNamesOf, descendantsOf, ancestorsOf, Table.ofList, List.foldl_map, foldl_append_eq,
    List.nil_append]

section

variable {states : List StateNode} (distinct : DistinctNames states)

include distinct

theorem find?_parents_iff_childNames (inner outer : String) :
    (ofStates states).parents.find? inner = some outer ↔
      ∃ names, (ofStates states).childNames.find? outer = some names ∧ inner ∈ names := by
  have listed (names : List String) : (ofStates states).childNames.find? outer = some names ↔
      ∃ visit ∈ (root states).preOrder, visit.node.name = outer ∧
      visit.node.children.map StateNode.name = names :=
    find?_ofList_visits_iff distinct (fun _ => Iff.rfl)
      (fun visit => visit.node.children.map StateNode.name) outer names
  simp only [find?_parents_iff distinct, listed]
  constructor
  · rintro (⟨above, below, placed, direct, rfl, rfl⟩ | ⟨rfl, below, direct, rfl⟩)
    · obtain ⟨visit, met, rfl⟩ := (exists_visit_iff above).mpr (Or.inr placed)
      exact ⟨_, ⟨visit, met, rfl, rfl⟩, List.mem_map_of_mem direct⟩
    · exact ⟨_, ⟨_, self_mem_preOrderAt none [] (root states), rfl, rfl⟩,
        List.mem_map_of_mem direct⟩
  · rintro ⟨_, ⟨visit, met, rfl, rfl⟩, member⟩
    obtain ⟨below, direct, rfl⟩ := List.mem_map.mp member
    rcases (exists_visit_iff visit.node).mp ⟨visit, met, rfl⟩ with top | placed
    · rw [top] at direct ⊢
      exact Or.inr ⟨rfl, below, direct, rfl⟩
    · exact Or.inl ⟨visit.node, below, placed, direct, rfl, rfl⟩

theorem mem_tail_lineage_iff (outer inner : String) :
    outer ∈ ((ofStates states).lineage inner).tail ↔ Above states outer inner := by
  rw [above_iff]
  by_cases declared : Declared states inner
  · rw [lineage_of_declared distinct declared, List.cons_append, List.tail_cons, List.mem_append,
      List.mem_singleton, mem_historyAncestors_iff distinct]
    simp only [declared, and_true]
  · rw [lineage_of_undeclared distinct declared]
    simp only [List.tail_cons, List.not_mem_nil, declared, and_false, or_false, false_iff]
    exact fun encloses => declared (declared_of_encloses encloses)

theorem lineage_of_parent {state parent : String}
    (around : (ofStates states).parents.find? state = some parent) :
    (ofStates states).lineage state = state :: (ofStates states).lineage parent := by
  have declared : Declared states state := (exists_parent_iff distinct state).mp ⟨parent, around⟩
  rw [lineage_of_declared distinct declared]
  rcases (find?_parents_iff distinct state parent).mp around with isParent | ⟨rfl, node, top, rfl⟩
  · obtain ⟨above, below, placed, direct, rfl, rfl⟩ := isParent
    rw [historyAncestors_child distinct placed direct,
      lineage_of_declared distinct ⟨above, placed, rfl⟩]
    rfl
  · rw [historyAncestors_top distinct top, lineage_of_undeclared distinct]
    · rfl
    · exact fun isRoot => ne_root_of_declared distinct isRoot rfl

theorem followsParents_lineage (state : String) :
    (ofStates states).FollowsParents state ((ofStates states).lineage state) := by
  induction length : ((ofStates states).lineage state).length using Nat.strongRecOn
      generalizing state with
  | ind length ih =>
    cases around : (ofStates states).parents.find? state with
    | none =>
      have undeclared : ¬ Declared states state := by
        intro declared
        obtain ⟨outer, found⟩ := (exists_parent_iff distinct state).mpr declared
        cases around.symm.trans found
      rw [lineage_of_undeclared distinct undeclared]
      exact .last around
    | some parent =>
      have goesOn := lineage_of_parent distinct around
      rw [goesOn, List.length_cons] at length
      rw [goesOn]
      exact .next around (ih _ (by omega) parent rfl)

theorem nodup_lineage (state : String) : ((ofStates states).lineage state).Nodup := by
  by_cases declared : Declared states state
  · rw [lineage_of_declared distinct declared, List.nodup_append]
    refine ⟨nodup_around distinct state, List.nodup_singleton _, ?_⟩
    intro name member last isLast
    rw [List.mem_singleton.mp isLast]
    apply ne_root_of_around distinct _ (ne_root_of_declared distinct declared)
    exact (List.mem_cons.mp member).imp_right (mem_historyAncestors_iff distinct name state).mp
  · rw [lineage_of_undeclared distinct declared]
    exact List.nodup_singleton _

theorem historyAncestors_eq_filter (state : String) :
    (ofStates states).historyAncestors state
      = ((ofStates states).lineage state).filter
        (fun around => around ≠ state ∧ around ≠ rootName) := by
  by_cases declared : Declared states state
  · have kept : ((ofStates states).historyAncestors state).filter
        (fun around => around ≠ state ∧ around ≠ rootName)
        = (ofStates states).historyAncestors state := by
      rw [List.filter_eq_self]
      intro name around
      have encloses := (mem_historyAncestors_iff distinct name state).mp around
      have other : name ≠ state := fun same => not_encloses_self distinct state (same ▸ encloses)
      have notRoot := ne_root_of_around distinct (Or.inr encloses)
        (ne_root_of_declared distinct declared)
      simp only [ne_eq, other, not_false_eq_true, notRoot, and_self, decide_true]
    rw [lineage_of_declared distinct declared, List.cons_append, List.filter_cons_of_neg (by simp),
      List.filter_append, kept, List.filter_cons_of_neg (by simp), List.filter_nil, List.append_nil]
  · rw [lineage_of_undeclared distinct declared, historyAncestors_of_undeclared distinct declared,
      List.filter_cons_of_neg (by simp), List.filter_nil]

theorem agreeOn (outer inner : String) : (ofStates states).AgreeOn states outer inner where
  paths := isStrictAncestor_iff_above distinct outer inner
  texts := by rw [isDottedAncestor_eq, isStrictAncestor_iff_above distinct]
  lineage := mem_tail_lineage_iff distinct outer inner
  descendants := mem_descendants_iff distinct outer inner
  parent := find?_parents_iff_childNames distinct inner outer

theorem agreeAt {state : String} (known : state = rootName ∨ Declared states state) :
    (ofStates states).AgreeAt states state where
  outwards := followsParents_lineage distinct state
  unrepeated := nodup_lineage distinct state
  root := by
    rcases known with rfl | declared
    · rw [lineage_of_undeclared distinct
        (fun declared => ne_root_of_declared distinct declared rfl)]
      rfl
    · rw [lineage_of_declared distinct declared, List.getLast?_concat]
  history := historyAncestors_eq_filter distinct state
  shallow := find?_shallowAncestors distinct state
  descendants := by
    have exists_node : ∃ node, (node = root states ∨ Inside node (root states)) ∧
        node.name = state := by
      rcases known with rfl | ⟨node, inside, named⟩
      · exact ⟨root states, Or.inl rfl, rfl⟩
      · exact ⟨node, Or.inr inside, named⟩
    obtain ⟨node, placed, named⟩ := exists_node
    exact ⟨node, placed, named,
      (find?_descendants_iff distinct state _).mpr ⟨node, placed, named, rfl⟩⟩
  once _ found := nodup_descendants distinct found
  compound := by
    rw [isCompound_iff_children distinct]
    constructor
    · rintro ⟨node, placed, named, nested⟩
      exact ⟨node.namesInside, (find?_descendants_iff distinct state _).mpr
        ⟨node, placed, named, rfl⟩, fun none => nested ((namesInside_eq_nil_iff node).mp none)⟩
    · rintro ⟨names, found, nonempty⟩
      obtain ⟨node, placed, named, rfl⟩ := (find?_descendants_iff distinct state names).mp found
      exact ⟨node, placed, named, fun childless =>
        nonempty ((namesInside_eq_nil_iff node).mpr childless)⟩

end

/-- The indices of a hierarchy of distinct names come from walks over its tree, and whichever of
them is asked, the answer is that of the tree. -/
theorem describe_one_tree (states : List StateNode) (distinct : DistinctNames states) :
    ofStates states = walked (root states) ∧
      (∀ outer inner, (ofStates states).AgreeOn states outer inner) ∧
      (∀ state, state = rootName ∨ Declared states state → (ofStates states).AgreeAt states state) ∧
      (ofStates states).descendants.find? rootName = some (ofStates states).names :=
  ⟨ofRoot_eq_walked (root states), agreeOn distinct, fun _ known =>
    agreeAt distinct known, find?_descendants_root distinct⟩

/-- A hierarchy with more than ten neighbours, in which the names look like paths and the path
text of the second neighbour begins that of the eleventh. -/
def crowded : List StateNode :=
  [.atomic "0", .compound "0.1" [.atomic "0.1.0", .atomic "0.10"], .atomic "0.2", .atomic "0.3",
    .atomic "0.4", .atomic "0.5",
    .atomic "0.6", .atomic "0.7", .atomic "0.8", .atomic "0.9",
    .compound "0.1." [.compound "" [.atomic "0.10.0"]]]

theorem crowded_describe_one_tree :
    DistinctNames crowded ∧ ofStates crowded = walked (root crowded) ∧
      (∀ outer inner, (ofStates crowded).AgreeOn crowded outer inner) ∧
      (∀ state, state = rootName ∨ Declared crowded state →
        (ofStates crowded).AgreeAt crowded state) ∧
      (ofStates crowded).descendants.find? rootName = some (ofStates crowded).names := by
  have distinct : DistinctNames crowded := by
    unfold DistinctNames
    decide +kernel
  exact ⟨distinct, describe_one_tree crowded distinct⟩

example : (ofStates crowded).paths.find? "0.1" = some [1] ∧
    (ofStates crowded).paths.find? "0.10.0" = some [10, 0, 0] ∧
    (ofStates crowded).isDottedAncestor "0.1" "0.10.0" = false := by
  decide +kernel

end Hierarchy

end Statechart
