import Mathlib.Data.Set.Card
import Statechart.Proofs.Traversal.Frontier
import Statechart.Proofs.Traversal.Paths
import Statechart.Traversal.Graph

set_option autoImplicit false

namespace Statechart

variable {α : Type} {childrenOf : α → List α} {root : α}

/-- A list of visits goes through all downward paths, each once and as it is. -/
structure Enumerates (childrenOf : α → List α) (root : α) (visits : List (Visit α)) : Prop where
  once : (visits.map Visit.path).Nodup
  every : ∀ path, LeadsDown childrenOf root path → path ∈ visits.map Visit.path
  reached : ∀ visit ∈ visits, visit.Reaches childrenOf root

theorem enumerates_visits (finite : FinitelyBelow childrenOf root) (order : WalkOrder) :
    Enumerates childrenOf root ((Place.ofRoot finite).visits order) := by
  have met (visit : Visit α) : visit ∈ (Place.ofRoot finite).visits order ↔
      visit.Reaches childrenOf root := by
    rw [(Place.visits_perm_preOrder order (Place.ofRoot finite)).mem_iff]
    exact Place.mem_preOrder_ofRoot_iff finite visit
  refine ⟨Place.nodup_paths order (Place.ofRoot finite), ?_, fun visit => (met visit).mp⟩
  intro path leads
  obtain ⟨node, found⟩ := Option.isSome_iff_exists.mp leads
  obtain ⟨visit, reached, rfl, _⟩ := Visit.Reaches.exists_of_nodeAt found
  exact List.mem_map_of_mem ((met visit).mpr reached)

/-- Where no path leads down without end there are finitely many. -/
theorem finite_leadsDown (finite : FinitelyBelow childrenOf root) :
    {path | LeadsDown childrenOf root path}.Finite := by
  apply (List.finite_toSet (((Place.ofRoot finite).visits .preOrder).map Visit.path)).subset
  intro path leads
  exact (enumerates_visits finite .preOrder).every path leads

/-- Where finitely many paths lead down none of them is without end: fewer lead down from a
child than from its parent. -/
theorem finitelyBelow_of_finite (finite : {path | LeadsDown childrenOf root path}.Finite) :
    FinitelyBelow childrenOf root := by
  induction count : {path | LeadsDown childrenOf root path}.ncard using Nat.strongRecOn
      generalizing root with
  | ind count ih =>
    subst count
    apply FinitelyBelow.of_children
    intro child direct
    obtain ⟨position, found⟩ := List.mem_iff_getElem?.mp direct
    have onward : (position :: ·) '' {path | LeadsDown childrenOf child path} ⊆
        {path | LeadsDown childrenOf root path} := by
      rintro _ ⟨path, leads, rfl⟩
      show (nodeAt childrenOf (position :: path) root).isSome = true
      rw [nodeAt, found]
      exact leads
    have injective : Function.Injective (position :: · : List Nat → List Nat) := List.cons_injective
    have childFinite : {path | LeadsDown childrenOf child path}.Finite :=
      (finite.subset onward).of_finite_image injective.injOn
    have proper : (position :: ·) '' {path | LeadsDown childrenOf child path} ⊂
        {path | LeadsDown childrenOf root path} := by
      refine onward.ssubset_of_mem_notMem (a := []) rfl ?_
      rintro ⟨path, _, same⟩
      exact List.cons_ne_nil _ _ same
    have fewer := Set.ncard_lt_ncard proper finite
    rw [Set.ncard_image_of_injective _ injective] at fewer
    exact ih _ fewer childFinite rfl

/-- Where only finitely many paths lead down from a root, a walk ends, in every order: it folds
the visitor over the list of visits that the order is defined by. Each of these lists goes
through all downward paths, so any two of them are permutations of each other, and level by
level the shorter path comes first, or of two equally long ones the lexicographically smaller.
-/
theorem traverse_visits_every_path (childrenOf : α → List α) (root : α)
    (finite : {path | LeadsDown childrenOf root path}.Finite) :
    ∃ below : FinitelyBelow childrenOf root,
      (∀ {β : Type} (order : WalkOrder) (seed : β) (visitor : β → Visit α → β),
        traverse order childrenOf root below seed visitor =
          ((Place.ofRoot below).visits order).foldl visitor seed) ∧
      (∀ order, Enumerates childrenOf root ((Place.ofRoot below).visits order)) ∧
      ((Place.ofRoot below).visits .breadthFirst).Pairwise Visit.Before ∧
      ∀ first second, ((Place.ofRoot below).visits first).Perm
        ((Place.ofRoot below).visits second) := by
  have below := finitelyBelow_of_finite finite
  refine ⟨below, ?_, ?_, ?_, ?_⟩
  · intro β order seed visitor
    exact traverse_eq_foldl order below seed visitor
  · exact enumerates_visits below
  · exact Place.breadthOrder_pairwise (Place.ofRoot below)
  · intro first second
    exact (Place.visits_perm_preOrder first _).trans (Place.visits_perm_preOrder second _).symm

/-- A graph in which two ways lead from the first node to the last. -/
def Graph.diamond : Graph :=
  ⟨[[1, 2], [3], [3], []]⟩

theorem Graph.finitelyBelow_diamond : FinitelyBelow diamond.childrenOf 0 := by
  have last : FinitelyBelow diamond.childrenOf 3 :=
    FinitelyBelow.of_children (List.forall_mem_nil _)
  have left : FinitelyBelow diamond.childrenOf 1 :=
    FinitelyBelow.of_children (List.forall_mem_singleton.mpr last)
  have right : FinitelyBelow diamond.childrenOf 2 :=
    FinitelyBelow.of_children (List.forall_mem_singleton.mpr last)
  exact FinitelyBelow.of_children
    (List.forall_mem_cons.mpr ⟨left, List.forall_mem_singleton.mpr right⟩)

/-- The last node of the diamond is visited twice, once for each way. -/
theorem diamond_visits_every_path : {path | LeadsDown Graph.diamond.childrenOf 0 path}.Finite ∧
    ∃ below : FinitelyBelow Graph.diamond.childrenOf 0,
      traverse .postOrder Graph.diamond.childrenOf 0 below []
        (fun paths visit => paths ++ [visit.path])
        = ((Place.ofRoot below).visits .postOrder).map Visit.path ∧
      (((Place.ofRoot below).visits .postOrder).map Visit.path).Nodup ∧
      [0, 0] ∈ ((Place.ofRoot below).visits .postOrder).map Visit.path ∧
      [1, 0] ∈ ((Place.ofRoot below).visits .postOrder).map Visit.path := by
  have finite := finite_leadsDown Graph.finitelyBelow_diamond
  obtain ⟨below, folds, enumerates, _⟩ :=
    traverse_visits_every_path Graph.diamond.childrenOf 0 finite
  have all := enumerates .postOrder
  refine ⟨finite, below, ?_, all.once, all.every [0, 0] rfl, all.every [1, 0] rfl⟩
  rw [folds, List.foldl_append_eq_append, ← List.flatMap_def, ← List.map_eq_flatMap,
    List.nil_append]

end Statechart
