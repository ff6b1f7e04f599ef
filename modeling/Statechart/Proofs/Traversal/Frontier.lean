import Mathlib.Data.List.Basic
import Statechart.Traversal.Place

set_option autoImplicit false

namespace Statechart

variable {α β : Type} {childrenOf : α → List α}

namespace Pending

def place (entry : Pending childrenOf) : Place childrenOf :=
  ⟨entry.visit, entry.finite⟩

theorem map_place_children (entry : Pending childrenOf) :
    entry.children.map place = entry.place.children := by
  rw [children, List.map_map]
  rfl

theorem expanded_of_mem_children {entry child : Pending childrenOf}
    (direct : child ∈ entry.children) : child.expanded = false := by
  obtain ⟨visit, _, rfl⟩ := List.mem_map.mp direct
  rfl

theorem map_visit_children (entry : Pending childrenOf) :
    entry.children.map visit = entry.visit.below childrenOf := by
  rw [children, List.map_map]
  exact List.attach_map_subtype_val _

theorem place_mem_children {entry child : Pending childrenOf} (direct : child ∈ entry.children) :
    child.place ∈ entry.place.children := by
  rw [← map_place_children]
  exact List.mem_map_of_mem direct

/-- The visits that a node pending on a stack will bring. -/
def due (childrenFirst : Bool) (entry : Pending childrenOf) : List (Visit α) :=
  if entry.expanded then [entry.visit]
  else if childrenFirst then entry.place.postOrder
  else entry.place.preOrder

theorem due_of_expanded {childrenFirst : Bool} {entry : Pending childrenOf}
    (expanded : entry.expanded = true) : entry.due childrenFirst = [entry.visit] :=
  if_pos expanded

@[simp] theorem due_expand (childrenFirst : Bool) (entry : Pending childrenOf) :
    entry.expand.due childrenFirst = [entry.visit] :=
  due_of_expanded rfl

theorem flatMap_due_children (childrenFirst : Bool) (entry : Pending childrenOf) :
    entry.children.flatMap (due childrenFirst)
      = entry.place.children.flatMap
        (if childrenFirst then Place.postOrder else Place.preOrder) := by
  rw [← map_place_children, List.flatMap_map]
  apply List.flatMap_congr
  intro child direct
  simp only [due, expanded_of_mem_children direct, Bool.false_eq_true, ↓reduceIte]
  split <;> rfl

/-- A node that comes before its children brings its own visit and then theirs. -/
theorem due_parent_first {entry : Pending childrenOf} (fresh : entry.expanded = false) :
    entry.due false = entry.visit :: entry.children.flatMap (due false) := by
  rw [flatMap_due_children, due, fresh, if_neg Bool.false_ne_true, if_neg Bool.false_ne_true,
    Place.preOrder_eq]
  rfl

/-- A node that comes after its children brings their visits and then its own. -/
theorem due_children_first {entry : Pending childrenOf} (fresh : entry.expanded = false) :
    entry.due true = (entry.children ++ [entry.expand]).flatMap (due true) := by
  rw [List.flatMap_append, flatMap_due_children, List.flatMap_singleton, due_expand, due, fresh,
    if_neg Bool.false_ne_true, if_pos rfl, Place.postOrder_eq]
  rfl

end Pending

open Pending

theorem walk_nil (childrenFirst : Bool) (visitor : β → Visit α → β) (discipline : Discipline)
    (result : β) :
    walk childrenFirst visitor (⟨discipline, []⟩ : Frontier (Pending childrenOf)) result =
      result := by
  rw [walk]

theorem walk_expanded (childrenFirst : Bool) (visitor : β → Visit α → β) (discipline : Discipline)
    {entry : Pending childrenOf} (expanded : entry.expanded = true)
    (rest : List (Pending childrenOf)) (result : β) :
    walk childrenFirst visitor ⟨discipline, entry :: rest⟩ result
      = walk childrenFirst visitor ⟨discipline, rest⟩ (visitor result entry.visit) := by
  rw [walk]
  simp only [expanded, ↓reduceDIte]

/-- Where parents come first, a node is visited and its children are put on the frontier. -/
theorem walk_parent_first (visitor : β → Visit α → β) (discipline : Discipline)
    {entry : Pending childrenOf} (fresh : entry.expanded = false) (rest : List (Pending childrenOf))
    (result : β) :
    walk false visitor ⟨discipline, entry :: rest⟩ result
      = walk false visitor (Frontier.pushAll ⟨discipline, rest⟩ entry.children)
        (visitor result entry.visit) := by
  rw [walk]
  simp only [fresh, Bool.false_eq_true, ↓reduceDIte, Bool.false_and, ↓reduceIte]

/-- Where children come first, a node is put back behind its children. One without children is
visited at once, which comes to the same. -/
theorem walk_children_first (visitor : β → Visit α → β) {entry : Pending childrenOf}
    (fresh : entry.expanded = false) (rest : List (Pending childrenOf)) (result : β) :
    walk true visitor ⟨.stack, entry :: rest⟩ result
      = walk true visitor ⟨.stack, entry.children ++ [entry.expand] ++ rest⟩ result := by
  rw [walk]
  cases below : entry.children with
  | nil =>
    rw [List.nil_append, List.singleton_append, walk_expanded true visitor .stack rfl]
    simp [fresh, below, Frontier.pushAll, expand]
  | cons first more => simp [fresh, below, Frontier.pushAll]

/-- On a stack the entries are worked off one after the other, each with everything below it. -/
theorem walk_stack (childrenFirst : Bool) (visitor : β → Visit α → β)
    (entries : List (Pending childrenOf)) (result : β) :
    walk childrenFirst visitor ⟨.stack, entries⟩ result
      = (entries.flatMap (due childrenFirst)).foldl visitor result := by
  -- By induction on the stops still to come: a node put back behind its children brings fewer
  -- than one not yet met.
  induction left : (entries.flatMap stops).length using Nat.strongRecOn
      generalizing entries result with
  | ind left ih =>
    subst left
    cases entries with
    | nil => rw [walk_nil, List.flatMap_nil, List.foldl_nil]
    | cons entry rest =>
      cases fresh : entry.expanded with
      | true =>
        have fewer : (rest.flatMap stops).length < ((entry :: rest).flatMap stops).length := by
          have positive := entry.length_stops_pos
          rw [List.flatMap_cons, List.length_append]
          omega
        rw [walk_expanded _ _ _ fresh, List.flatMap_cons, due_of_expanded fresh,
          List.singleton_append, List.foldl_cons]
        exact ih _ fewer rest _ rfl
      | false =>
        cases childrenFirst with
        | false =>
          have fewer : ((entry.children ++ rest).flatMap stops).length <
              ((entry :: rest).flatMap stops).length := by
            rw [List.flatMap_cons, stops_of_fresh entry fresh, List.flatMap_append]
            simp only [List.length_append, List.length_cons]
            omega
          rw [walk_parent_first _ _ fresh, List.flatMap_cons, due_parent_first fresh,
            List.cons_append, List.foldl_cons, ← List.flatMap_append]
          exact ih _ fewer (entry.children ++ rest) _ rfl
        | true =>
          have fewer : ((entry.children ++ [entry.expand] ++ rest).flatMap stops).length
              < ((entry :: rest).flatMap stops).length := by
            rw [List.flatMap_cons, stops_of_fresh entry fresh]
            simp only [List.flatMap_append, List.flatMap_singleton, stops_expand,
              List.length_append, List.length_cons, List.length_nil]
            omega
          rw [walk_children_first _ fresh, List.flatMap_cons, due_children_first fresh,
            ← List.flatMap_append]
          exact ih _ fewer (entry.children ++ [entry.expand] ++ rest) result rfl

/-- A queue visits all its entries before anything that they put at its end. -/
theorem walk_queue_front (visitor : β → Visit α → β) (front back : List (Pending childrenOf))
    (fresh : ∀ entry ∈ front, entry.expanded = false) (result : β) :
    walk false visitor ⟨.queue, front ++ back⟩ result
      = walk false visitor ⟨.queue, back ++ front.flatMap children⟩
        ((front.map visit).foldl visitor result) := by
  induction front generalizing back result with
  | nil => simp
  | cons entry rest ih =>
    have restFresh : ∀ other ∈ rest, other.expanded = false := fun other member =>
      fresh other (List.mem_cons_of_mem _ member)
    rw [List.cons_append, walk_parent_first _ _ (fresh entry List.mem_cons_self), Frontier.pushAll,
      List.append_assoc, ih (back ++ entry.children) restFresh, List.flatMap_cons,
      List.append_assoc]
    rfl

/-- A queue works off level after level, and is empty once there are no more levels. -/
theorem walk_queue (visitor : β → Visit α → β) (levels : Nat) (entries : List (Pending childrenOf))
    (fresh : ∀ entry ∈ entries, entry.expanded = false)
    (low : ∀ entry ∈ entries, entry.place.height ≤ levels)
    (result : β) :
    walk false visitor ⟨.queue, entries⟩ result
      = ((List.range levels).flatMap (fun steps =>
          entries.flatMap (fun entry => entry.visit.level childrenOf steps))).foldl visitor
              result := by
  induction levels generalizing entries result with
  | zero =>
    cases entries with
    | nil => exact walk_nil _ _ _ _
    | cons entry rest =>
      have none := low entry List.mem_cons_self
      rw [Place.height_eq] at none
      omega
  | succ levels ih =>
    have childFresh : ∀ child ∈ entries.flatMap children, child.expanded = false := by
      intro child member
      obtain ⟨entry, _, direct⟩ := List.mem_flatMap.mp member
      exact expanded_of_mem_children direct
    have childLow : ∀ child ∈ entries.flatMap children, child.place.height ≤ levels := by
      intro child member
      obtain ⟨entry, listed, direct⟩ := List.mem_flatMap.mp member
      have lower := Place.height_lt_of_mem (place_mem_children direct)
      have bound := low entry listed
      omega
    have below (steps : Nat) : (entries.flatMap children).flatMap
        (fun child => child.visit.level childrenOf steps)
        = entries.flatMap (fun entry => entry.visit.level childrenOf (steps + 1)) := by
      rw [List.flatMap_assoc]
      apply List.flatMap_congr
      intro entry _
      rw [Visit.level, ← map_visit_children, List.flatMap_map]
    have front := walk_queue_front visitor entries [] fresh result
    rw [List.append_nil, List.nil_append] at front
    have own : entries.map visit = entries.flatMap (fun entry => entry.visit.level childrenOf 0) :=
      List.map_eq_flatMap
    rw [front, ih (entries.flatMap children) childFresh childLow, ← List.foldl_append, own,
      List.range_succ_eq_map, List.flatMap_cons, List.flatMap_map]
    simp only [below]

/-- A walk folds the visitor over the visits in its order. -/
theorem traverse_eq_foldl (order : WalkOrder) {root : α} (finite : FinitelyBelow childrenOf root)
    (seed : β) (visitor : β → Visit α → β) :
    traverse order childrenOf root finite seed visitor =
      ((Place.ofRoot finite).visits order).foldl visitor seed := by
  let start : Pending childrenOf := ⟨.root root, false, finite⟩
  cases order with
  | breadthFirst =>
    have run := walk_queue visitor start.place.height [start] (by simp [start]) (by simp) seed
    simp only [List.flatMap_singleton] at run
    exact run
  | preOrder =>
    have run := walk_stack false visitor [start] seed
    rw [List.flatMap_singleton] at run
    exact run
  | postOrder =>
    have run := walk_stack true visitor [start] seed
    rw [List.flatMap_singleton] at run
    exact run

end Statechart
