import Mathlib.Data.List.Induction
import Mathlib.Data.List.Perm.Basic
import Mathlib.Data.Multiset.Bind
import Statechart.Traversal.Place

set_option autoImplicit false

namespace Statechart

variable {α : Type} {childrenOf : α → List α}

namespace Visit

theorem mem_below_iff (visit other : Visit α) :
    other ∈ visit.below childrenOf ↔
      ∃ (position : Nat) (child : α), (childrenOf visit.node)[position]? = some child ∧
      other = ⟨child, some visit.node, visit.path ++ [position]⟩ := by
  rw [below, List.mem_map]
  constructor
  · intro listed
    obtain ⟨item, member, rfl⟩ := listed
    exact ⟨item.2, item.1, List.mem_zipIdx_iff_getElem?.mp member, rfl⟩
  · intro found
    obtain ⟨position, child, entry, rfl⟩ := found
    exact ⟨(child, position), List.mem_zipIdx_iff_getElem?.mpr entry, rfl⟩

/-- The paths of a level go on from the path it starts at, by as many steps as the level is down. -/
theorem path_of_mem_level {steps : Nat} {start visit : Visit α}
    (member : visit ∈ start.level childrenOf steps) :
    ∃ more : List Nat, visit.path = start.path ++ more ∧ more.length = steps := by
  induction steps generalizing start with
  | zero =>
    rw [level, List.mem_singleton] at member
    exact ⟨[], by rw [member, List.append_nil], rfl⟩
  | succ steps ih =>
    rw [level, List.mem_flatMap] at member
    obtain ⟨next, direct, further⟩ := member
    obtain ⟨position, child, _, rfl⟩ := (mem_below_iff start next).mp direct
    obtain ⟨more, extended, long⟩ := ih further
    refine ⟨position :: more, ?_, ?_⟩
    · rw [extended, List.append_assoc, List.singleton_append]
    · rw [List.length_cons, long]

/-- A level is in the order of its paths. -/
theorem level_pairwise (steps : Nat) (start : Visit α) :
    (start.level childrenOf steps).Pairwise (fun first second => first.path < second.path) := by
  induction steps generalizing start with
  | zero => exact List.pairwise_singleton _ _
  | succ steps ih =>
    rw [level, List.pairwise_flatMap]
    refine ⟨fun next _ => ih next, ?_⟩
    rw [below, List.pairwise_map]
    apply (pairwise_zipIdx (childrenOf start.node)).imp
    intro first second smaller visit inFirst other inSecond
    obtain ⟨more, extended, _⟩ := path_of_mem_level inFirst
    obtain ⟨further, otherExtended, _⟩ := path_of_mem_level inSecond
    rw [extended, otherExtended, List.append_assoc, List.append_assoc]
    exact List.append_left_lt (List.Lex.rel smaller)

end Visit

theorem nodeAt_append (path more : List Nat) (node : α) :
    nodeAt childrenOf (path ++ more) node =
      (nodeAt childrenOf path node).bind (nodeAt childrenOf more) := by
  induction path generalizing node with
  | nil => rfl
  | cons position path ih =>
    rw [List.cons_append, nodeAt, nodeAt]
    cases (childrenOf node)[position]? with
    | none => rfl
    | some child => exact ih child

theorem nodeAt_concat (path : List Nat) (position : Nat) (node : α) :
    nodeAt childrenOf (path ++ [position]) node
      = (nodeAt childrenOf path node).bind (fun above => (childrenOf above)[position]?) := by
  rw [nodeAt_append]
  congr 1
  funext above
  rw [nodeAt]
  cases (childrenOf above)[position]? <;> rfl

namespace Visit

variable {root : α}

theorem Reaches.start (childrenOf : α → List α) (root : α) :
    (Visit.root root).Reaches childrenOf root :=
  ⟨rfl, fun nested => absurd rfl nested, iff_of_true rfl rfl⟩

theorem Reaches.below {visit child : Visit α} (reached : visit.Reaches childrenOf root)
    (direct : child ∈ visit.below childrenOf) : child.Reaches childrenOf root := by
  obtain ⟨position, node, found, rfl⟩ := (mem_below_iff visit child).mp direct
  refine ⟨?_, ?_, ?_⟩
  · rw [nodeAt_concat, reached.node]
    exact found
  · intro _
    rw [List.dropLast_concat]
    exact reached.node.symm
  · simp

theorem Reaches.unique {first second : Visit α} (firstReached : first.Reaches childrenOf root)
    (secondReached : second.Reaches childrenOf root) (paths : first.path = second.path) :
    first = second := by
  obtain ⟨node, parent, path⟩ := first
  obtain ⟨other, otherParent, otherPath⟩ := second
  obtain rfl : path = otherPath := paths
  obtain rfl : node = other := Option.some.inj (firstReached.node.symm.trans secondReached.node)
  have parents : parent = otherParent := by
    by_cases top : path = []
    · exact (firstReached.top.mpr top).trans (secondReached.top.mpr top).symm
    · exact (firstReached.parent top).trans (secondReached.parent top).symm
  rw [parents]

theorem Reaches.exists_of_nodeAt {path : List Nat} {node : α}
    (found : nodeAt childrenOf path root = some node) :
    ∃ visit : Visit α, visit.Reaches childrenOf root ∧ visit.path = path ∧ visit.node = node := by
  induction path using List.reverseRecOn generalizing node with
  | nil =>
    cases found
    exact ⟨.root root, Reaches.start childrenOf root, rfl, rfl⟩
  | append_singleton path position ih =>
    rw [nodeAt_concat, Option.bind_eq_some_iff] at found
    obtain ⟨upper, upperFound, entry⟩ := found
    obtain ⟨above, reached, rfl, rfl⟩ := ih upperFound
    have direct := (mem_below_iff above ⟨node, some above.node, above.path ++ [position]⟩).mpr
      ⟨position, node, entry, rfl⟩
    exact ⟨_, reached.below direct, rfl, rfl⟩

/-- But for the root's, a visit is that of a child of a node that is reached too. -/
theorem Reaches.exists_above {visit : Visit α} (reached : visit.Reaches childrenOf root)
    (nested : visit.path ≠ []) :
    ∃ above : Visit α, above.Reaches childrenOf root ∧ visit ∈ above.below childrenOf := by
  obtain ⟨path, position, extended⟩ := (List.eq_nil_or_concat visit.path).resolve_left nested
  rw [List.concat_eq_append] at extended
  have found := reached.node
  rw [extended, nodeAt_concat, Option.bind_eq_some_iff] at found
  obtain ⟨upper, upperFound, entry⟩ := found
  obtain ⟨above, aboveReached, rfl, rfl⟩ := Reaches.exists_of_nodeAt upperFound
  have direct := (mem_below_iff above ⟨visit.node, some above.node, above.path ++ [position]⟩).mpr
    ⟨position, visit.node, entry, rfl⟩
  refine ⟨above, aboveReached, ?_⟩
  rw [reached.unique (aboveReached.below direct) extended]
  exact direct

end Visit

/-- Two nested enumerations may change places. -/
theorem flatMap_flatMap_perm {β γ δ : Type} (outer : List β) (inner : List γ)
    (items : β → γ → List δ) :
    (outer.flatMap (fun first => inner.flatMap (fun second => items first second))).Perm
      (inner.flatMap (fun second => outer.flatMap (fun first => items first second))) := by
  rw [← Multiset.coe_eq_coe]
  simp only [← Multiset.coe_bind]
  exact Multiset.bind_bind (outer : Multiset β) (inner : Multiset γ)

namespace Place

/-- All visits below a place, level by level as far down as there are any, are those of the
recursion. -/
theorem levels_perm_preOrder (levels : Nat) (place : Place childrenOf)
    (low : place.height ≤ levels) :
    ((List.range levels).flatMap (fun steps => place.visit.level childrenOf steps)).Perm
      place.preOrder := by
  induction levels generalizing place with
  | zero =>
    rw [height_eq] at low
    omega
  | succ levels ih =>
    have inner : ∀ child ∈ place.children,
        ((List.range levels).flatMap (fun steps => child.visit.level childrenOf steps)).Perm
          child.preOrder := by
      intro child direct
      apply ih child
      have lower := height_lt_of_mem direct
      omega
    rw [List.range_succ_eq_map, List.flatMap_cons, List.flatMap_map, preOrder_eq]
    simp only [Visit.level, List.singleton_append, ← map_visit_children, List.flatMap_map]
    apply List.Perm.cons
    exact (flatMap_flatMap_perm _ _ _).trans (List.Perm.flatMap_left _ inner)

theorem breadthOrder_perm_preOrder (place : Place childrenOf) :
    place.breadthOrder.Perm place.preOrder :=
  levels_perm_preOrder place.height place (Nat.le_refl _)

theorem postOrder_perm_preOrder (place : Place childrenOf) :
    place.postOrder.Perm place.preOrder := by
  induction place using induct with
  | step place ih =>
    rw [postOrder_eq, preOrder_eq]
    exact (List.perm_append_singleton _ _).trans ((List.Perm.flatMap_left _ ih).cons _)

theorem visits_perm_preOrder (order : WalkOrder) (place : Place childrenOf) :
    (place.visits order).Perm place.preOrder := by
  cases order with
  | breadthFirst => exact breadthOrder_perm_preOrder place
  | preOrder => exact List.Perm.refl _
  | postOrder => exact postOrder_perm_preOrder place

theorem mem_preOrder_iff (place : Place childrenOf) (visit : Visit α) :
    visit ∈ place.preOrder ↔ visit = place.visit ∨
    ∃ child ∈ place.children, visit ∈ child.preOrder := by
  rw [preOrder_eq, List.mem_cons, List.mem_flatMap]

theorem below_mem_preOrder {place : Place childrenOf} {visit child : Visit α}
    (met : visit ∈ place.preOrder)
    (direct : child ∈ visit.below childrenOf) : child ∈ place.preOrder := by
  induction place using induct with
  | step place ih =>
    rw [mem_preOrder_iff] at met ⊢
    rcases met with rfl | ⟨next, isNext, further⟩
    · rw [← map_visit_children] at direct
      obtain ⟨next, isNext, rfl⟩ := List.mem_map.mp direct
      exact Or.inr ⟨next, isNext, (mem_preOrder_iff next _).mpr (Or.inl rfl)⟩
    · exact Or.inr ⟨next, isNext, ih next isNext further⟩

theorem reaches_of_mem_preOrder {root : α} {place : Place childrenOf}
    (reached : place.visit.Reaches childrenOf root) {visit : Visit α}
    (met : visit ∈ place.preOrder) : visit.Reaches childrenOf root := by
  induction place using induct with
  | step place ih =>
    rcases (mem_preOrder_iff place visit).mp met with rfl | ⟨next, isNext, further⟩
    · exact reached
    · exact ih next isNext (reached.below (mem_below_of_mem_children isNext)) further

/-- The visits below a root are those that its downward paths lead to. -/
theorem mem_preOrder_ofRoot_iff {root : α} (finite : FinitelyBelow childrenOf root)
    (visit : Visit α) : visit ∈ (ofRoot finite).preOrder ↔ visit.Reaches childrenOf root := by
  constructor
  · exact reaches_of_mem_preOrder (Visit.Reaches.start childrenOf root)
  · intro reached
    -- By induction on the length of the path: the visit above it has a path shorter by one.
    induction long : visit.path.length generalizing visit with
    | zero =>
      have top := reached.unique (Visit.Reaches.start childrenOf root)
        (List.eq_nil_of_length_eq_zero long)
      exact (mem_preOrder_iff _ visit).mpr (Or.inl top)
    | succ length ih =>
      obtain ⟨above, aboveReached, direct⟩ :=
        reached.exists_above (List.ne_nil_of_length_eq_add_one long)
      obtain ⟨position, child, _, rfl⟩ := (Visit.mem_below_iff above visit).mp direct
      have shorter : above.path.length = length := by simpa using long
      exact below_mem_preOrder (ih above aboveReached shorter) direct

/-- Level by level the visits are in the order of their paths. -/
theorem breadthOrder_pairwise (place : Place childrenOf) :
    place.breadthOrder.Pairwise Visit.Before := by
  have depth {steps : Nat} {visit : Visit α} (member : visit ∈ place.visit.level childrenOf steps) :
      visit.depth = place.visit.depth + steps := by
    obtain ⟨more, extended, rfl⟩ := Visit.path_of_mem_level member
    rw [Visit.depth, extended, List.length_append]
    rfl
  rw [breadthOrder, List.pairwise_flatMap]
  constructor
  · intro steps _
    apply (Visit.level_pairwise steps place.visit).imp_of_mem
    intro first second inLevel alsoInLevel smaller
    exact Or.inr ⟨(depth inLevel).trans (depth alsoInLevel).symm, smaller⟩
  · apply List.pairwise_lt_range.imp
    intro steps more further first inLevel second deeper
    refine Or.inl ?_
    rw [depth inLevel, depth deeper]
    omega

theorem nodup_paths (order : WalkOrder) (place : Place childrenOf) :
    ((place.visits order).map Visit.path).Nodup := by
  have levels : (place.breadthOrder.map Visit.path).Nodup := by
    rw [List.Nodup, List.pairwise_map]
    apply (breadthOrder_pairwise place).imp
    intro first second before same
    rcases before with shorter | ⟨_, smaller⟩
    · rw [Visit.depth, Visit.depth, same] at shorter
      exact Nat.lt_irrefl _ shorter
    · rw [same] at smaller
      exact List.lt_irrefl _ smaller
  have sameVisits := (breadthOrder_perm_preOrder place).trans
    (visits_perm_preOrder order place).symm
  exact (sameVisits.map Visit.path).nodup_iff.mp levels

end Place

end Statechart
