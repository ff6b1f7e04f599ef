import Statechart.Proofs.Indices.Hierarchy

set_option autoImplicit false

namespace Statechart

open StateNode

namespace Hierarchy

/-- What is recorded around a visited node, given the entries made so far. -/
def around (table : Table (List String)) (visit : Visit StateNode) : List String :=
  match visit.parent with
  | some parent => if 1 < visit.depth then parent.name :: (table.find? parent.name).getD [] else []
  | none => []

theorem addAncestors_deep (tables : Table String × Table (List String)) (visit : Visit StateNode) :
    (addAncestors tables visit).2 = tables.2.insert visit.node.name (around tables.2 visit) := by
  unfold addAncestors around
  cases visit.parent with
  | none => rfl
  | some parent =>
    by_cases nested : 1 < visit.depth <;> simp only [nested, ↓reduceIte]

theorem around_insert {table : Table (List String)} {visit : Visit StateNode} {name : String}
    (value : List String) (other : ∀ parent, visit.parent = some parent → parent.name ≠ name) :
    around (table.insert name value) visit = around table visit := by
  unfold around
  cases above : visit.parent with
  | none => rfl
  | some parent => simp only [Table.find?_insert_of_ne table value (other parent above)]

/-- No visit comes before that of the node around it. -/
def ParentsFirst (visits : List (Visit StateNode)) : Prop :=
  ∀ before visit after, visits = before ++ visit :: after →
    ∀ parent, visit.parent = some parent → ∃ above ∈ before, above.node = parent

theorem preOrder_parentsFirst (node : StateNode) : ParentsFirst node.preOrder := by
  intro before visit after split parent isParent
  have member : visit ∈ node.preOrder := by
    rw [split]
    exact List.mem_append_right before List.mem_cons_self
  have ordered : (before ++ visit :: after).Pairwise
      (fun earlier later => ¬ later.path <+: earlier.path) :=
    split ▸ preOrderAt_pairwise none [] node
  rcases parent_of_mem member with rfl | ⟨above, met, index, _, around, extended⟩
  · cases isParent
  · have same : above.node = parent := Option.some.inj (around.symm.trans isParent)
    have placed : above ∈ before ++ visit :: after := split ▸ met
    rcases List.mem_append.mp placed with early | late
    · exact ⟨above, early, same⟩
    · rcases List.mem_cons.mp late with rfl | behind
      · have lengths := congrArg List.length extended
        simp at lengths
      · have apart := (List.pairwise_cons.mp (List.pairwise_append.mp ordered).2.1).1 above behind
        exact absurd (extended ▸ List.prefix_append above.path [index]) apart

/-- Every visited node gets the entry that the finished index makes of it: it is visited after
the node around it, so that its entry is the parent followed by the entry of the parent. -/
theorem find?_foldl_addAncestors (visits : List (Visit StateNode))
    (distinct : (visits.map (fun visit => visit.node.name)).Nodup) (ordered : ParentsFirst visits) :
    ∀ visit ∈ visits, (visits.foldl addAncestors (.empty, .empty)).2.find? visit.node.name
      = some (around (visits.foldl addAncestors (.empty, .empty)).2 visit) := by
  induction visits using List.reverseRecOn with
  | nil => exact fun visit member => nomatch member
  | append_singleton earlier last ih =>
    rw [List.map_append, List.nodup_append] at distinct
    obtain ⟨distinctEarlier, _, apart⟩ := distinct
    have fresh : ∀ visit ∈ earlier, visit.node.name ≠ last.node.name := fun visit member =>
      apart _ (List.mem_map_of_mem member) _ (by simp)
    -- The node around a visit is among the earlier ones, so the last entry does not touch it.
    have parentEarlier : ∀ visit ∈ earlier ++ [last], ∀ parent, visit.parent = some parent →
        parent.name ≠ last.node.name := by
      intro visit member parent isParent
      have placed : ∃ above ∈ earlier, above.node = parent := by
        rcases List.mem_append.mp member with early | final
        · obtain ⟨before, after, split⟩ := List.append_of_mem early
          obtain ⟨above, inBefore, same⟩ :=
            ordered before visit (after ++ [last]) (by simp [split]) parent isParent
          exact ⟨above, by simp [split, inBefore], same⟩
        · cases List.mem_singleton.mp final
          exact ordered earlier last [] rfl parent isParent
      obtain ⟨above, early, rfl⟩ := placed
      exact fresh above early
    have shorter : ParentsFirst earlier := fun before visit after split =>
      ordered before visit (after ++ [last]) (by simp [split])
    intro visit member
    rw [List.foldl_append, List.foldl_cons, List.foldl_nil, addAncestors_deep,
      around_insert _ (parentEarlier visit member)]
    rcases List.mem_append.mp member with early | final
    · rw [Table.find?_insert_of_ne _ _ (fresh visit early)]
      exact ih distinctEarlier shorter visit early
    · cases List.mem_singleton.mp final
      exact Table.find?_insert_self _ _ _

theorem visited_of_find?_foldl {visits : List (Visit StateNode)} {name : String}
    {entry : List String}
    (found : (visits.foldl addAncestors (.empty, .empty)).2.find? name = some entry) :
    ∃ visit ∈ visits, visit.node.name = name := by
  induction visits using List.reverseRecOn with
  | nil => cases found
  | append_singleton earlier last ih =>
    rw [List.foldl_append, List.foldl_cons, List.foldl_nil, addAncestors_deep] at found
    by_cases same : name = last.node.name
    · exact ⟨last, by simp, same.symm⟩
    · rw [Table.find?_insert_of_ne _ _ same] at found
      obtain ⟨visit, member, named⟩ := ih found
      exact ⟨visit, List.mem_append_left _ member, named⟩

/-- A node that has no entry yet gets the innermost state of its entry as the state kept apart. -/
theorem find?_addAncestors_shallow {tables : Table String × Table (List String)}
    {visit : Visit StateNode} {name : String}
    (before : tables.1.find? name = ((tables.2.find? name).getD []).head?)
    (fresh : name = visit.node.name → tables.2.find? name = none) :
    (addAncestors tables visit).1.find? name =
      (((addAncestors tables visit).2.find? name).getD []).head? := by
  unfold addAncestors
  by_cases same : name = visit.node.name
  · rw [fresh same] at before
    subst same
    split
    · split
      · simp only [Table.find?_insert_self, Option.getD_some, List.head?_cons]
      · simp only [before, Table.find?_insert_self, Option.getD_none, Option.getD_some]
    · simp only [before, Table.find?_insert_self, Option.getD_none, Option.getD_some]
  · split
    · split <;> simp only [Table.find?_insert_of_ne _ _ same, before]
    · simp only [Table.find?_insert_of_ne _ _ same, before]

/-- Of the states around a visited node the innermost one is kept apart. -/
theorem find?_foldl_addAncestors_shallow (visits : List (Visit StateNode))
    (distinct : (visits.map (fun visit => visit.node.name)).Nodup) (name : String) :
    (visits.foldl addAncestors (.empty, .empty)).1.find? name
      = (((visits.foldl addAncestors (.empty, .empty)).2.find? name).getD []).head? := by
  induction visits using List.reverseRecOn with
  | nil => rfl
  | append_singleton earlier last ih =>
    rw [List.map_append, List.nodup_append] at distinct
    obtain ⟨distinctEarlier, _, apart⟩ := distinct
    rw [List.foldl_append, List.foldl_cons, List.foldl_nil]
    apply find?_addAncestors_shallow (ih distinctEarlier)
    intro same
    apply Option.eq_none_iff_forall_not_mem.mpr
    intro entry found
    obtain ⟨visit, member, named⟩ := visited_of_find?_foldl found
    exact apart _ (List.mem_map_of_mem member) _ (List.mem_singleton_self _) (named.trans same)

variable {states : List StateNode}

theorem deepAncestors_of_visit (distinct : DistinctNames states) {visit : Visit StateNode}
    (met : visit ∈ (root states).preOrder) :
    (ofStates states).deepAncestors.find? visit.node.name =
      some (around (ofStates states).deepAncestors visit) :=
  find?_foldl_addAncestors _ distinct (preOrder_parentsFirst _) visit met

section

variable (distinct : DistinctNames states)

include distinct

theorem find?_shallowAncestors (state : String) :
    (ofStates states).shallowAncestors.find? state =
      ((ofStates states).historyAncestors state).head? :=
  find?_foldl_addAncestors_shallow _ distinct state

theorem historyAncestors_top {node : StateNode} (top : node ∈ states) :
    (ofStates states).historyAncestors node.name = [] := by
  obtain ⟨index, found⟩ := List.mem_iff_getElem?.mp top
  have met : ⟨node, some (root states), [index]⟩ ∈ (root states).preOrder :=
    child_mem (self_mem_preOrderAt none [] (root states)) found
  rw [historyAncestors, deepAncestors_of_visit distinct met]
  rfl

theorem historyAncestors_child {outer inner : StateNode} (inside : Inside outer (root states))
    (direct : inner ∈ outer.children) :
    (ofStates states).historyAncestors inner.name =
      outer.name :: (ofStates states).historyAncestors outer.name := by
  obtain ⟨visit, met, below, rfl⟩ := (inside_root_iff outer).mp inside
  obtain ⟨index, found⟩ := List.mem_iff_getElem?.mp direct
  rw [historyAncestors, deepAncestors_of_visit distinct (child_mem met found)]
  have deep : 1 < (visit.path ++ [index]).length := by
    rcases parent_of_mem met with rfl | ⟨_, _, _, _, _, extended⟩
    · cases below
    · rw [extended]
      simp
  show (if 1 < (visit.path ++ [index]).length then _ else _) = _
  rw [if_pos deep]
  rfl

theorem historyAncestors_root : (ofStates states).historyAncestors rootName = [] := by
  have met := self_mem_preOrderAt none [] (root states)
  have entry := deepAncestors_of_visit distinct met
  rw [historyAncestors, show rootName = (root states).name from rfl, entry]
  rfl

theorem inside_iff_of_child {above middle node : StateNode}
    (aboveInside : Inside above (root states))
    (middleKnown : middle = root states ∨ Inside middle (root states))
    (direct : node ∈ middle.children) :
    Inside node above ↔ above = middle ∨ Inside middle above := by
  constructor
  · intro inside
    cases inside with
    | child directly =>
      exact Or.inl (parent_unique distinct (Or.inr aboveInside) middleKnown directly direct)
    | @deeper _ other _ directly further =>
      have same := parent_unique distinct (Or.inr (further.trans aboveInside)) middleKnown
        directly direct
      exact Or.inr (same ▸ further)
  · rintro (rfl | further)
    · exact Inside.child direct
    · exact Inside.deeper direct further

theorem not_inside_of_top {above node : StateNode} (aboveInside : Inside above (root states))
    (top : node ∈ states) : ¬ Inside node above := by
  intro inside
  rcases (inside_iff_of_child distinct aboveInside (Or.inl rfl) top).mp inside with rfl | further
  · exact Nat.lt_irrefl _ aboveInside.sizeOf_lt
  · exact Nat.lt_asymm further.sizeOf_lt aboveInside.sizeOf_lt

theorem mem_historyAncestors_of_inside {node : StateNode} (inside : Inside node (root states))
    (outer : String) : outer ∈ (ofStates states).historyAncestors node.name ↔
      ∃ above, Inside above (root states) ∧ Inside node above ∧ above.name = outer := by
  generalize top : root states = whole at inside
  induction inside with
  | child direct =>
    subst top
    rw [historyAncestors_top distinct direct]
    constructor
    · exact fun member => nomatch member
    · rintro ⟨above, aboveInside, nested, _⟩
      exact absurd nested (not_inside_of_top distinct aboveInside direct)
  | @deeper node middle _ direct middleInside ih =>
    subst top
    rw [historyAncestors_child distinct middleInside direct, List.mem_cons, ih rfl]
    constructor
    · rintro (rfl | ⟨above, aboveInside, nested, named⟩)
      · exact ⟨middle, middleInside, Inside.child direct, rfl⟩
      · exact ⟨above, aboveInside, Inside.deeper direct nested, named⟩
    · rintro ⟨above, aboveInside, nested, named⟩
      rcases (inside_iff_of_child distinct aboveInside (Or.inr middleInside) direct).mp nested
        with rfl | further
      · exact Or.inl named.symm
      · exact Or.inr ⟨above, aboveInside, further, named⟩

theorem mem_historyAncestors_iff (outer inner : String) :
    outer ∈ (ofStates states).historyAncestors inner ↔ Encloses states outer inner := by
  constructor
  · intro member
    have visited : ∃ visit ∈ (root states).preOrder, visit.node.name = inner := by
      cases entry : (ofStates states).deepAncestors.find? inner with
      | none =>
        rw [historyAncestors, entry] at member
        cases member
      | some names => exact visited_of_find?_foldl entry
    obtain ⟨visit, met, rfl⟩ := visited
    rcases (exists_visit_iff visit.node).mp ⟨visit, met, rfl⟩ with top | inside
    · rw [top, show (root states).name = rootName from rfl, historyAncestors_root distinct]
        at member
      cases member
    · obtain ⟨above, aboveInside, nested, named⟩ :=
        (mem_historyAncestors_of_inside distinct inside outer).mp member
      exact ⟨above, visit.node, aboveInside, nested, named, rfl⟩
  · rintro ⟨above, below, aboveInside, nested, named, rfl⟩
    exact (mem_historyAncestors_of_inside distinct (nested.trans aboveInside) outer).mpr
      ⟨above, aboveInside, nested, named⟩

end

end Hierarchy

end Statechart
