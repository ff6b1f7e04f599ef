import Statechart.History.Store
import Statechart.Proofs.Indices.Ancestors

set_option autoImplicit false

namespace Statechart

open StateNode

/-- An item stands just before the last occurrence of another in a list. -/
def PrecedesLast {α : Type} (items : List α) (wanted item : α) : Prop :=
  ∃ earlier later, items = earlier ++ item :: wanted :: later ∧ wanted ∉ later

section

variable {α : Type} {first next wanted item : α} {rest : List α}

theorem PrecedesLast.mem_of_cons (precedes : PrecedesLast (first :: rest) wanted item) :
    wanted ∈ rest := by
  obtain ⟨earlier, later, split, _⟩ := precedes
  cases earlier with
  | nil =>
    cases split
    exact List.mem_cons_self
  | cons head between =>
    cases split
    exact List.mem_append_right between (List.mem_cons_of_mem item List.mem_cons_self)

theorem precedesLast_cons_cons_iff :
    PrecedesLast (first :: next :: rest) wanted item ↔
      PrecedesLast (next :: rest) wanted item ∨ (wanted ∉ rest ∧ wanted = next ∧ first = item) := by
  constructor
  · intro precedes
    obtain ⟨earlier, later, split, notLater⟩ := precedes
    cases earlier with
    | nil =>
      cases split
      exact Or.inr ⟨notLater, rfl, rfl⟩
    | cons head between =>
      obtain ⟨_, tails⟩ := List.cons.inj split
      exact Or.inl ⟨between, later, tails, notLater⟩
  · intro either
    rcases either with further | ⟨notLater, rfl, rfl⟩
    · obtain ⟨earlier, later, split, notLater⟩ := further
      exact ⟨first :: earlier, later, by rw [split, List.cons_append], notLater⟩
    · exact ⟨[], rest, rfl, notLater⟩

end

namespace HistoryStore

/-- The item just before the last occurrence of a wanted one in a list that follows a first item. -/
def beforeLast (wanted first : String) : List String → Option String
  | [] => none
  | next :: rest => (beforeLast wanted next rest).or (if wanted = next then some first else none)

section

variable {wanted first item : String} {items : List String}

theorem beforeLast_eq_none_iff : beforeLast wanted first items = none ↔ wanted ∉ items := by
  induction items generalizing first with
  | nil => simp [beforeLast]
  | cons next rest ih =>
    rw [beforeLast, Option.or_eq_none_iff, ih, List.mem_cons, not_or]
    by_cases here : wanted = next
    · simp [here]
    · simp [here]

theorem beforeLast_eq_some_iff :
    beforeLast wanted first items = some item ↔ PrecedesLast (first :: items) wanted item := by
  induction items generalizing first with
  | nil => exact iff_of_false nofun (fun precedes => nomatch precedes.mem_of_cons)
  | cons next rest ih =>
    rw [beforeLast, Option.or_eq_some_iff, ih, beforeLast_eq_none_iff, precedesLast_cons_cons_iff]
    simp

theorem mem_of_beforeLast (found : beforeLast wanted first items = some item) :
    wanted ∈ items ∧ item ∈ first :: items := by
  have precedes := beforeLast_eq_some_iff.mp found
  refine ⟨precedes.mem_of_cons, ?_⟩
  obtain ⟨earlier, later, split, _⟩ := precedes
  rw [split]
  exact List.mem_append_right earlier List.mem_cons_self

end

theorem find?_deep_recordFrom (state : String) (store : HistoryStore) (child wanted : String)
    (ancestors : List String) : (store.recordFrom state child ancestors).deep.find? wanted
      = if wanted ∈ ancestors then some state else store.deep.find? wanted := by
  induction ancestors generalizing store child with
  | nil => rfl
  | cons ancestor above ih =>
    rw [recordFrom, ih, Table.find?_insert]
    by_cases here : wanted = ancestor
    · simp [here]
    · simp [here]

theorem find?_shallow_recordFrom (state : String) (store : HistoryStore) (child wanted : String)
    (ancestors : List String) :
    (store.recordFrom state child ancestors).shallow.find? wanted
      = (beforeLast wanted child ancestors).or (store.shallow.find? wanted) := by
  induction ancestors generalizing store child with
  | nil => rfl
  | cons ancestor above ih =>
    rw [recordFrom, ih, Table.find?_insert, beforeLast, Option.or_assoc]
    by_cases here : wanted = ancestor
    · simp [here]
    · simp [here]

theorem lastVisited_deep_recordExit (store : HistoryStore) (state wanted : String)
    (ancestors : List String) : (store.recordExit state ancestors).lastVisited .deep wanted
      = if wanted ∈ ancestors then some state else store.lastVisited .deep wanted :=
  find?_deep_recordFrom state store state wanted ancestors

theorem lastVisited_shallow_recordExit (store : HistoryStore) (state wanted : String)
    (ancestors : List String) : (store.recordExit state ancestors).lastVisited .shallow wanted
      = (beforeLast wanted state ancestors).or (store.lastVisited .shallow wanted) :=
  find?_shallow_recordFrom state store state wanted ancestors

/-- The states a store gives for a mode are all among some states. -/
def Holds (store : HistoryStore) (allowed : String → Prop) : Prop :=
  ∀ mode state value, store.lastVisited mode state = some value → allowed value

theorem holds_empty (allowed : String → Prop) : empty.Holds allowed := by
  intro mode state value found
  cases mode <;> cases found

/-- An exit records the state that was left and states around it only. -/
theorem holds_recordExit {store : HistoryStore} {allowed : String → Prop}
    (before : store.Holds allowed) {state : String} {ancestors : List String}
    (recorded : ancestors ≠ [] → allowed state)
    (around : ∀ ancestor ∈ ancestors, allowed ancestor) :
    (store.recordExit state ancestors).Holds allowed := by
  intro mode wanted value found
  cases mode with
  | deep =>
    rw [lastVisited_deep_recordExit] at found
    by_cases member : wanted ∈ ancestors
    · rw [if_pos member] at found
      cases found
      exact recorded (List.ne_nil_of_mem member)
    · rw [if_neg member] at found
      exact before .deep wanted value found
  | shallow =>
    rw [lastVisited_shallow_recordExit] at found
    cases passed : beforeLast wanted state ancestors with
    | none =>
      rw [passed, Option.none_or] at found
      exact before .shallow wanted value found
    | some child =>
      rw [passed, Option.some_or] at found
      cases found
      obtain ⟨member, onTheWay⟩ := mem_of_beforeLast passed
      rcases List.mem_cons.mp onTheWay with rfl | higher
      · exact recorded (List.ne_nil_of_mem member)
      · exact around value higher

end HistoryStore

namespace Hierarchy

open HistoryStore

variable {states : List StateNode} (distinct : DistinctNames states)

include distinct

theorem beforeLast_of_inside {node : StateNode} (inside : Inside node (root states))
    {above child : StateNode} (aboveInside : Inside above (root states))
    (direct : child ∈ above.children)
    (holds : child = node ∨ Inside node child) :
    beforeLast above.name node.name ((ofStates states).historyAncestors node.name) =
      some child.name := by
  have nested : Inside node above := by
    rcases holds with rfl | deeper
    · exact Inside.child direct
    · exact deeper.trans (Inside.child direct)
  generalize top : root states = whole at inside
  induction inside with
  | child atTop =>
    subst top
    exact absurd nested (not_inside_of_top distinct aboveInside atTop)
  | @deeper node middle _ directly middleInside ih =>
    subst top
    rw [historyAncestors_child distinct middleInside directly, beforeLast]
    have childInside : Inside child (root states) := (Inside.child direct).trans aboveInside
    rcases holds with rfl | deeper
    · -- The child is the node itself, so the state above is the parent, which occurs no further up.
      have same := parent_unique distinct (Or.inr aboveInside) (Or.inr middleInside) direct directly
      subst same
      rw [beforeLast_eq_none_iff.mpr, Option.none_or, if_pos rfl]
      intro again
      obtain ⟨other, otherInside, around, named⟩ :=
        (mem_historyAncestors_of_inside distinct middleInside above.name).mp again
      have equal := node_unique distinct otherInside aboveInside named
      exact Nat.lt_irrefl _ (equal ▸ around.sizeOf_lt)
    · have further := (inside_iff_of_child distinct childInside (Or.inr middleInside) directly).mp
        deeper
      have onward : child = middle ∨ Inside middle child := further
      have deep : Inside middle above := by
        rcases onward with rfl | below
        · exact Inside.child direct
        · exact below.trans (Inside.child direct)
      rw [ih onward deep rfl, Option.some_or]

/-- On the way out of a state, a state around it is reached from its direct child that is or
holds the state. -/
theorem beforeLast_historyAncestors_iff (outer origin child : String) :
    beforeLast outer origin ((ofStates states).historyAncestors origin) = some child ↔
      IsParent states outer child ∧ (child = origin ∨ Encloses states child origin) := by
  constructor
  · intro found
    obtain ⟨above, below, aboveInside, nested, rfl, rfl⟩ :=
      (mem_historyAncestors_iff distinct outer origin).mp (mem_of_beforeLast found).1
    obtain ⟨node, direct, holds⟩ := nested.exists_child
    rw [beforeLast_of_inside distinct (nested.trans aboveInside) aboveInside direct holds] at found
    cases found
    refine ⟨⟨above, node, aboveInside, direct, rfl, rfl⟩, ?_⟩
    rcases holds with rfl | deeper
    · exact Or.inl rfl
    · exact Or.inr ⟨node, below, (Inside.child direct).trans aboveInside, deeper, rfl, rfl⟩
  · rintro ⟨⟨above, node, aboveInside, direct, rfl, rfl⟩, holds⟩
    have nodeInside : Inside node (root states) := (Inside.child direct).trans aboveInside
    rcases holds with rfl | ⟨other, below, otherInside, nested, named, rfl⟩
    · exact beforeLast_of_inside distinct nodeInside aboveInside direct (Or.inl rfl)
    · have same := node_unique distinct otherInside nodeInside named
      subst same
      exact beforeLast_of_inside distinct (nested.trans otherInside) aboveInside direct
        (Or.inr nested)

end Hierarchy

end Statechart
