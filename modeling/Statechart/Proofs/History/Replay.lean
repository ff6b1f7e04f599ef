import Mathlib.Data.List.Induction
import Statechart.Machine.Run
import Statechart.Proofs.History.Exit

set_option autoImplicit false

namespace Statechart

open StateNode

section

variable {α : Type} {holds : α → Prop} {items : List α} {item : α}

theorem isLast_concat_iff (last : α) :
    IsLast holds (items ++ [last]) item ↔ (holds last ∧ item = last) ∨
    (¬ holds last ∧ IsLast holds items item) := by
  constructor
  · intro isLast
    obtain ⟨earlier, later, split, here, notLater⟩ := isLast
    cases later using List.reverseRecOn with
    | nil =>
      obtain ⟨_, same⟩ := List.append_inj' split rfl
      cases same
      exact Or.inl ⟨here, rfl⟩
    | append_singleton between final =>
      rw [← List.cons_append, ← List.append_assoc] at split
      obtain ⟨before, same⟩ := List.append_inj' split rfl
      cases same
      refine Or.inr ⟨notLater last (List.mem_append_right _ List.mem_cons_self), earlier, between,
        before, here, ?_⟩
      intro other member
      exact notLater other (List.mem_append_left _ member)
  · intro either
    rcases either with ⟨here, rfl⟩ | ⟨notLast, earlier, later, rfl, here, notLater⟩
    · exact ⟨items, [], rfl, here, fun _ member => nomatch member⟩
    · refine ⟨earlier, later ++ [last], by rw [List.append_assoc, List.cons_append], here, ?_⟩
      intro other member
      rcases List.mem_append.mp member with between | final
      · exact notLater other between
      · rw [List.mem_singleton.mp final]
        exact notLast

theorem exists_isLast_iff : (∃ item, IsLast holds items item) ↔ ∃ item ∈ items, holds item := by
  induction items using List.reverseRecOn with
  | nil => simp [IsLast]
  | append_singleton earlier last ih =>
    simp only [isLast_concat_iff]
    by_cases here : holds last
    · exact ⟨fun _ => ⟨last, List.mem_append_right _ List.mem_cons_self, here⟩, fun _ =>
        ⟨last, Or.inl ⟨here, rfl⟩⟩⟩
    · simp only [here, false_and, false_or, not_false_eq_true, true_and, ih, List.mem_append,
        List.mem_singleton]
      constructor
      · intro before
        obtain ⟨item, member, holdsItem⟩ := before
        exact ⟨item, Or.inl member, holdsItem⟩
      · intro either
        obtain ⟨item, member | rfl, holdsItem⟩ := either
        · exact ⟨item, member, holdsItem⟩
        · exact absurd holdsItem here

theorem IsLast.unique {other : α} (first : IsLast holds items item)
    (second : IsLast holds items other) : item = other := by
  induction items using List.reverseRecOn with
  | nil =>
    obtain ⟨earlier, later, split, _⟩ := first
    exact absurd split.symm (List.append_ne_nil_of_right_ne_nil earlier (List.cons_ne_nil _ _))
  | append_singleton earlier last ih =>
    rcases (isLast_concat_iff last).mp first with ⟨here, rfl⟩ | ⟨notHere, before⟩
    · rcases (isLast_concat_iff item).mp second with ⟨_, rfl⟩ | ⟨notHere, _⟩
      · rfl
      · exact absurd here notHere
    · rcases (isLast_concat_iff last).mp second with ⟨here, _⟩ | ⟨_, otherBefore⟩
      · exact absurd here notHere
      · exact ih before otherBefore

end

namespace HistoryStore

/-- The store after states were left in this order. -/
def replay (hierarchy : Hierarchy) (left : List String) : HistoryStore :=
  left.foldl (fun store origin => store.recordExit origin (hierarchy.historyAncestors origin))
    .empty

theorem replay_concat (hierarchy : Hierarchy) (earlier : List String) (origin : String) :
    replay hierarchy (earlier ++ [origin])
      = (replay hierarchy earlier).recordExit origin (hierarchy.historyAncestors origin) := by
  rw [replay, List.foldl_append]
  rfl

/-- What a store tells once states of a hierarchy were left in this order. -/
structure Follows (store : HistoryStore) (states : List StateNode) (left : List String) : Prop where
  /-- The innermost state of a compound state is the last one left inside it. -/
  deep : ∀ outer, DeclaredCompound states outer → ∀ inner,
    store.lastVisited .deep outer = some inner ↔ IsLast (Encloses states outer) left inner
  /-- The child of a compound state is the one that is the last state left inside it, or holds
  that. -/
  shallow : ∀ outer, DeclaredCompound states outer → ∀ child,
    store.lastVisited .shallow outer = some child ↔
      ∃ inner, IsLast (Encloses states outer) left inner ∧ IsParent states outer child ∧
        (child = inner ∨ Encloses states child inner)
  /-- Nothing is known of a compound state exactly if no state inside it was left. -/
  absent : ∀ outer, DeclaredCompound states outer → ∀ mode,
    store.lastVisited mode outer = none ↔ ∀ inner ∈ left, ¬ Encloses states outer inner
  /-- Nothing is recorded but of declared compound states. -/
  keys : ∀ mode, ∀ key ∈ (store.ofMode mode).keys, DeclaredCompound states key
  /-- A child is known where an innermost state is. -/
  together : ∀ state, (store.lastVisited .shallow state).isSome =
    (store.lastVisited .deep state).isSome
  /-- The innermost state is the child or lies inside it. -/
  below : ∀ state child inner, store.lastVisited .shallow state = some child →
    store.lastVisited .deep state = some inner → inner = child ∨ Encloses states child inner

variable {states : List StateNode} (distinct : DistinctNames states)

theorem exists_child_of_encloses {outer inner : String} (encloses : Encloses states outer inner) :
    ∃ child, IsParent states outer child ∧ (child = inner ∨ Encloses states child inner) := by
  obtain ⟨above, below, aboveInside, nested, rfl, rfl⟩ := encloses
  obtain ⟨node, direct, holds⟩ := nested.exists_child
  refine ⟨node.name, ⟨above, node, aboveInside, direct, rfl, rfl⟩, ?_⟩
  rcases holds with rfl | deeper
  · exact Or.inl rfl
  · exact Or.inr ⟨node, below, (Inside.child direct).trans aboveInside, deeper, rfl, rfl⟩

include distinct

theorem lastVisited_deep_replay (left : List String) (outer inner : String) :
    (replay (.ofStates states) left).lastVisited .deep outer = some inner ↔
      IsLast (Encloses states outer) left inner := by
  induction left using List.reverseRecOn with
  | nil => simp [replay, lastVisited, ofMode, empty, Table.find?_empty, IsLast]
  | append_singleton earlier origin ih =>
    rw [replay_concat, lastVisited_deep_recordExit, isLast_concat_iff]
    have around := Hierarchy.mem_historyAncestors_iff distinct outer origin
    by_cases encloses : Encloses states outer origin
    · rw [if_pos (around.mpr encloses)]
      simp [encloses, eq_comm]
    · rw [if_neg (fun member => encloses (around.mp member)), ih]
      simp [encloses]

theorem lastVisited_shallow_replay (left : List String) (outer child : String) :
    (replay (.ofStates states) left).lastVisited .shallow outer = some child ↔
      ∃ inner, IsLast (Encloses states outer) left inner ∧ IsParent states outer child ∧
        (child = inner ∨ Encloses states child inner) := by
  induction left using List.reverseRecOn with
  | nil => simp [replay, lastVisited, ofMode, empty, Table.find?_empty, IsLast]
  | append_singleton earlier origin ih =>
    rw [replay_concat, lastVisited_shallow_recordExit]
    simp only [isLast_concat_iff]
    have passed := Hierarchy.beforeLast_historyAncestors_iff distinct outer origin
    by_cases encloses : Encloses states outer origin
    · obtain ⟨direct, isDirect⟩ := exists_child_of_encloses encloses
      rw [(passed direct).mpr isDirect, Option.some_or, ← (passed direct).mpr isDirect,
        passed child]
      simp [encloses]
    · have absent : outer ∉ (Hierarchy.ofStates states).historyAncestors origin :=
        fun member =>
          encloses ((Hierarchy.mem_historyAncestors_iff distinct outer origin).mp member)
      rw [beforeLast_eq_none_iff.mpr absent, Option.none_or, ih]
      simp [encloses]

theorem lastVisited_replay_eq_none (left : List String) (mode : HistoryMode) (outer : String) :
    (replay (.ofStates states) left).lastVisited mode outer = none ↔
    ∀ inner ∈ left, ¬ Encloses states outer inner := by
  have some_iff : (∃ value, (replay (.ofStates states) left).lastVisited mode outer = some value) ↔
      ∃ inner ∈ left, Encloses states outer inner := by
    rw [← exists_isLast_iff]
    cases mode with
    | deep => simp only [lastVisited_deep_replay distinct]
    | shallow =>
      simp only [lastVisited_shallow_replay distinct]
      constructor
      · intro found
        obtain ⟨_, inner, isLast, _⟩ := found
        exact ⟨inner, isLast⟩
      · intro found
        obtain ⟨inner, isLast⟩ := found
        obtain ⟨_, _, _, holds, _⟩ := id isLast
        obtain ⟨child, isDirect⟩ := exists_child_of_encloses holds
        exact ⟨child, inner, isLast, isDirect⟩
  rw [← Option.not_isSome_iff_eq_none, Option.isSome_iff_exists, some_iff]
  simp

/-- The store that is left is the one that follows the exits. -/
theorem follows_replay (left : List String) :
    (replay (.ofStates states) left).Follows states left where
  deep outer _ inner := lastVisited_deep_replay distinct left outer inner
  shallow outer _ child := lastVisited_shallow_replay distinct left outer child
  absent outer _ mode := lastVisited_replay_eq_none distinct left mode outer
  keys mode key member := by
    obtain ⟨value, found⟩ := (Table.mem_keys_iff _ key).mp member
    have known : ¬ (replay (.ofStates states) left).lastVisited mode key = none := by
      intro none_found
      rw [lastVisited, found] at none_found
      cases none_found
    rw [lastVisited_replay_eq_none distinct] at known
    apply Classical.byContradiction
    intro notCompound
    apply known
    intro inner _ encloses
    exact notCompound (compound_of_encloses encloses)
  together state := by
    have shallow := lastVisited_replay_eq_none distinct left .shallow state
    rw [← lastVisited_replay_eq_none distinct left .deep state] at shallow
    rw [Bool.eq_iff_iff, ← not_iff_not, Bool.not_eq_true, Bool.not_eq_true,
      Option.isSome_eq_false_iff, Option.isSome_eq_false_iff, Option.isNone_iff_eq_none,
      Option.isNone_iff_eq_none]
    exact shallow
  below state child inner shallow deep := by
    obtain ⟨other, isLast, _, holds⟩ :=
      (lastVisited_shallow_replay distinct left state child).mp shallow
    have same := isLast.unique ((lastVisited_deep_replay distinct left state inner).mp deep)
    subst same
    rcases holds with rfl | encloses
    · exact Or.inl rfl
    · exact Or.inr encloses

end HistoryStore

end Statechart
