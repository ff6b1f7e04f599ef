import Statechart.Proofs.History.Exit

set_option autoImplicit false

namespace Statechart

namespace HistoryStore

theorem ext_lastVisited {first second : HistoryStore}
    (same : ∀ mode name, first.lastVisited mode name = second.lastVisited mode name) :
    first = second := by
  obtain ⟨shallow, deep⟩ := first
  have children : shallow = second.shallow := Table.ext_find? (same .shallow)
  have innermost : deep = second.deep := Table.ext_find? (same .deep)
  rw [children, innermost]

/-- One store is another with an exit recorded in it: of the names passed on the way out it
tells of this exit alone, and of all other names what was told before. -/
structure RecordsExit (before : HistoryStore) (state : String) (ancestors : List String)
    (after : HistoryStore) : Prop where
  /-- The innermost state is the one that was left. -/
  deep : ∀ ancestor ∈ ancestors, after.lastVisited .deep ancestor = some state
  /-- The child is the name just before the ancestor where the ancestor was passed for the last
  time. -/
  shallow : ∀ ancestor ∈ ancestors, ∃ child,
    after.lastVisited .shallow ancestor = some child ∧
    PrecedesLast (state :: ancestors) ancestor child
  elsewhere : ∀ name, name ∉ ancestors →
    ∀ mode, after.lastVisited mode name = before.lastVisited mode name

theorem recordsExit_recordExit (store : HistoryStore) (state : String) (ancestors : List String) :
    store.RecordsExit state ancestors (store.recordExit state ancestors) where
  deep ancestor member := by rw [lastVisited_deep_recordExit, if_pos member]
  shallow ancestor member := by
    cases passed : beforeLast ancestor state ancestors with
    | none => exact absurd member (beforeLast_eq_none_iff.mp passed)
    | some child =>
      refine ⟨child, ?_, beforeLast_eq_some_iff.mp passed⟩
      rw [lastVisited_shallow_recordExit, passed, Option.some_or]
  elsewhere name absent mode := by
    cases mode with
    | deep => rw [lastVisited_deep_recordExit, if_neg absent]
    | shallow =>
      rw [lastVisited_shallow_recordExit, beforeLast_eq_none_iff.mpr absent, Option.none_or]

section

variable {store after : HistoryStore} {state other : String} {ancestors around : List String}

/-- What is told of the names passed on the way out does not depend on the store that the exit
is recorded in. -/
theorem RecordsExit.lastVisited_eq {another afterwards : HistoryStore}
    (recorded : store.RecordsExit state ancestors after)
    (again : another.RecordsExit state ancestors afterwards) {name : String}
    (member : name ∈ ancestors)
    (mode : HistoryMode) : after.lastVisited mode name = afterwards.lastVisited mode name := by
  cases mode with
  | deep => rw [recorded.deep name member, again.deep name member]
  | shallow =>
    obtain ⟨child, found, precedes⟩ := recorded.shallow name member
    obtain ⟨same, foundAgain, precedesAgain⟩ := again.shallow name member
    rw [found, foundAgain, ← beforeLast_eq_some_iff.mpr precedes,
      ← beforeLast_eq_some_iff.mpr precedesAgain]

/-- The effect of an exit determines the store after it. -/
theorem recordsExit_iff : store.RecordsExit state ancestors after ↔
    after = store.recordExit state ancestors := by
  have exit := recordsExit_recordExit store state ancestors
  constructor
  · intro recorded
    apply ext_lastVisited
    intro mode name
    by_cases member : name ∈ ancestors
    · exact recorded.lastVisited_eq exit member mode
    · rw [recorded.elsewhere name member, exit.elsewhere name member]
  · rintro rfl
    exact exit

/-- Nothing remains of an exit once all names that it passed are passed again. -/
theorem recordExit_recordExit_of_subset (included : around ⊆ ancestors) :
    (store.recordExit other around).recordExit state ancestors =
      store.recordExit state ancestors := by
  have earlier := recordsExit_recordExit store other around
  have later := recordsExit_recordExit (store.recordExit other around) state ancestors
  -- Where the later exit tells what was told before it, the earlier one did so too.
  apply recordsExit_iff.mp
  refine ⟨later.deep, later.shallow, ?_⟩
  intro name absent mode
  have untouched : name ∉ around := fun member => absent (included member)
  rw [later.elsewhere name absent, earlier.elsewhere name untouched]

/-- Exits that pass no name in common may be recorded in either order. -/
theorem recordExit_comm_of_disjoint (apart : ancestors.Disjoint around) :
    (store.recordExit state ancestors).recordExit other around
      = (store.recordExit other around).recordExit state ancestors := by
  have first (before : HistoryStore) := recordsExit_recordExit before state ancestors
  have second (before : HistoryStore) := recordsExit_recordExit before other around
  apply ext_lastVisited
  intro mode name
  by_cases inFirst : name ∈ ancestors
  · rw [(second _).elsewhere name (apart inFirst)]
    exact (first _).lastVisited_eq (first _) inFirst mode
  · rw [(first _).elsewhere name inFirst]
    by_cases inSecond : name ∈ around
    · exact (second _).lastVisited_eq (second _) inSecond mode
    · rw [(second _).elsewhere name inSecond, (first _).elsewhere name inFirst,
        (second _).elsewhere name inSecond]

end

/-- An exit has its effect and no other, in whatever store it is recorded. Recording it again
adds nothing, nothing is left of an earlier exit that passed no further names, and an exit that
passed other names only may come before or after it. -/
theorem recordExit_exact (store : HistoryStore) (state : String) (ancestors : List String) :
    (∀ after, store.RecordsExit state ancestors after ↔ after = store.recordExit state ancestors) ∧
      (store.recordExit state ancestors).recordExit state ancestors =
        store.recordExit state ancestors ∧
      (∀ other around, around ⊆ ancestors →
        (store.recordExit other around).recordExit state ancestors =
          store.recordExit state ancestors) ∧
      ∀ other around, ancestors.Disjoint around →
        (store.recordExit state ancestors).recordExit other around
          = (store.recordExit other around).recordExit state ancestors := by
  refine ⟨fun _ => recordsExit_iff, ?_, ?_, ?_⟩
  · exact recordExit_recordExit_of_subset (List.Subset.refl ancestors)
  · intro other around included
    exact recordExit_recordExit_of_subset included
  · intro other around apart
    exact recordExit_comm_of_disjoint apart

def once : HistoryStore :=
  empty.recordExit "Y" ["D", "B"]

/-- A way out that passes a state twice, and the state that was left as well. -/
def winding : List String :=
  ["D", "C", "D", "X"]

theorem winding_recorded :
    once.RecordsExit "X" winding
        ⟨.ofList [("B", "D"), ("C", "D"), ("D", "C"), ("X", "D")],
          .ofList [("B", "Y"), ("C", "X"), ("D", "X"), ("X", "X")]⟩ ∧
      ["X", "C"] ⊆ winding ∧
      (once.recordExit "Z" ["X", "C"]).recordExit "X" winding = once.recordExit "X" winding ∧
      winding.Disjoint ["B"] ∧
      (once.recordExit "X" winding).recordExit "W" ["B"] =
        (once.recordExit "W" ["B"]).recordExit "X" winding := by
  obtain ⟨effect, _, erases, commutes⟩ := recordExit_exact once "X" winding
  have included : ["X", "C"] ⊆ winding := by decide
  have apart : winding.Disjoint ["B"] := by simp [winding]
  exact ⟨(effect _).mpr (by decide +kernel), included, erases "Z" _ included, apart,
    commutes "W" _ apart⟩

end HistoryStore

end Statechart
