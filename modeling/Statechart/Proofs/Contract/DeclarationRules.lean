import Statechart.Proofs.Contract.Rules

set_option autoImplicit false

namespace Statechart

open StateNode

namespace MachineDefinition

variable {M : Model} (definition : MachineDefinition M) (settings : Settings)

theorem wellFormedDefinition_eq_nil_iff :
    (definition.context settings).wellFormedDefinition = [] ↔
      ¬ Declared definition.states "" ∧ (∀ row ∈ definition.rows, row.origin ≠ "") ∧
      1 ≤ settings.maxCascadeDepth := by
  have names : ((root definition.states).preOrder.filter (fun visit => visit.node.name = "")) = [] ↔
      ¬ Declared definition.states "" := by
    simp only [List.filter_eq_nil_iff, decide_eq_true_eq]
    constructor
    · intro named declared
      obtain ⟨node, inside, unnamed⟩ := declared
      obtain ⟨visit, met, rfl⟩ := (Hierarchy.exists_visit_iff node).mpr (Or.inr inside)
      exact named visit met unnamed
    · intro named visit met unnamed
      rcases (Hierarchy.exists_visit_iff visit.node).mp ⟨visit, met, rfl⟩ with isRoot | inside
      · have same : rootName = "" := (congrArg StateNode.name isRoot).symm.trans unnamed
        exact absurd same (by decide)
      · exact named ⟨visit.node, inside, unnamed⟩
  have origins := forall_rows_iff definition settings (fun shape => shape.origin ≠ "")
  have room : (if settings.maxCascadeDepth = 0 then [Finding.zeroCascadeDepth] else []) = [] ↔
      1 ≤ settings.maxCascadeDepth := by
    by_cases none : settings.maxCascadeDepth = 0
    · simp [none]
    · simp only [if_neg none, true_iff]
      omega
  rw [ContractContext.wellFormedDefinition, List.append_eq_nil_iff, List.append_eq_nil_iff,
    List.map_eq_nil_iff, List.map_eq_nil_iff, and_assoc]
  refine and_congr names (and_congr ?_ room)
  rw [List.filter_eq_nil_iff]
  simp only [decide_eq_true_eq]
  exact origins

theorem atLeastOneState_eq_nil_iff : (definition.context settings).atLeastOneState = [] ↔
    definition.states ≠ [] := by
  have declared : (definition.context settings).names = [] ↔ definition.states = [] := by
    constructor
    · intro none
      cases states : definition.states with
      | nil => rfl
      | cons node rest =>
        have inside : Inside node (root definition.states) :=
          Inside.child (states ▸ List.mem_cons_self)
        have member : node.name ∈ (definition.context settings).names :=
          (Hierarchy.mem_names_iff node.name).mpr ⟨node, inside, rfl⟩
        rw [none] at member
        cases member
    · intro none
      show (Hierarchy.ofStates definition.states).names = []
      rw [none]
      rfl
  rw [ContractContext.atLeastOneState, ← not_iff_not, ne_eq, not_not, ← declared]
  by_cases none : (definition.context settings).names = []
  · simp [none]
  · simp [none]

theorem initialStateDeclared_eq_nil_iff :
    (definition.context settings).initialStateDeclared = [] ↔
      ∀ state, definition.initialState = some state →
      state ≠ rootName ∧ Declared definition.states state := by
  have names : (definition.context settings).names = (Hierarchy.ofStates definition.states).names :=
    rfl
  unfold ContractContext.initialStateDeclared
  rw [names]
  dsimp only [context]
  cases definition.initialState with
  | none => simp
  | some state =>
    simp only [Hierarchy.mem_names_iff, ite_eq_right_iff, List.cons_ne_nil, imp_false,
      not_or, not_not, Option.some.injEq, forall_eq', ne_eq]

theorem mem_declaredEvents_iff (event : String) :
    event ∈ (definition.context settings).declaredEvents ↔
    event ∈ definition.events ∧ event ≠ "" ∧ event ≠ initEvent := by
  rw [ContractContext.declaredEvents, Table.mem_distinct, List.mem_filter, decide_eq_true_iff]
  rfl

theorem mem_usedEvents_iff (event : String) :
    event ∈ (definition.context settings).usedEvents ↔
      (∃ row ∈ definition.rows, row.event = some event) ∧ event ≠ initEvent ∧
      event ≠ eventlessKey := by
  have named : event ∈ (definition.context settings).rows.filterMap (fun row => row.1.event) ↔
      ∃ row ∈ definition.rows, row.event = some event := by
    rw [List.mem_filterMap, ← not_iff_not]
    simp only [not_exists, not_and]
    exact forall_rows_iff definition settings (fun shape => shape.event ≠ some event)
  rw [ContractContext.usedEvents, Table.mem_distinct, List.mem_filter, named, decide_eq_true_iff]

theorem eventsMatchTransitions_eq_nil_iff :
    (definition.context settings).eventsMatchTransitions = [] ↔
      ∀ event, event ≠ "" → event ≠ initEvent →
        (event ∈ definition.events ↔ ∃ row ∈ definition.rows, row.event = some event) := by
  simp only [ContractContext.eventsMatchTransitions, List.append_eq_nil_iff, List.map_eq_nil_iff,
    List.filter_eq_nil_iff, decide_eq_true_eq, Decidable.not_not, mem_declaredEvents_iff,
    mem_usedEvents_iff]
  constructor
  · intro both event named notInit
    exact ⟨fun isDeclared => (both.1 event ⟨isDeclared, named, notInit⟩).1,
      fun isUsed => (both.2 event ⟨isUsed, notInit, named⟩).1⟩
  · intro same
    refine ⟨?_, ?_⟩
    · intro event isDeclared
      exact ⟨(same event isDeclared.2.1 isDeclared.2.2).mp isDeclared.1, isDeclared.2.2,
        isDeclared.2.1⟩
    · intro event isUsed
      exact ⟨(same event isUsed.2.2 isUsed.2.1).mpr isUsed.1, isUsed.2.2, isUsed.2.1⟩

theorem singleInitialTransition_eq_nil_iff :
    (definition.context settings).singleInitialTransition = [] ↔
      definition.explicitStarts = if definition.initialState.isSome then 0 else 1 := by
  unfold ContractContext.singleInitialTransition
  dsimp only [context]
  cases definition.initialState with
  | none =>
    cases definition.explicitStarts with
    | zero => simp
    | succ more =>
      cases more with
      | zero => simp
      | succ more => simp
  | some state =>
    cases definition.explicitStarts with
    | zero => simp
    | succ more => simp

end MachineDefinition

end Statechart
