import Statechart.Machine.WellFormed
import Statechart.Proofs.Contract.Accepted
import Statechart.Proofs.Contract.DeclarationRules
import Statechart.Proofs.Contract.HandlerRules
import Statechart.Proofs.Indices.Places

set_option autoImplicit false

namespace Statechart

open StateNode

variable {M : Model}

namespace Transition

theorem eventKey_eq_iff {row : Transition M} {event : String} (named : event ≠ eventlessKey) :
    row.eventKey = event ↔ row.event = some event := by
  unfold eventKey
  cases row.event with
  | none => exact iff_of_false (fun same => named same.symm) (fun same => nomatch same)
  | some name => exact (Option.some_inj).symm

theorem eventKey_eq_eventlessKey_iff {row : Transition M} (named : row.event ≠ some eventlessKey) :
    row.eventKey = eventlessKey ↔ row.event = none := by
  unfold eventKey
  cases event : row.event with
  | none => exact iff_of_true rfl rfl
  | some name =>
    exact iff_of_false (fun same => named (event.trans (congrArg some same)))
      (fun same => nomatch same)

/-- Where no row names the empty event, rows are filed under one key exactly if they have one
event. -/
theorem eventKey_eq_eventKey_iff {row other : Transition M} (named : row.event ≠ some eventlessKey)
    (otherNamed : other.event ≠ some eventlessKey) :
    row.eventKey = other.eventKey ↔ row.event = other.event := by
  cases event : other.event with
  | none =>
    rw [(eventKey_eq_eventlessKey_iff otherNamed).mpr event]
    exact eventKey_eq_eventlessKey_iff named
  | some name =>
    have isNamed : name ≠ eventlessKey := fun same => otherNamed (event.trans (congrArg some same))
    rw [(eventKey_eq_iff isNamed).mpr event]
    exact eventKey_eq_iff isNamed

end Transition

namespace MachineDefinition

variable {definition : MachineDefinition M} {settings : Settings}

theorem enteredOnce_iff (settings : Settings) (distinct : DistinctNames definition.states) :
    definition.EnteredOnce ↔ (definition.context settings).initialStateDeclared = [] ∧
      (definition.context settings).singleInitialTransition = [] := by
  rw [initialStateDeclared_eq_nil_iff, singleInitialTransition_eq_nil_iff, explicitStarts]
  unfold EnteredOnce
  cases definition.initialState with
  | none => simp
  | some state =>
    simp only [Option.some.injEq, forall_eq', Option.isSome_some, ↓reduceIte, List.countP_eq_zero,
      Bool.not_eq_true]
    exact and_congr_left (fun _ =>
      ⟨fun declared => ⟨Hierarchy.ne_root_of_declared distinct declared, declared⟩, And.right⟩)

namespace Accepted

variable (accepted : definition.Accepted settings)

include accepted

theorem isCompound_iff {name : String} (notRoot : name ≠ rootName) :
    definition.indices.hierarchy.isCompound name = true ↔ DeclaredCompound definition.states name :=
  Hierarchy.isCompound_iff accepted.distinctNames notRoot

theorem hasInit {state : String} (compound : DeclaredCompound definition.states state) :
    definition.HasInit state := by
  have notRoot := Hierarchy.ne_root_of_declared accepted.distinctNames
    (declared_of_compound compound)
  obtain ⟨position, row, guarded, inner, filed, found, targets, unguarded, goal, placed⟩ :=
    (compoundInitValid_eq_nil_iff definition settings).mp accepted.passes.compoundInitValid state
      ((accepted.isCompound_iff notRoot).mpr compound) notRoot
  have member : position ∈ (RowTables.ofRows definition.rows).rowsOn state initEvent :=
    filed ▸ List.mem_singleton_self position
  obtain ⟨other, otherFound, _, origin, key⟩ :=
    (RowTables.mem_rowsOn_iff definition.rows _ _ _).mp member
  cases found.symm.trans otherFound
  have event : row.event = some initEvent := (Transition.eventKey_eq_iff (by decide)).mp key
  exact ⟨row, guarded, inner,
    { listed := List.mem_of_getElem? found, origin := origin, event := event, alone :=
      targets, unguarded := unguarded,
      goal := goal, inside :=
        (Hierarchy.isStrictAncestor_iff accepted.distinctNames notRoot inner).mp placed }⟩

theorem rows_single :
    definition.rows.Pairwise (fun row other =>
      ¬ (row.origin = other.origin ∧ row.event = other.event)) := by
  have rootRows :=
    ((statesMatchTransitions_eq_nil_iff definition settings).mp
      accepted.passes.statesMatchTransitions).1
  -- Rows from the root are not filed, but they all start the machine, and only one does.
  have starts : definition.rows.Pairwise
      (fun row other => row.isStart = true → other.isStart = true → False) := by
    have count := countP_isStart_of_singleInitialTransition definition settings
      accepted.passes.singleInitialTransition
    rw [List.countP_eq_length_filter] at count
    obtain ⟨start, alone⟩ := List.length_eq_one_iff.mp count
    rw [← List.pairwise_filter, alone]
    exact List.pairwise_singleton _ _
  apply (accepted.rows_filed_once.and starts).imp_of_mem
  intro row other listed otherListed both same
  by_cases fromRoot : row.origin = rootName
  · have isStart : row.isStart = true := by
      simp [Transition.isStart, fromRoot, rootRows row listed fromRoot]
    have otherStart : other.isStart = true := by
      have otherFromRoot := same.1.symm.trans fromRoot
      simp [Transition.isStart, otherFromRoot, rootRows other otherListed otherFromRoot]
    exact both.2 isStart otherStart
  · exact both.1 fromRoot
      ⟨same.1, (Transition.eventKey_eq_eventKey_iff (accepted.event_ne_empty listed)
      (accepted.event_ne_empty otherListed)).mpr same.2⟩

theorem wellFormed : definition.WellFormed settings := by
  have passes := accepted.passes
  have distinct := accepted.distinctNames
  obtain ⟨named, origins, room⟩ :=
    (wellFormedDefinition_eq_nil_iff definition settings).mp passes.wellFormedDefinition
  obtain ⟨events, rowEvents⟩ :=
    (eventNamesValid_eq_nil_iff definition settings).mp passes.eventNamesValid
  obtain ⟨rootRows, statesUsed⟩ :=
    (statesMatchTransitions_eq_nil_iff definition settings).mp passes.statesMatchTransitions
  have eventsUsed := (eventsMatchTransitions_eq_nil_iff definition settings).mp
    passes.eventsMatchTransitions
  have notRoot {row : Transition M} (listed : row ∈ definition.rows)
      (eventless : row.event = none) : row.origin ≠ rootName := by
    intro fromRoot
    exact nomatch eventless.symm.trans (rootRows row listed fromRoot)
  exact {
    inhabited := (atLeastOneState_eq_nil_iff definition settings).mp passes.atLeastOneState
    distinct := distinct
    named := named
    origins := origins
    room := room
    entered := (enteredOnce_iff settings distinct).mpr
      ⟨passes.initialStateDeclared, passes.singleInitialTransition⟩
    rootRows := rootRows
    rootTargets := (noTransitionToRoot_eq_nil_iff definition settings).mp passes.noTransitionToRoot
    targets := (transitionShape_eq_nil_iff definition settings).mp passes.transitionShape
    events := events
    rowEvents := rowEvents
    eventsUsed := by
      intro event
      constructor
      · intro declared
        exact ⟨(events event declared).2,
          (eventsUsed event (events event declared).1 (events event declared).2).mp declared⟩
      · rintro ⟨notInit, row, listed, isEvent⟩
        have isNamed : event ≠ "" := fun same =>
          rowEvents row listed (isEvent.trans (congrArg some same))
        exact (eventsUsed event isNamed notInit).mpr ⟨row, listed, isEvent⟩
    statesUsed := statesUsed
    initOrigins := by
      intro row listed isInit fromState
      exact (accepted.isCompound_iff fromState).mp
        ((initOnlyFromCompound_eq_nil_iff definition settings).mp passes.initOnlyFromCompound row
          listed isInit fromState)
    inits := fun state compound => accepted.hasInit compound
    unmixed := by
      intro row listed other otherListed same eventless
      have key := (Transition.eventKey_eq_eventlessKey_iff (rowEvents row listed)).mpr eventless
      have otherKey := (noMixedEventless_eq_nil_iff definition settings).mp passes.noMixedEventless
        row listed other otherListed (notRoot listed eventless) same.symm key
      exact (Transition.eventKey_eq_eventlessKey_iff (rowEvents other otherListed)).mp otherKey
    selfLoops := by
      intro row listed eventless guarded inRow goal
      exact (accepted.isCompound_iff (notRoot listed eventless)).mp
        ((noEventlessAtomicSelfLoop_eq_nil_iff definition settings).mp
          passes.noEventlessAtomicSelfLoop row listed guarded inRow eventless goal)
    single := accepted.rows_single
    unambiguous := by
      intro row listed other otherListed same notInit encloses
      have fromState := Hierarchy.ne_root_of_declared distinct
        (declared_of_compound (compound_of_encloses encloses))
      have otherFromState := Hierarchy.ne_root_of_declared distinct (declared_of_encloses encloses)
      have key : other.eventKey = row.eventKey :=
        ((Transition.eventKey_eq_eventKey_iff (rowEvents row listed)
          (rowEvents other otherListed)).mpr same).symm
      have keyNotInit : row.eventKey ≠ initEvent := fun isInit =>
        notInit ((Transition.eventKey_eq_iff (by decide)).mp isInit)
      exact (noAncestorConflicts_eq_nil_iff definition settings).mp passes.noAncestorConflicts row
        listed other otherListed
        fromState otherFromState keyNotInit key
          ((Hierarchy.isStrictAncestor_iff distinct fromState _).mpr encloses)
    histories := by
      intro row listed guarded inRow reference goal
      have compound := accepted.history_compound listed inRow (by rw [goal]; rfl)
      rw [goal] at compound
      exact compound }

end Accepted

namespace WellFormed

variable (wellFormed : definition.WellFormed settings)

include wellFormed

theorem notRoot_of_compound {name : String} (compound : DeclaredCompound definition.states name) :
    name ≠ rootName := by
  exact Hierarchy.ne_root_of_declared wellFormed.distinct (declared_of_compound compound)

theorem isCompound {name : String} (compound : DeclaredCompound definition.states name) :
    definition.indices.hierarchy.isCompound name = true :=
  (Hierarchy.isCompound_iff wellFormed.distinct (wellFormed.notRoot_of_compound compound)).mpr
    compound

theorem rowsOn_length_le_one (origin event : String) :
    (definition.indices.tables.rowsOn origin event).length ≤ 1 := by
  refine (RowTables.rowsOn_length_le_one_iff definition.rows).mpr ?_ origin event
  apply wellFormed.single.imp_of_mem
  intro row other listed otherListed apart _ same
  exact apart ⟨same.1, (Transition.eventKey_eq_eventKey_iff (wellFormed.rowEvents row listed)
    (wellFormed.rowEvents other otherListed)).mp same.2⟩

theorem compoundInitValid : (definition.context settings).compoundInitValid = [] := by
  rw [compoundInitValid_eq_nil_iff]
  intro state indexed notRoot
  have compound := (Hierarchy.isCompound_iff wellFormed.distinct notRoot).mp indexed
  obtain ⟨row, guarded, inner, init⟩ := wellFormed.inits state compound
  obtain ⟨position, found⟩ := List.mem_iff_getElem?.mp init.listed
  have filed : position ∈ definition.indices.tables.rowsOn state initEvent :=
    (RowTables.mem_rowsOn_iff definition.rows _ _ _).mpr
      ⟨row, found, init.origin ▸ notRoot, init.origin,
        (Transition.eventKey_eq_iff (by decide)).mpr init.event⟩
  have alone : definition.indices.tables.rowsOn state initEvent = [position] := by
    have short := wellFormed.rowsOn_length_le_one state initEvent
    have some := List.length_pos_of_mem filed
    obtain ⟨only, single⟩ := List.length_eq_one_iff.mp
      (show (definition.indices.tables.rowsOn state initEvent).length = 1 by omega)
    rw [single] at filed ⊢
    rw [List.mem_singleton.mp filed]
  exact ⟨position, row, guarded, inner, alone, found, init.alone, init.unguarded, init.goal,
    (Hierarchy.isStrictAncestor_iff wellFormed.distinct notRoot inner).mpr init.inside⟩

theorem eventsMatchTransitions : (definition.context settings).eventsMatchTransitions = [] := by
  rw [eventsMatchTransitions_eq_nil_iff]
  intro event _ notInit
  rw [wellFormed.eventsUsed event]
  exact and_iff_right notInit

theorem noMixedEventless : (definition.context settings).noMixedEventless = [] := by
  rw [noMixedEventless_eq_nil_iff]
  intro row listed other otherListed _ same key
  have eventless := (Transition.eventKey_eq_eventlessKey_iff (wellFormed.rowEvents row listed)).mp
    key
  exact (Transition.eventKey_eq_eventlessKey_iff (wellFormed.rowEvents other otherListed)).mpr
    (wellFormed.unmixed row listed other otherListed same.symm eventless)

theorem noAncestorConflicts : (definition.context settings).noAncestorConflicts = [] := by
  rw [noAncestorConflicts_eq_nil_iff]
  intro row listed other otherListed fromState _ notInit key nested
  have event := (Transition.eventKey_eq_eventKey_iff (wellFormed.rowEvents row listed)
    (wellFormed.rowEvents other otherListed)).mp key.symm
  have rowNotInit : row.event ≠ some initEvent := fun isInit =>
    notInit ((Transition.eventKey_eq_iff (by decide)).mpr isInit)
  exact wellFormed.unambiguous row listed other otherListed event rowNotInit
    ((Hierarchy.isStrictAncestor_iff wellFormed.distinct fromState _).mp nested)

theorem historyTargetsValid : (definition.context settings).historyTargetsValid = [] := by
  rw [historyTargetsValid_eq_nil_iff]
  intro row listed guarded inRow history
  cases goal : guarded.target with
  | state name =>
    rw [goal] at history
    cases history
  | history reference =>
    have compound := wellFormed.histories row listed guarded inRow reference goal
    exact ⟨(Hierarchy.contains_iff _).mpr (Or.inr (declared_of_compound compound)),
      wellFormed.notRoot_of_compound compound, wellFormed.isCompound compound⟩

theorem passes : (definition.context settings).Passes := by
  obtain ⟨unique, notReused⟩ :=
    (Hierarchy.distinctNames_iff definition.states).mp wellFormed.distinct
  obtain ⟨initialDeclared, single⟩ :=
    (enteredOnce_iff settings wellFormed.distinct).mp wellFormed.entered
  exact {
    wellFormedDefinition := (wellFormedDefinition_eq_nil_iff definition settings).mpr
      ⟨wellFormed.named, wellFormed.origins, wellFormed.room⟩
    initialStateDeclared := initialDeclared
    noTransitionToRoot :=
      (noTransitionToRoot_eq_nil_iff definition settings).mpr wellFormed.rootTargets
    eventNamesValid := (eventNamesValid_eq_nil_iff definition settings).mpr
      ⟨wellFormed.events, wellFormed.rowEvents⟩
    transitionShape := (transitionShape_eq_nil_iff definition settings).mpr wellFormed.targets
    uniqueStateNames := (ContractContext.uniqueStateNames_eq_nil_iff _).mpr unique
    rootNameNotReused := (ContractContext.rootNameNotReused_eq_nil_iff _).mpr notReused
    atLeastOneState := (atLeastOneState_eq_nil_iff definition settings).mpr wellFormed.inhabited
    eventsMatchTransitions := wellFormed.eventsMatchTransitions
    statesMatchTransitions := (statesMatchTransitions_eq_nil_iff definition settings).mpr
      ⟨wellFormed.rootRows, wellFormed.statesUsed⟩
    singleInitialTransition := single
    initOnlyFromCompound := by
      rw [initOnlyFromCompound_eq_nil_iff]
      intro row listed isInit fromState
      exact wellFormed.isCompound (wellFormed.initOrigins row listed isInit fromState)
    compoundInitValid := wellFormed.compoundInitValid
    noMixedEventless := wellFormed.noMixedEventless
    noEventlessAtomicSelfLoop := by
      rw [noEventlessAtomicSelfLoop_eq_nil_iff]
      intro row listed guarded inRow eventless goal
      exact wellFormed.isCompound (wellFormed.selfLoops row listed eventless guarded inRow goal)
    guardsInSingleRow :=
      (guardsInSingleRow_eq_nil_iff definition settings).mpr wellFormed.rowsOn_length_le_one
    noAncestorConflicts := wellFormed.noAncestorConflicts
    historyTargetsValid := wellFormed.historyTargetsValid }

end WellFormed

/-- The battery accepts exactly the well-formed definitions. Several rules are right only
because others reject the definitions on which their tables are wrong: what a table says of a
name is true once names are distinct, and rows filed under one key have one event once no row
names the empty one. -/
theorem checkAll_battery_eq_ok_iff_wellFormed (definition : MachineDefinition M)
    (settings : Settings) :
    Contract.checkAll (definition.context settings) Contract.battery = .ok () ↔
    definition.WellFormed settings := by
  constructor
  · exact Accepted.wellFormed
  · intro wellFormed
    exact (Contract.checkAll_battery_iff _).mpr wellFormed.passes

end MachineDefinition

end Statechart
