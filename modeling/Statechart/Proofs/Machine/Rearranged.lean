import Statechart.Proofs.Contract.Rearranged
import Statechart.Proofs.Machine.MicroStep

set_option autoImplicit false

namespace Statechart

open StateNode

variable {M : Model} {definition other : MachineDefinition M} {settings : Settings}
  {machine otherMachine : Machine M}

namespace MachineDefinition

/-- In a well-formed definition the row of a state on an event is the only one. -/
theorem WellFormed.firstRow?_eq_some_iff (wellFormed : definition.WellFormed settings)
    (state event : String) (row : Transition M) : definition.firstRow? state event = some row ↔
      row ∈ definition.rows ∧ row.origin = state ∧ row.eventKey = event := by
  constructor
  · intro first
    have fits := List.find?_some first
    rw [decide_eq_true_eq] at fits
    exact ⟨List.mem_of_find?_eq_some first, fits⟩
  · intro fits
    obtain ⟨listed, origin, key⟩ := fits
    obtain ⟨found, first⟩ :=
      (definition.handles_iff_firstRow? state event).mp ⟨row, listed, origin, key⟩
    have foundListed := List.mem_of_find?_eq_some first
    have foundFits := List.find?_some first
    rw [decide_eq_true_eq] at foundFits
    have symmetric : Std.Symm (fun row other : Transition M =>
      ¬ (row.origin = other.origin ∧ row.event = other.event)) :=
      ⟨fun _ _ apart same => apart ⟨same.1.symm, same.2.symm⟩⟩
    have same : found = row := by
      apply Classical.byContradiction
      intro different
      have apart := wellFormed.single.forall foundListed listed different
      have events := (Transition.eventKey_eq_eventKey_iff (wellFormed.rowEvents found foundListed)
        (wellFormed.rowEvents row listed)).mp (foundFits.2.trans key.symm)
      exact apart ⟨foundFits.1.trans origin.symm, events⟩
    rw [first, same]

namespace Rearranged

variable (rearranged : definition.Rearranged other)

include rearranged

theorem handles_iff (state event : String) :
    other.Handles state event ↔ definition.Handles state event := by
  simp only [Handles, rearranged.mem_rows_iff]

theorem raises {state event : String} (raises : definition.Raises state event) :
    other.Raises state event := by
  cases raises with
  | init compound own =>
    exact .init (rearranged.states.compound compound) ((rearranged.handles_iff _ _).mpr own)
  | eventless simple =>
    rw [rearranged.states.compound_iff, ← rearranged.handles_iff] at simple
    exact .eventless simple

theorem leavesPending {state : String} {pending : Option String}
    (leaves : definition.LeavesPending state pending) : other.LeavesPending state pending := by
  cases pending with
  | some event => exact ⟨rearranged.raises leaves.1, (rearranged.handles_iff _ _).mpr leaves.2⟩
  | none =>
    intro event raises own
    exact leaves event (rearranged.symm.raises raises) ((rearranged.handles_iff _ _).mp own)

theorem leaves {runtime : Runtime M} {history : HistoryStore}
    (leaves : definition.Leaves runtime history) : other.Leaves runtime history := by
  obtain ⟨around, lists, same⟩ := leaves
  refine ⟨around, ⟨?_, ?_⟩, same⟩
  · apply lists.outwards.imp
    intro inner outer encloses
    exact rearranged.states.encloses encloses
  · intro outer
    rw [lists.complete, rearranged.states.encloses_iff]

variable (accepted : definition.Accepted settings)

include accepted

theorem firstRow?_eq (state event : String) :
    other.firstRow? state event = definition.firstRow? state event := by
  apply Option.ext
  intro row
  rw [(rearranged.wellFormed accepted.wellFormed).firstRow?_eq_some_iff,
    accepted.wellFormed.firstRow?_eq_some_iff, rearranged.mem_rows_iff]

theorem handledBy {control event handler : String} {external : Bool} {row : Transition M}
    (handled : definition.HandledBy control event external handler row) :
    other.HandledBy control event external handler row where
  heard := handled.heard
  around := handled.around.imp_right rearranged.states.encloses
  first := (rearranged.firstRow?_eq accepted handler event).trans handled.first
  innermost := by
    intro state around handles
    have inner := handled.innermost state (around.imp_right rearranged.states.symm.encloses)
      ((rearranged.handles_iff state event).mp handles)
    exact inner.imp_right rearranged.states.encloses

end Rearranged

end MachineDefinition

namespace Machine

variable (rearranged : definition.Rearranged other) (accepted : definition.Accepted settings)
  (made : machine.MadeFrom definition settings) (otherMade : otherMachine.MadeFrom other settings)

include rearranged accepted made otherMade

/-- An event finds a row of the same state with the same targets. -/
theorem lookup_eq_of_rearranged (control event : String) (external : Bool) :
    (machine.findHandler control event external).map
      (fun place => (place.1, machine.targetsOf place.2))
      = (otherMachine.findHandler control event external).map
        (fun place => (place.1, otherMachine.targetsOf place.2)) := by
  have distinct := accepted.distinctNames
  have otherAccepted := rearranged.accepted accepted
  have otherDistinct := otherAccepted.distinctNames
  cases found : machine.findHandler control event external with
  | some place =>
    obtain ⟨handler, position⟩ := place
    obtain ⟨row, handled, targets⟩ := made.handledBy_of_findHandler distinct found
    obtain ⟨otherPosition, otherFound, otherTargets⟩ :=
      otherMade.findHandler_of_handledBy otherDistinct (rearranged.handledBy accepted handled)
    rw [otherFound, Option.map_some, Option.map_some, targets, otherTargets]
  | none =>
    have unhandled := (made.findHandler_eq_none_iff distinct control event external).mp found
    have otherFound : otherMachine.findHandler control event external = none := by
      rw [otherMade.findHandler_eq_none_iff otherDistinct]
      intro handler row handled
      exact unhandled handler row (rearranged.symm.handledBy otherAccepted handled)
    rw [otherFound]
    rfl

theorem leave_eq_of_rearranged (runtime : Runtime M) :
    machine.leave runtime = otherMachine.leave runtime := by
  have leaves := (made.leaves_iff accepted.distinctNames runtime _).mpr rfl
  have otherDistinct := (rearranged.accepted accepted).distinctNames
  exact ((otherMade.leaves_iff otherDistinct runtime _).mp (rearranged.leaves leaves)).symm

omit accepted in
theorem perform_eq_of_rearranged (site : CallSite M) (action : Action M) :
    machine.perform site action = otherMachine.perform site action := by
  rw [perform, perform, made.settings, otherMade.settings, made.reducer, otherMade.reducer,
    rearranged.reducer]

theorem enter_eq_of_rearranged (runtime : Runtime M) (event : String) (target : Target)
    (ext : M.Ext) :
    machine.enter runtime event target ext = otherMachine.enter runtime event target ext := by
  have otherDistinct := (rearranged.accepted accepted).distinctNames
  rw [enter_eq, enter_eq, leave_eq_of_rearranged rearranged accepted made otherMade]
  have enterable := made.declared_iff_enterable accepted.distinctNames
    (target.resolve (otherMachine.leave runtime))
  have otherEnterable :=
    otherMade.declared_iff_enterable otherDistinct (target.resolve (otherMachine.leave runtime))
  rw [← rearranged.states.declared_iff] at otherEnterable
  by_cases declared : Declared definition.states (target.resolve (otherMachine.leave runtime))
  · rw [if_neg (enterable.mp declared), if_neg (otherEnterable.mp declared)]
  · rw [if_pos (not_not.mp (mt enterable.mpr declared)),
      if_pos (not_not.mp (mt otherEnterable.mpr declared))]

theorem step_eq_of_rearranged (runtime : Runtime M) (event : String) (data : M.Data)
    (external : Bool) :
    machine.step runtime event data external = otherMachine.step runtime event data external := by
  have lookup := lookup_eq_of_rearranged rearranged accepted made otherMade runtime.control
    event external
  have settingsSame : machine.settings = otherMachine.settings :=
    made.settings.trans otherMade.settings.symm
  unfold step
  cases found : machine.findHandler runtime.control event external with
  | none =>
    rw [found, Option.map_none, eq_comm, Option.map_eq_none_iff] at lookup
    rw [lookup]
  | some place =>
    rw [found, Option.map_some, eq_comm] at lookup
    obtain ⟨otherPlace, otherFound, same⟩ := Option.map_eq_some_iff.mp lookup
    obtain ⟨handlers, targets⟩ := Prod.mk.inj same
    rw [otherFound]
    simp only [handlers, targets, settingsSame, perform_eq_of_rearranged rearranged made otherMade,
      enter_eq_of_rearranged rearranged accepted made otherMade]

theorem cascadeEvent_eq_of_rearranged {state : String} (notRoot : state ≠ rootName) :
    machine.cascadeEvent state = otherMachine.cascadeEvent state := by
  have leaves := (made.leavesPending_iff accepted.distinctNames notRoot _).mpr rfl
  have otherDistinct := (rearranged.accepted accepted).distinctNames
  exact ((otherMade.leavesPending_iff otherDistinct notRoot _).mp
    (rearranged.leavesPending leaves)).symm

theorem advance_eq_of_rearranged {data : M.Data} {depth : Nat} {runtime : Runtime M}
    {event : String} {follow otherFollow : Runtime M → String → CascadeResult M}
    (onward : ∀ next raised, follow next raised = otherFollow next raised) :
    machine.advance data depth runtime event follow =
      otherMachine.advance data depth runtime event otherFollow := by
  unfold advance
  rw [← step_eq_of_rearranged rearranged accepted made otherMade]
  cases stepped : machine.step runtime event data (decide (depth = 0)) with
  | error error => rfl
  | ok result =>
    cases result with
    | unhandled => rfl
    | noGuardSatisfied => rfl
    | taken step =>
      obtain ⟨_, _, took⟩ := took_of_step stepped
      simp only [cascadeEvent_eq_of_rearranged rearranged accepted made otherMade took.notRoot,
        onward]

theorem cascade_eq_of_rearranged (data : M.Data) (room depth : Nat) (runtime : Runtime M)
    (event : String) :
    machine.cascade data room depth runtime event =
      otherMachine.cascade data room depth runtime event := by
  induction room generalizing depth runtime event with
  | zero =>
    rw [cascade, cascade]
    apply advance_eq_of_rearranged rearranged accepted made otherMade
    intro next raised
    rw [made.settings, otherMade.settings]
  | succ room ih =>
    rw [cascade, cascade]
    apply advance_eq_of_rearranged rearranged accepted made otherMade
    intro next raised
    exact ih (depth + 1) next raised

theorem observe_eq_of_rearranged (alike : machine.runtime = otherMachine.runtime)
    (event : Event M.Data) : machine.observe event = otherMachine.observe event := by
  have settingsSame : machine.settings = otherMachine.settings :=
    made.settings.trans otherMade.settings.symm
  have cascades := cascade_eq_of_rearranged rearranged accepted made otherMade event.data
    otherMachine.settings.maxCascadeDepth 0 otherMachine.runtime event.name
  unfold observe dispatch
  rw [settingsSame, alike, cascades]
  by_cases nameless : event.name = ""
  · simp only [if_pos nameless, alike]
  · simp only [if_neg nameless]
    cases (otherMachine.cascade event.data otherMachine.settings.maxCascadeDepth 0
        otherMachine.runtime event.name).result with
    | ok result => rfl
    | error error => simp only [alike]

theorem observations_eq_of_rearranged (alike : machine.runtime = otherMachine.runtime)
    (events : List (Event M.Data)) :
    machine.observations events = otherMachine.observations events := by
  induction events generalizing machine otherMachine with
  | nil => rfl
  | cons event rest ih =>
    have same := observe_eq_of_rearranged rearranged accepted made otherMade alike event
    have after := congrArg Observation.after same
    rw [observations, observations, same]
    exact congrArg (otherMachine.observe event :: ·)
      (ih (made.dispatch event) (otherMade.dispatch event) after)

omit made otherMade

end Machine

end Statechart
