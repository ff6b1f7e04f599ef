import Statechart.Machine.Protocol
import Statechart.Proofs.Indices.Places
import Statechart.Proofs.Machine.Handler
import Statechart.Proofs.Machine.Taken

set_option autoImplicit false

namespace Statechart

open StateNode TakenStep

variable {M : Model} {definition : MachineDefinition M} {settings : Settings} {machine : Machine M}

namespace TakenStep

theorem length_reports (depth : Nat) (steps : List (TakenStep M)) :
    (reports depth steps).length = steps.length := by
  induction steps generalizing depth with
  | nil => rfl
  | cons step rest ih => rw [reports, List.length_cons, List.length_cons, ih]

theorem isEmpty_reports (depth : Nat) (steps : List (TakenStep M)) :
    (reports depth steps).isEmpty = steps.isEmpty := by
  cases steps <;> rfl

end TakenStep

namespace Machine

theorem step_error_ne_limit {data : M.Data} {runtime : Runtime M} {event : String} {external : Bool}
    {error : DispatchError M} (failed : machine.step runtime event data external = .error error)
    (state : String)
    (limit : Nat) : error ≠ .cascadeLimitExceeded state limit := by
  have ends := machine.step_ends data runtime event external
  rw [failed] at ends
  cases ends with
  | guardFailed handled chosen =>
    obtain ⟨_, _, guard, source, _, _, rfl⟩ := guard_of_selectTarget_error chosen
    exact fun same => nomatch same
  | performFailed handled chosen performed =>
    rcases perform_error performed with ⟨source, _, rfl⟩ | ⟨result, source, _, _, rfl⟩
    · exact fun same => nomatch same
    · exact fun same => nomatch same
  | enterFailed handled chosen performed entered =>
    rw [enter_eq] at entered
    split at entered
    · cases entered
      exact fun same => nomatch same
    · cases entered

namespace Took

variable {data : M.Data} {runtime : Runtime M} {event : String} {external : Bool}
  {step : TakenStep M} {position : Nat} {guarded : GuardedTarget M}

theorem report_eq (took : Took machine data runtime event external step position guarded)
    (depth : Nat) :
    step.report depth = .internalTransition runtime.control event step.handler step.guard
      step.action step.next.control depth := by
  rw [TakenStep.report, took.origin, took.event]

/-- A transition on what entering a state raised belongs to the state itself. -/
theorem handler_eq_of_raised (took : Took machine data runtime event false step position guarded)
    (notRoot : runtime.control ≠ rootName)
    (raised : machine.cascadeEvent runtime.control = some event) :
    step.handler = runtime.control := by
  obtain ⟨place, _, found⟩ := findHandler_of_cascadeEvent notRoot raised
  exact (Prod.mk.inj (Option.some.inj (found.symm.trans took.handled))).1.symm

end Took

section

variable (made : machine.MadeFrom definition settings)

include made

theorem MadeFrom.handles_iff {state : String} (notRoot : state ≠ rootName) (event : String) :
    (machine.indices.tables.ownHandler state event).isSome = true ↔
    definition.Handles state event := by
  constructor
  · intro own
    obtain ⟨position, found⟩ := Option.isSome_iff_exists.mp own
    obtain ⟨row, placed, _, origin, key⟩ := made.row_of_ownHandler found
    exact ⟨row, List.mem_of_getElem? placed, origin, key⟩
  · intro handles
    obtain ⟨row, listed, rfl, rfl⟩ := handles
    exact made.ownHandler_isSome listed notRoot

variable (distinct : DistinctNames definition.states)

include distinct

theorem MadeFrom.raises_of_cascadeEvent {state event : String} (notRoot : state ≠ rootName)
    (raised : machine.cascadeEvent state = some event) :
    definition.Raises state event ∧ definition.Handles state event := by
  have compound : machine.indices.hierarchy.isCompound state = true ↔
      DeclaredCompound definition.states state := by
    rw [made.indices]
    exact Hierarchy.isCompound_iff distinct notRoot
  unfold cascadeEvent at raised
  split at raised
  · rename_i starts
    rw [compound, made.handles_iff notRoot] at starts
    cases raised
    exact ⟨.init starts.1 starts.2, starts.2⟩
  · rename_i silent
    rw [compound, made.handles_iff notRoot] at silent
    split at raised
    · rename_i own
      cases raised
      exact ⟨.eventless silent, (made.handles_iff notRoot eventlessKey).mp own⟩
    · cases raised

/-- What handles an event is a row of the current state or of one around it. -/
theorem MadeFrom.around_of_findHandler {control event handler : String} {external : Bool}
    {position : Nat}
    (found : machine.findHandler control event external = some (handler, position)) :
    (handler = control ∨ Encloses definition.states handler control) ∧
    definition.Handles handler event := by
  by_cases inRoot : control = rootName
  · subst inRoot
    obtain ⟨row, placed, starts⟩ := made.row_of_findHandler_root found
    rw [Transition.isStart, Bool.and_eq_true, decide_eq_true_eq, decide_eq_true_eq] at starts
    obtain ⟨isInit, rfl, _⟩ := findHandler_root_eq_some_iff.mp found
    exact ⟨Or.inl rfl, row, List.mem_of_getElem? placed, starts.1,
      by rw [Transition.eventKey, starts.2, isInit]; rfl⟩
  · rw [findHandler, if_neg inRoot] at found
    split at found
    · cases found
    · obtain ⟨member, inLineage, same⟩ := List.exists_of_findSome?_eq_some found
      obtain ⟨place, own, same⟩ := Option.map_eq_some_iff.mp same
      obtain ⟨rfl, _⟩ := Prod.mk.inj same
      obtain ⟨row, placed, notRoot, origin, key⟩ := made.row_of_ownHandler own
      refine ⟨?_, row, List.mem_of_getElem? placed, origin, key⟩
      rw [made.indices] at inLineage
      rcases Hierarchy.encloses_of_mem_lineage distinct inLineage with here | encloses | isRoot
      · exact Or.inl here
      · exact Or.inr encloses
      · exact absurd (origin.trans isRoot) notRoot

/-- The records of the steps that entering a state raises. -/
theorem Chain.cascade_reports {data : M.Data} {external : Bool} {runtime last : Runtime M}
    {event : String} {steps : List (TakenStep M)} {pending : Option String}
    (chain : Chain machine data external runtime event steps last pending)
    (internal : external = false) (notRoot : runtime.control ≠ rootName)
    (raised : machine.cascadeEvent runtime.control = some event) (depth : Nat) :
    definition.Cascade depth runtime.control (reports depth steps) last.control := by
  induction chain generalizing depth with
  | start external runtime event => exact .settled depth runtime.control
  | rest taken quiet =>
    subst internal
    obtain ⟨_, _, took⟩ := took_of_step taken
    obtain ⟨raises, own⟩ := made.raises_of_cascadeEvent distinct notRoot raised
    rw [reports, took.report_eq, took.handler_eq_of_raised notRoot raised]
    exact .next raises own (.settled _ _)
  | follow taken raisesNext onward ih =>
    subst internal
    obtain ⟨_, _, took⟩ := took_of_step taken
    obtain ⟨raises, own⟩ := made.raises_of_cascadeEvent distinct notRoot raised
    rw [reports, took.report_eq, took.handler_eq_of_raised notRoot raised]
    exact .next raises own (ih rfl took.notRoot raisesNext (depth + 1))

/-- The records of the steps of a dispatch. -/
theorem Chain.transitions_reports {data : M.Data} {external : Bool} {runtime last : Runtime M}
    {event : String} {steps : List (TakenStep M)} {pending : Option String}
    (chain : Chain machine data external runtime event steps last pending) :
    definition.Transitions runtime.control event (reports 0 steps) last.control := by
  cases chain with
  | start external runtime event => exact .none
  | rest taken quiet =>
    obtain ⟨_, _, took⟩ := took_of_step taken
    obtain ⟨around, handles⟩ := made.around_of_findHandler distinct took.handled
    rw [reports, took.report_eq]
    exact .first around handles (.settled _ _)
  | follow taken raises onward =>
    obtain ⟨_, _, took⟩ := took_of_step taken
    obtain ⟨around, handles⟩ := made.around_of_findHandler distinct took.handled
    rw [reports, took.report_eq]
    exact .first around handles (onward.cascade_reports made distinct rfl took.notRoot raises 1)

/-- The records of a dispatch keep to the protocol. -/
theorem dispatch_keeps_protocol (traced : settings.debug.traced = true) (event : Event M.Data) :
    definition.Protocol settings.maxCascadeDepth machine.runtime.control event.name
      (machine.dispatch event).result (machine.dispatch event).machine.runtime.control
      (machine.settings.debug.deliver (machine.dispatch event).reports) := by
  have settles := machine.dispatch_settles event
  rw [DebugSettings.deliver, if_pos (made.settings ▸ traced)]
  generalize machine.dispatch event = result at settles
  cases settles with
  | nameless nameless => exact .nameless nameless
  | @settled steps outcome last named finished =>
    obtain ⟨bound, _, _, _⟩ := finished.chain_le
    obtain ⟨_, chain⟩ := finished.exists_chain
    rw [finished.isTransitioned_eq, ← isEmpty_reports 0 steps]
    rw [made.settings] at bound
    refine .settled named (chain.transitions_reports made distinct) (by rwa [length_reports]) ?_
    rw [finished.isTransitioned_eq, isEmpty_reports]
  | failed named finished =>
    cases finished with
    | failed chain bound stopped =>
      rw [made.settings] at bound
      refine .failed named (chain.transitions_reports made distinct)
        (by rw [length_reports]; omega) ?_
      intro state limit same
      exact absurd same (step_error_ne_limit stopped state limit)
    | exceeded chain bound =>
      rw [made.settings] at bound ⊢
      refine .failed named (chain.transitions_reports made distinct)
        (by rw [length_reports]; omega) ?_
      intro state limit same
      cases same
      exact ⟨by rw [length_reports, bound], rfl, rfl⟩

end

/-- Switched on for the first time, the player enters two compound states before it rests. -/
theorem player_keeps_protocol :
    Player.definition.Protocol 100 "Off" "on" (.ok (.transitioned [])) "Slow"
      [.eventReceived "on" "Off", .internalTransition "Off" "on" "Off" none "identity" "On" 0,
        .internalTransition "On" "init" "On" none "identity" "Playing" 1,
        .internalTransition "Playing" "init" "Playing" none "identity" "Slow" 2,
        .eventSettled "on" "Slow" true] := by
  have made := (MadeFrom.unstarted Player.definition ({} : Settings).withTracer).dispatch
    ⟨initEvent, (0 : Nat)⟩
  exact dispatch_keeps_protocol made Player.accepted.distinctNames rfl (Player.press "on")

end Machine

end Statechart
