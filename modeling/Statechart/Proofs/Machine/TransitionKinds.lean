import Statechart.Proofs.Machine.Protocol
import Statechart.Proofs.History.Reentry

set_option autoImplicit false

namespace Statechart

open StateNode TakenStep

variable {M : Model} {definition : MachineDefinition M} {settings : Settings} {machine : Machine M}

namespace MachineDefinition

/-- The kinds of transitions, as they are reported, each after the transitions committed before
it. -/
inductive TransitionKind (definition : MachineDefinition M) (earlier : List TraceKind) :
    TraceKind → Prop where
  /-- The machine is entered, before anything else. -/
  | start {guard : Option String} {action target : String} (first : earlier = []) :
    TransitionKind definition earlier
      (.internalTransition rootName initEvent rootName guard action target 0)
  /-- An event that was dispatched is handled where the machine rests or around there. -/
  | dispatched {origin event handler action target : String} {guard : Option String}
    (named : event ≠ "") (notInit : event ≠ initEvent)
    (resting : DeclaredAtomic definition.states origin)
    (around : handler = origin ∨ Encloses definition.states handler origin) :
    TransitionKind definition earlier
      (.internalTransition origin event handler guard action target 0)
  /-- A compound state that was entered is entered further. -/
  | inward {origin action target : String} {depth : Nat}
    (compound : DeclaredCompound definition.states origin)
    (inside : Encloses definition.states origin target) :
    TransitionKind definition earlier
      (.internalTransition origin initEvent origin none action target (depth + 1))
  /-- An atomic state that was entered is left again without an event. -/
  | onward {origin action target : String} {guard : Option String} {depth : Nat}
    (resting : DeclaredAtomic definition.states origin) :
    TransitionKind definition earlier
      (.internalTransition origin eventlessKey origin guard action target (depth + 1))

/-- How a transition goes with those committed before it: it is of one of the kinds, it does not
enter the root, and it leaves the root exactly if it is the first. -/
structure Fits (definition : MachineDefinition M) (earlier : List TraceKind) (report : TraceKind) :
    Prop where
  kind : definition.TransitionKind earlier report
  enters : report.entered? ≠ some rootName
  begins : report.left? = some rootName ↔ earlier = []

def AllFit (definition : MachineDefinition M) (log : List TraceKind) : Prop :=
  ∀ earlier report later, log = earlier ++ report :: later → definition.Fits earlier report

theorem allFit_nil : definition.AllFit [] := by
  intro earlier report later split
  exact absurd split.symm
    (List.append_ne_nil_of_right_ne_nil earlier (List.cons_ne_nil report later))

theorem AllFit.concat {log : List TraceKind} {report : TraceKind} (before : definition.AllFit log)
    (fits : definition.Fits log report) : definition.AllFit (log ++ [report]) := by
  intro earlier other later split
  rcases List.eq_nil_or_concat later with rfl | ⟨between, last, rfl⟩
  · obtain ⟨rfl, same⟩ := List.append_inj' split rfl
    cases same
    exact fits
  · rw [List.concat_eq_append, ← List.cons_append, ← List.append_assoc] at split
    obtain ⟨rfl, _⟩ := List.append_inj' split rfl
    exact before earlier other between rfl

end MachineDefinition

namespace Machine

variable (accepted : definition.Accepted settings) (made : machine.MadeFrom definition settings)

include accepted made

/-- A transition on what entering a state raised leads further in or leaves an atomic state. -/
theorem Took.fits_of_raised {data : M.Data} {runtime : Runtime M} {event : String}
    {step : TakenStep M} {position : Nat} {guarded : GuardedTarget M}
    (took : Took machine data runtime event false step position guarded)
    (declared : Declared definition.states runtime.control)
    (raised : machine.cascadeEvent runtime.control = some event) {log : List TraceKind}
    (moved : log ≠ []) (depth : Nat) :
    definition.Fits log (step.report (depth + 1)) := by
  have notRoot := Hierarchy.ne_root_of_declared accepted.distinctNames declared
  have handler := took.handler_eq_of_raised notRoot raised
  rw [took.report_eq, handler]
  refine ⟨?_, ?_, ?_⟩
  · by_cases compound : DeclaredCompound definition.states runtime.control
    · cases (cascadeEvent_of_compound accepted made compound).symm.trans raised
      obtain ⟨_, _, init⟩ := took.initializes accepted made compound
      rw [took.guard, init.unguarded]
      exact .inward compound (encloses_of_init accepted made took compound)
    · rcases (ownHandler_of_cascadeEvent raised).2 with ⟨_, indexed⟩ | rfl
      · exact absurd ((isCompound_iff accepted made notRoot).mp indexed) compound
      · exact .onward (atomic_of_not_compound declared compound)
  · intro same
    exact took.notRoot (Option.some.inj same)
  · exact iff_of_false (fun same => notRoot (Option.some.inj same)) moved

/-- The first transition of a dispatch enters the machine or handles the event where the machine
rests. -/
theorem Took.fits_of_dispatched {data : M.Data} {runtime : Runtime M} {event : String}
    {step : TakenStep M} {position : Nat} {guarded : GuardedTarget M}
    (took : Took machine data runtime event true step position guarded) (named : event ≠ "")
    {log : List TraceKind} (still : log = [] → runtime.control = rootName)
    (resting : log ≠ [] → DeclaredAtomic definition.states runtime.control) :
    definition.Fits log (step.report 0) := by
  have inRoot : runtime.control = rootName ↔ log = [] := by
    constructor
    · intro isRoot
      apply Classical.byContradiction
      intro moved
      have declared := declared_of_atomic (resting moved)
      exact Hierarchy.ne_root_of_declared accepted.distinctNames declared isRoot
    · exact still
  rw [took.report_eq]
  refine ⟨?_, ?_, ?_⟩
  · by_cases moved : log = []
    · have isRoot := still moved
      have handled := took.handled
      rw [isRoot] at handled
      obtain ⟨isInit, isHandler, _⟩ := findHandler_root_eq_some_iff.mp handled
      rw [isRoot, isInit, isHandler]
      exact .start moved
    · have notRoot := mt inRoot.mp moved
      have notInit : event ≠ initEvent := by
        intro isInit
        subst isInit
        cases (findHandler_dispatched_init notRoot).symm.trans took.handled
      exact .dispatched named notInit (resting moved)
        (made.around_of_findHandler accepted.distinctNames took.handled).1
  · intro same
    exact took.notRoot (Option.some.inj same)
  · rw [← inRoot]
    exact Option.some_inj

theorem Chain.allFit_of_raised {data : M.Data} {external : Bool} {runtime last : Runtime M}
    {event : String} {steps : List (TakenStep M)} {pending : Option String}
    (chain : Chain machine data external runtime event steps last pending)
    (internal : external = false) (declared : Declared definition.states runtime.control)
    (raised : machine.cascadeEvent runtime.control = some event) {log : List TraceKind}
    (moved : log ≠ []) (before : definition.AllFit log) (depth : Nat) :
    definition.AllFit (log ++ reports (depth + 1) steps) := by
  induction chain generalizing log depth with
  | start external runtime event =>
    rw [reports, List.append_nil]
    exact before
  | rest taken quiet =>
    subst internal
    obtain ⟨_, _, took⟩ := took_of_step taken
    exact before.concat (took.fits_of_raised accepted made declared raised moved depth)
  | follow taken raises onward ih =>
    subst internal
    obtain ⟨_, _, took⟩ := took_of_step taken
    have next := before.concat (took.fits_of_raised accepted made declared raised moved depth)
    have entered := made.declared_of_contains took.notRoot took.known
    rw [reports, List.append_cons]
    exact ih rfl entered raises (List.append_ne_nil_of_left_ne_nil moved _) next (depth + 1)

/-- Along the steps of a dispatch every transition goes with those before it. -/
theorem Chain.allFit {data : M.Data} {runtime last : Runtime M} {event : String}
    {steps : List (TakenStep M)} {pending : Option String}
    (chain : Chain machine data true runtime event steps last pending) (named : event ≠ "")
    {log : List TraceKind} (still : log = [] → runtime.control = rootName)
    (resting : log ≠ [] → DeclaredAtomic definition.states runtime.control)
    (before : definition.AllFit log) :
    definition.AllFit (log ++ reports 0 steps) := by
  cases chain with
  | start external runtime event =>
    rw [reports, List.append_nil]
    exact before
  | rest taken quiet =>
    obtain ⟨_, _, took⟩ := took_of_step taken
    exact before.concat (took.fits_of_dispatched accepted made named still resting)
  | follow taken raises onward =>
    obtain ⟨_, _, took⟩ := took_of_step taken
    have first := before.concat (took.fits_of_dispatched accepted made named still resting)
    have entered := made.declared_of_contains took.notRoot took.known
    rw [reports, List.append_cons]
    exact onward.allFit_of_raised accepted made rfl entered raises (by simp) first 0

omit accepted made

/-- Outside of the root init that is dispatched is not handled, and nothing changes. -/
theorem dispatch_init_of_ne_root (notRoot : machine.runtime.control ≠ rootName) (data : M.Data) :
    (machine.dispatch ⟨initEvent, data⟩).result =
      .ok (.unhandled machine.runtime.control initEvent) ∧
      (machine.dispatch ⟨initEvent, data⟩).machine = machine ∧
      (machine.dispatch ⟨initEvent, data⟩).committed = [] := by
  have settled : machine.dispatch ⟨initEvent, data⟩ =
      ⟨.ok (.unhandled machine.runtime.control initEvent), machine,
      [.eventReceived initEvent machine.runtime.control,
        .eventSettled initEvent machine.runtime.control false]⟩ := by
    apply dispatch_of_idle (show initEvent ≠ "" by decide)
    intro follow
    rw [advance, decide_eq_true rfl, step, findHandler_dispatched_init notRoot]
  rw [settled]
  exact ⟨rfl, rfl, rfl⟩

include accepted

/-- Every transition that a run commits goes with those committed before it, and init that is
dispatched takes none once the root was left. -/
theorem committed_fit (created : (create definition settings).result = .ok machine)
    (events : List (Event M.Data)) :
    definition.AllFit ((create definition settings).committed ++ machine.committed events) ∧
      ((create definition settings).committed ++ machine.committed events ≠ [] → ∀ data,
        ((machine.after events).dispatch ⟨initEvent, data⟩).result
            = .ok (.unhandled (machine.after events).runtime.control initEvent) ∧
          ((machine.after events).dispatch ⟨initEvent, data⟩).machine = machine.after events ∧
          ((machine.after events).dispatch ⟨initEvent, data⟩).committed = []) := by
  refine ⟨?_, ?_⟩
  · have kept := created_keeps (fun log runtime => (log = [] → runtime.control = rootName) ∧
      (log ≠ [] → DeclaredAtomic definition.states runtime.control) ∧ definition.AllFit log) created
    refine (kept ⟨fun _ => rfl, fun moved => absurd rfl moved, MachineDefinition.allFit_nil⟩ ?_
      events).2.2
    intro machine event log made before
    cases result : (machine.dispatch event).result with
    | error error =>
      obtain ⟨same, committed, _⟩ := dispatch_of_error result
      rw [same, committed, List.append_nil]
      exact before
    | ok outcome =>
      have named : event.name ≠ "" := by
        intro nameless
        rw [dispatch, if_pos nameless] at result
        cases result
      obtain ⟨steps, last, finished, _, committed⟩ := dispatch_of_ok result
      obtain ⟨_, chain⟩ := finished.exists_chain
      have fits := chain.allFit accepted made named before.1 before.2.1 before.2.2
      rw [← committed] at fits
      rcases dispatch_rests accepted made result
        with ⟨nothing, unchanged, _⟩ | ⟨something, atomic, _⟩
      · rw [nothing, unchanged, List.append_nil]
        exact before
      · refine ⟨?_, fun _ => atomic, fits⟩
        intro empty
        exact absurd (List.append_eq_nil_iff.mp empty).2 something
  · intro moved data
    have atomic := (control_of_committed accepted created events).2 moved
    have declared := declared_of_atomic atomic
    exact dispatch_init_of_ne_root (Hierarchy.ne_root_of_declared accepted.distinctNames declared)
      data

omit accepted

/-- Switched on, the player is first entered, then leaves its resting state, and then goes
further inwards twice. -/
theorem player_fits : Player.definition.TransitionKind
      [.internalTransition "nok" "init" "nok" none "identity" "Off" 0,
        .internalTransition "Off" "on" "Off" none "identity" "On" 0]
      (.internalTransition "On" "init" "On" none "identity" "Playing" 1) ∧
    ((Player.machine.after [Player.press "on"]).dispatch ⟨initEvent, (0 : Nat)⟩).committed =
      [] := by
  have committed : (create Player.definition {}).committed ++
      Player.machine.committed [Player.press "on"]
      = [.internalTransition "nok" "init" "nok" none "identity" "Off" 0,
          .internalTransition "Off" "on" "Off" none "identity" "On" 0,
          .internalTransition "On" "init" "On" none "identity" "Playing" 1,
          .internalTransition "Playing" "init" "Playing" none "identity" "Slow" 2] := by
            decide +kernel
  obtain ⟨fit, ignored⟩ := committed_fit Player.accepted Player.created [Player.press "on"]
  rw [committed] at fit ignored
  exact ⟨(fit [_, _] _ [_] rfl).kind, (ignored (by simp) (0 : Nat)).2.2⟩

end Machine

end Statechart
