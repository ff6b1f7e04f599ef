import Statechart.Proofs.Contract.Accepted
import Statechart.Proofs.Machine.Chain

set_option autoImplicit false

namespace Statechart

variable {M : Model}

namespace TakenStep

theorem filter_reports (depth : Nat) (steps : List (TakenStep M)) :
    (reports depth steps).filter TraceKind.isTransition = reports depth steps := by
  induction steps generalizing depth with
  | nil => rfl
  | cons step rest ih =>
    rw [reports, List.filter_cons_of_pos rfl, ih]

theorem reports_eq_nil_iff (depth : Nat) (steps : List (TakenStep M)) :
    reports depth steps = [] ↔ steps = [] := by
  cases steps with
  | nil => exact ⟨fun _ => rfl, fun _ => rfl⟩
  | cons step rest => exact iff_of_false (List.cons_ne_nil _ _) (List.cons_ne_nil _ _)

end TakenStep

namespace Machine

open TakenStep

/-- The ways in which a dispatch may end, with everything it reports. -/
inductive Settles (machine : Machine M) (event : Event M.Data) : DispatchResult M → Prop where
  | nameless (nameless : event.name = "") :
      Settles machine event ⟨.error (.malformed .emptyName), machine, []⟩
  | settled {steps : List (TakenStep M)} {outcome : DispatchOutcome M.Output} {last : Runtime M}
    (named : event.name ≠ "")
    (finished : Finishes machine event.data machine.settings.maxCascadeDepth true machine.runtime
      event.name steps (.ok (outcome, last))) :
    Settles machine event ⟨.ok outcome, { machine with runtime := last },
      .eventReceived event.name machine.runtime.control :: reports 0 steps
        ++ [.eventSettled event.name last.control outcome.isTransitioned]⟩
  | failed {steps : List (TakenStep M)} {error : DispatchError M} (named : event.name ≠ "")
    (finished : Finishes machine event.data machine.settings.maxCascadeDepth true machine.runtime
      event.name steps (.error error)) :
    Settles machine event ⟨.error error, machine,
      .eventReceived event.name machine.runtime.control :: reports 0 steps
        ++ [.eventFailed event.name machine.runtime.control error.message]⟩

theorem dispatch_settles (machine : Machine M) (event : Event M.Data) :
    Settles machine event (machine.dispatch event) := by
  unfold dispatch
  by_cases nameless : event.name = ""
  · rw [if_pos nameless]
    exact Settles.nameless nameless
  · rw [if_neg nameless]
    obtain ⟨steps, reported, finished⟩ :=
      machine.cascade_finishes event.data machine.settings.maxCascadeDepth 0 machine.runtime
        event.name
    dsimp only
    cases came : (machine.cascade event.data machine.settings.maxCascadeDepth 0 machine.runtime
        event.name).result with
    | ok result =>
      rw [came] at finished
      dsimp only
      rw [reported]
      exact Settles.settled nameless finished
    | error error =>
      rw [came] at finished
      dsimp only
      rw [reported]
      exact Settles.failed nameless finished

/-- A dispatch that succeeds comes to where its recursion comes to, and commits what that
reports. -/
theorem cascade_of_dispatch {machine : Machine M} {event : Event M.Data}
    {outcome : DispatchOutcome M.Output} (settled : (machine.dispatch event).result = .ok outcome) :
    ∃ last, (machine.cascade event.data machine.settings.maxCascadeDepth 0 machine.runtime
        event.name).result = .ok (outcome, last) ∧
      (machine.dispatch event).machine = { machine with runtime := last } ∧
      (machine.dispatch event).committed
        = (machine.cascade event.data machine.settings.maxCascadeDepth 0 machine.runtime
          event.name).reports := by
  obtain ⟨steps, reported, _⟩ :=
    machine.cascade_finishes event.data machine.settings.maxCascadeDepth 0 machine.runtime
      event.name
  have transitions := (congrArg (List.filter TraceKind.isTransition) reported).trans
    (filter_reports 0 steps)
  rw [DispatchResult.committed, settled]
  dsimp only
  unfold dispatch at settled ⊢
  by_cases nameless : event.name = ""
  · rw [if_pos nameless] at settled
    cases settled
  · rw [if_neg nameless] at settled ⊢
    dsimp only at settled ⊢
    cases came : (machine.cascade event.data machine.settings.maxCascadeDepth 0 machine.runtime
        event.name).result with
    | error error =>
      rw [came] at settled
      cases settled
    | ok result =>
      rw [came] at settled
      cases settled
      refine ⟨result.2, rfl, rfl, ?_⟩
      dsimp only
      rw [List.cons_append, List.filter_cons_of_neg Bool.false_ne_true, List.filter_append,
        transitions, reported]
      exact List.append_nil _

theorem dispatch_of_ok {machine : Machine M} {event : Event M.Data}
    {outcome : DispatchOutcome M.Output} (settled : (machine.dispatch event).result = .ok outcome) :
    ∃ steps last,
      Finishes machine event.data machine.settings.maxCascadeDepth true machine.runtime
        event.name steps (.ok (outcome, last)) ∧
      (machine.dispatch event).machine = { machine with runtime := last } ∧
      (machine.dispatch event).committed = reports 0 steps := by
  obtain ⟨last, came, same, committed⟩ := cascade_of_dispatch settled
  obtain ⟨steps, reported, finished⟩ :=
    machine.cascade_finishes event.data machine.settings.maxCascadeDepth 0 machine.runtime
      event.name
  rw [came] at finished
  exact ⟨steps, last, finished, same, committed.trans reported⟩

theorem dispatch_of_error {machine : Machine M} {event : Event M.Data} {error : DispatchError M}
    (failed : (machine.dispatch event).result = .error error) :
    (machine.dispatch event).machine = machine ∧ (machine.dispatch event).committed = [] ∧
      ((event.name = "" ∧ error = .malformed .emptyName) ∨ event.name ≠ "" ∧ ∃ steps,
        Finishes machine event.data machine.settings.maxCascadeDepth true machine.runtime event.name
          steps (.error error)) := by
  have settles := machine.dispatch_settles event
  unfold DispatchResult.committed
  generalize machine.dispatch event = result at settles failed ⊢
  cases settles with
  | nameless nameless =>
    cases failed
    exact ⟨rfl, rfl, Or.inl ⟨nameless, rfl⟩⟩
  | settled named finished => cases failed
  | @failed steps _ named finished =>
    cases failed
    exact ⟨rfl, rfl, Or.inr ⟨named, steps, finished⟩⟩

theorem cascade_eq_advance (machine : Machine M) (data : M.Data) (room depth : Nat)
    (runtime : Runtime M) (event : String) :
    ∃ follow, machine.cascade data room depth runtime event =
      machine.advance data depth runtime event follow := by
  cases room with
  | zero => exact ⟨_, rfl⟩
  | succ room => exact ⟨_, rfl⟩

/-- A first step that takes no transition is all there is to a dispatch. -/
theorem dispatch_of_idle {machine : Machine M} {event : Event M.Data}
    {outcome : DispatchOutcome M.Output} (named : event.name ≠ "")
      (ran : ∀ follow, machine.advance event.data 0 machine.runtime event.name follow
      = ⟨[], .ok (outcome, machine.runtime)⟩) :
    machine.dispatch event =
      ⟨.ok outcome, machine, [.eventReceived event.name machine.runtime.control,
      .eventSettled event.name machine.runtime.control outcome.isTransitioned]⟩ := by
  have whole : machine.cascade event.data machine.settings.maxCascadeDepth 0
      machine.runtime event.name = ⟨[], .ok (outcome, machine.runtime)⟩ := by
    obtain ⟨follow, unfolded⟩ :=
      machine.cascade_eq_advance event.data machine.settings.maxCascadeDepth 0 machine.runtime
        event.name
    rw [unfolded, ran]
  rw [dispatch, if_neg named]
  simp only [whole]
  rfl

/-- Everything about a machine but its runtime comes from its definition and settings. -/
structure MadeFrom (machine : Machine M) (definition : MachineDefinition M) (settings : Settings) :
    Prop where
  settings : machine.settings = settings
  transitions : machine.transitions = definition.rows
  reducer : machine.reducer = definition.reducer
  indices : machine.indices = definition.indices

theorem MadeFrom.unstarted (definition : MachineDefinition M) (settings : Settings) :
    (unstarted definition settings).MadeFrom definition settings :=
  ⟨rfl, rfl, rfl, rfl⟩

theorem MadeFrom.dispatch {machine : Machine M} {definition : MachineDefinition M}
    {settings : Settings} (made : machine.MadeFrom definition settings) (event : Event M.Data) :
    (machine.dispatch event).machine.MadeFrom definition settings := by
  cases result : (machine.dispatch event).result with
  | ok outcome =>
    obtain ⟨_, _, _, same, _⟩ := dispatch_of_ok result
    rw [same]
    exact ⟨made.settings, made.transitions, made.reducer, made.indices⟩
  | error error =>
    rw [(dispatch_of_error result).1]
    exact made

/-- Every step that is taken keeps a property of the transitions so far and the runtime they led
to. -/
def StepsKeep (machine : Machine M) (holds : List TraceKind → Runtime M → Prop) : Prop :=
  ∀ log runtime event data external step depth, holds log runtime →
    machine.step runtime event data external = .ok (.taken step) →
    holds (log ++ [step.report depth]) step.next

theorem Chain.keeps {machine : Machine M} {data : M.Data}
    {holds : List TraceKind → Runtime M → Prop} {external : Bool} {runtime last : Runtime M}
    {event : String} {steps : List (TakenStep M)} {pending : Option String}
    (chain : Chain machine data external runtime event steps last pending)
    (kept : machine.StepsKeep holds) (log : List TraceKind) (depth : Nat)
    (before : holds log runtime) :
    holds (log ++ reports depth steps) last := by
  induction chain generalizing log depth with
  | start =>
    rw [reports, List.append_nil]
    exact before
  | rest taken quiet => exact kept _ _ _ _ _ _ depth before taken
  | @follow _ _ _ step _ _ _ _ taken raises onward ih =>
    have next := ih _ (depth + 1) (kept _ _ _ _ _ _ depth before taken)
    rw [List.append_assoc] at next
    exact next

theorem Finishes.exists_chain {machine : Machine M} {data : M.Data} {room : Nat} {external : Bool}
    {runtime last : Runtime M} {event : String} {steps : List (TakenStep M)}
    {outcome : DispatchOutcome M.Output}
    (finished : Finishes machine data room external runtime event steps (.ok (outcome, last))) :
    ∃ pending, Chain machine data external runtime event steps last pending := by
  cases finished with
  | rested chain _ => exact ⟨_, chain⟩
  | unhandled chain _ _ => exact ⟨_, chain⟩
  | noGuardSatisfied chain _ _ => exact ⟨_, chain⟩

/-- What every step keeps, a dispatch keeps, whether it succeeds or not. -/
theorem dispatch_keeps {machine : Machine M} {holds : List TraceKind → Runtime M → Prop}
    (kept : machine.StepsKeep holds) (event : Event M.Data) (log : List TraceKind)
    (before : holds log machine.runtime) :
    holds (log ++ (machine.dispatch event).committed) (machine.dispatch event).machine.runtime := by
  cases result : (machine.dispatch event).result with
  | ok outcome =>
    obtain ⟨steps, last, finished, same, committed⟩ := dispatch_of_ok result
    obtain ⟨_, chain⟩ := finished.exists_chain
    rw [same, committed]
    exact chain.keeps kept log 0 before
  | error error =>
    obtain ⟨same, committed, _⟩ := dispatch_of_error result
    rw [same, committed, List.append_nil]
    exact before

/-- What every dispatch keeps, a run keeps. -/
theorem after_keeps (holds : List TraceKind → Machine M → Prop)
    (kept : ∀ log machine event, holds log machine →
      holds (log ++ (machine.dispatch event).committed) (machine.dispatch event).machine)
    {machine : Machine M} {log : List TraceKind} (before : holds log machine)
      (events : List (Event M.Data)) :
    holds (log ++ machine.committed events) (machine.after events) := by
  induction events generalizing machine log with
  | nil =>
    rw [committed, List.append_nil]
    exact before
  | cons event rest ih =>
    rw [committed, after, ← List.append_assoc]
    exact ih (kept log machine event before)

theorem MadeFrom.after {machine : Machine M} {definition : MachineDefinition M}
    {settings : Settings} (made : machine.MadeFrom definition settings)
    (events : List (Event M.Data)) :
    (machine.after events).MadeFrom definition settings := by
  induction events generalizing machine with
  | nil => exact made
  | cons event rest ih => exact ih (made.dispatch event)

/-- The ways in which creating a machine may end. -/
inductive Creates (definition : MachineDefinition M) (settings : Settings) : Creation M → Prop where
  | rejected {violations : ContractError}
    (checked : check definition settings = .error violations) :
    Creates definition settings ⟨.error (.contracts violations), []⟩
  | noStart (checked : check definition settings = .ok ())
    (none : definition.indices.tables.startRows = []) :
    Creates definition settings ⟨.error .missingInitialTransition, []⟩
  | started {outcome : DispatchOutcome M.Output} (checked : check definition settings = .ok ())
    (settled : ((unstarted definition settings).dispatch ⟨initEvent, M.noData⟩).result =
      .ok outcome) :
    Creates definition settings
      ⟨.ok { ((unstarted definition settings).dispatch ⟨initEvent, M.noData⟩).machine with
          initialOutputs := outcome.outputs?.getD [] },
        (unstarted definition settings).creationReport
          :: ((unstarted definition settings).dispatch ⟨initEvent, M.noData⟩).reports⟩
  | stopped {reason : DispatchError M} (checked : check definition settings = .ok ())
    (failed : ((unstarted definition settings).dispatch ⟨initEvent, M.noData⟩).result =
      .error reason) :
    Creates definition settings
      ⟨.error (.initialization reason),
        (unstarted definition settings).creationReport
          :: ((unstarted definition settings).dispatch ⟨initEvent, M.noData⟩).reports⟩

theorem create_creates (definition : MachineDefinition M) (settings : Settings) :
    Creates definition settings (create definition settings) := by
  unfold create
  cases checked : check definition settings with
  | error violations => exact Creates.rejected checked
  | ok passed =>
    dsimp only
    by_cases noStart : definition.indices.tables.startRows = []
    · rw [if_pos noStart]
      exact Creates.noStart checked noStart
    · rw [if_neg noStart]
      unfold start
      dsimp only
      cases started : ((unstarted definition settings).dispatch ⟨initEvent, M.noData⟩).result with
      | ok outcome => exact Creates.started checked started
      | error reason => exact Creates.stopped checked started

variable {definition : MachineDefinition M} {settings : Settings} {machine : Machine M}

/-- A machine that was created is the unstarted one after the dispatch of init, with the outputs
of that. -/
theorem create_eq_ok (created : (create definition settings).result = .ok machine) :
    ∃ outcome, ((unstarted definition settings).dispatch ⟨initEvent, M.noData⟩).result =
      .ok outcome ∧
      machine = { ((unstarted definition settings).dispatch ⟨initEvent, M.noData⟩).machine with
        initialOutputs := outcome.outputs?.getD [] } ∧
      (create definition settings).committed
        = ((unstarted definition settings).dispatch ⟨initEvent, M.noData⟩).committed := by
  have creates := create_creates definition settings
  unfold Creation.committed DispatchResult.committed
  generalize create definition settings = creation at creates created ⊢
  cases creates with
  | rejected checked => cases created
  | noStart checked none => cases created
  | stopped checked failed => cases created
  | @started outcome checked settled =>
    cases created
    rw [settled]
    exact ⟨outcome, rfl, rfl, List.filter_cons_of_neg Bool.false_ne_true⟩

theorem MadeFrom.created (created : (create definition settings).result = .ok machine) :
    machine.MadeFrom definition settings := by
  obtain ⟨_, _, rfl, _⟩ := create_eq_ok created
  have made := (MadeFrom.unstarted definition settings).dispatch ⟨initEvent, M.noData⟩
  exact ⟨made.settings, made.transitions, made.reducer, made.indices⟩

/-- What holds at first and is kept by every dispatch holds throughout the runs of a machine
that was created. -/
theorem created_keeps (holds : List TraceKind → Runtime M → Prop)
    (created : (create definition settings).result = .ok machine)
    (first : holds [] ⟨rootName, definition.initialExt, .empty⟩)
    (kept : ∀ (machine : Machine M) event log, machine.MadeFrom definition settings →
      holds log machine.runtime →
      holds (log ++ (machine.dispatch event).committed) (machine.dispatch event).machine.runtime)
    (events : List (Event M.Data)) :
    holds ((create definition settings).committed ++ machine.committed events)
        (machine.after events).runtime := by
  refine (after_keeps (fun log machine =>
    machine.MadeFrom definition settings ∧ holds log machine.runtime) ?_ ?_ events).2
  · intro log machine event before
    exact ⟨before.1.dispatch event, kept machine event log before.1 before.2⟩
  · refine ⟨MadeFrom.created created, ?_⟩
    obtain ⟨_, _, rfl, same⟩ := create_eq_ok created
    have started := kept (unstarted definition settings) ⟨initEvent, M.noData⟩ []
      (MadeFrom.unstarted definition settings)
      first
    rw [List.nil_append] at started
    rw [same]
    exact started

end Machine

namespace Player

def machine : Machine model :=
  match (Machine.create definition {}).result with
  | .ok machine => machine
  | .error _ => .unstarted definition {}

theorem created : (Machine.create definition {}).result = .ok machine := by
  have succeeded : (Machine.create definition {}).result.isOk = true := by decide +kernel
  unfold machine
  cases result : (Machine.create definition {}).result with
  | ok machine => rfl
  | error error =>
    rw [result] at succeeded
    cases succeeded

end Player

end Statechart
