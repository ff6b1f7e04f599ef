import Statechart.Machine.Step

set_option autoImplicit false

namespace Statechart

/-- What the steps of a dispatch come to: the reports of the transitions taken, and the outcome
with the new runtime, or the error of the first step that failed. -/
structure CascadeResult (M : Model) where
  reports : List TraceKind
  result : Except (DispatchError M) (DispatchOutcome M.Output × Runtime M)

/-- What a dispatch comes to: the outcome, the machine after it, and the reports made. -/
structure DispatchResult (M : Model) where
  result : Except (DispatchError M) (DispatchOutcome M.Output)
  machine : Machine M
  reports : List TraceKind

namespace CascadeResult

variable {M : Model}

/-- Puts a step in front of what followed it. A step on which nothing followed still counts as
taken. -/
def prepend (step : TakenStep M) (depth : Nat) (rest : CascadeResult M) : CascadeResult M where
  reports := step.report depth :: rest.reports
  result := rest.result.map (fun (outcome, runtime) =>
    (.transitioned (step.outputs.getD [] ++ outcome.outputs?.getD []), runtime))

end CascadeResult

namespace Machine

variable {M : Model}

/-- A step on an event, and what follows it if the state entered raises an event of its own. The
depth counts the steps before this one. -/
def advance (machine : Machine M) (data : M.Data) (depth : Nat) (runtime : Runtime M)
    (event : String) (follow : Runtime M → String → CascadeResult M) : CascadeResult M :=
  match machine.step runtime event data (depth = 0) with
  | .error error => ⟨[], .error error⟩
  | .ok .unhandled => ⟨[], .ok (.unhandled runtime.control event, runtime)⟩
  | .ok .noGuardSatisfied => ⟨[], .ok (.noGuardSatisfied runtime.control event, runtime)⟩
  | .ok (.taken step) =>
    match machine.cascadeEvent step.next.control with
    | none => .prepend step depth ⟨[], .ok (.transitioned [], step.next)⟩
    | some raised => .prepend step depth (follow step.next raised)

/-- The steps on an event, of which `room` more may follow the first. -/
def cascade (machine : Machine M) (data : M.Data) :
    (room depth : Nat) → Runtime M → String → CascadeResult M
  | 0, depth, runtime, event => machine.advance data depth runtime event (fun next _ =>
    ⟨[], .error (.cascadeLimitExceeded next.control machine.settings.maxCascadeDepth)⟩)
  | room + 1, depth, runtime, event => machine.advance data depth runtime event (fun next raised =>
    machine.cascade data room (depth + 1) next raised)

/-- Dispatches an event: a first step, then the steps that entering states raises, until the
machine rests or has gone further than its settings allow. If any step fails the machine is left
as it was. -/
def dispatch (machine : Machine M) (event : Event M.Data) : DispatchResult M :=
  if event.name = "" then ⟨.error (.malformed .emptyName), machine, []⟩
  else
    let received := TraceKind.eventReceived event.name machine.runtime.control
    let run := machine.cascade event.data machine.settings.maxCascadeDepth 0 machine.runtime
      event.name
    match run.result with
    | .ok (outcome, runtime) =>
      ⟨.ok outcome, { machine with runtime },
        received :: run.reports ++
          [.eventSettled event.name runtime.control outcome.isTransitioned]⟩
    | .error error =>
      ⟨.error error, machine,
        received :: run.reports ++ [.eventFailed event.name machine.runtime.control error.message]⟩

def dispatchEnvelope (machine : Machine M) (payload : PayloadReader M.Data) (value : Json) :
    DispatchResult M :=
  match Event.ofEnvelope M.noData payload value with
  | .ok event => machine.dispatch event
  | .error reason => ⟨.error (.malformed reason), machine, []⟩

/-- Whether a state is the current one or one around it. -/
def isIn (machine : Machine M) (state : String) : Bool :=
  (machine.indices.hierarchy.lineage machine.runtime.control).contains state

def text (machine : Machine M) (identity : String) : String :=
  Text.partialRecord "Machine"
    [("id", identity), ("control_state", Text.quoted machine.runtime.control),
    ("extended_state", M.extText machine.runtime.ext), ("history", machine.runtime.history.text)]

end Machine

end Statechart
