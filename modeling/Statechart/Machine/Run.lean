import Statechart.Machine.Create

set_option autoImplicit false

namespace Statechart

namespace TraceKind

def isTransition : TraceKind → Bool
  | .internalTransition _ _ _ _ _ _ _ => true
  | .machineCreated _ _ | .eventReceived _ _ | .eventSettled _ _ _ | .eventFailed _ _ _ => false

/-- The state a report says was left. -/
def left? : TraceKind → Option String
  | .internalTransition origin _ _ _ _ _ _ => some origin
  | .machineCreated _ _ | .eventReceived _ _ | .eventSettled _ _ _ | .eventFailed _ _ _ => none

end TraceKind

variable {M : Model}

/-- The transitions a dispatch committed, in order. -/
def DispatchResult.committed (result : DispatchResult M) : List TraceKind :=
  match result.result with
  | .ok _ => result.reports.filter TraceKind.isTransition
  | .error _ => []

/-- The transitions committed when a machine was created. -/
def Creation.committed (creation : Creation M) : List TraceKind :=
  match creation.result with
  | .ok _ => creation.reports.filter TraceKind.isTransition
  | .error _ => []

namespace Machine

def after (machine : Machine M) : List (Event M.Data) → Machine M
  | [] => machine
  | event :: rest => (machine.dispatch event).machine.after rest

/-- The transitions that a sequence of events committed. -/
def committed (machine : Machine M) : List (Event M.Data) → List TraceKind
  | [] => []
  | event :: rest =>
    (machine.dispatch event).committed ++ (machine.dispatch event).machine.committed rest

def statesLeft (log : List TraceKind) : List String :=
  log.filterMap TraceKind.left?

/-- No row without an event may be taken from the current state: each of its targets is guarded,
and no guard holds. -/
def Quiescent (machine : Machine M) (data : M.Data) : Prop :=
  ∀ row ∈ machine.transitions, row.origin = machine.runtime.control → row.event = none →
    ∀ guarded ∈ row.targets, ∃ guard, guarded.guard = some guard ∧
      guard.check machine.runtime.ext data machine.settings = .ok false

end Machine

/-- A call of a machine: an event to dispatch, or an envelope that holds one. -/
inductive Call (M : Model) where
  | event (event : Event M.Data)
  | envelope (value : Json)

/-- A call with its answer. -/
structure AnsweredCall (M : Model) where
  call : Call M
  answer : Except (DispatchError M) (DispatchOutcome M.Output)

/-- Whether the answer to a call tells of a transition. An error does not, nor does an event
that was not handled or met no guard that holds. -/
def AnsweredCall.isEffective (entry : AnsweredCall M) : Bool :=
  match entry.answer with
  | .ok outcome => outcome.isTransitioned
  | .error _ => false

namespace Machine

def call (machine : Machine M) (payload : PayloadReader M.Data) : Call M → DispatchResult M
  | .event event => machine.dispatch event
  | .envelope value => machine.dispatchEnvelope payload value

def afterCalls (machine : Machine M) (payload : PayloadReader M.Data) : List (Call M) → Machine M
  | [] => machine
  | call :: rest => (machine.call payload call).machine.afterCalls payload rest

def transcript (machine : Machine M) (payload : PayloadReader M.Data) :
    List (Call M) → List (AnsweredCall M)
  | [] => []
  | call :: rest =>
    ⟨call, (machine.call payload call).result⟩ ::
      (machine.call payload call).machine.transcript payload rest

end Machine

/-- The last item of a list that has a property. -/
def IsLast {α : Type} (holds : α → Prop) (items : List α) (item : α) : Prop :=
  ∃ earlier later, items = earlier ++ item :: later ∧ holds item ∧ ∀ other ∈ later, ¬ holds other

end Statechart
