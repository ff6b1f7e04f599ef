import Mathlib.Logic.Relation
import Statechart.Machine.Lookup
import Statechart.Machine.Step

set_option autoImplicit false

namespace Statechart

open StateNode

variable {M : Model}

namespace GuardedTarget

/-- A target is refused if it has a guard that answers no. -/
def Refused (guarded : GuardedTarget M) (settings : Settings) (ext : M.Ext) (data : M.Data) :
    Prop :=
  ∃ guard, guarded.guard = some guard ∧ guard.check ext data settings = .ok false

/-- A target is admitted if it has no guard or its guard answers yes. -/
def Admitted (guarded : GuardedTarget M) (settings : Settings) (ext : M.Ext) (data : M.Data) :
    Prop :=
  ∀ guard, guarded.guard = some guard → guard.check ext data settings = .ok true

/-- Going through targets in order comes to a target, as all those before it are refused. -/
def ReachedIn (guarded : GuardedTarget M) (targets : List (GuardedTarget M)) (settings : Settings)
    (ext : M.Ext) (data : M.Data) : Prop :=
  ∃ earlier later, targets = earlier ++ guarded :: later ∧
    ∀ other ∈ earlier, other.Refused settings ext data

end GuardedTarget

/-- The states around a state, listed from the innermost outwards. -/
structure StateNode.ListsAround (states : List StateNode) (state : String) (around : List String) :
    Prop where
  outwards : around.Pairwise (fun inner outer => Encloses states outer inner)
  complete : ∀ outer, outer ∈ around ↔ Encloses states outer state

/-- What a micro-step comes to, unless it fails. -/
inductive MicroOutcome (M : Model) where
  | unhandled
  | refused
  | entered (outputs : Option (List M.Output)) (next : Runtime M)

/-- Where a loop over micro-steps stands: how many steps were made, the runtime, the outputs so
far, and the event that is pending, if any is. -/
structure MicroState (M : Model) where
  made : Nat
  runtime : Runtime M
  outputs : List M.Output
  pending : Option String

namespace MachineDefinition

/-- In a runtime an event takes a target: it is the first one admitted in the row that handles
the event. -/
structure Chooses (definition : MachineDefinition M) (settings : Settings) (data : M.Data)
    (runtime : Runtime M) (event : String) (external : Bool)
    (guarded : GuardedTarget M) : Prop where
  reached : ∃ handler row, definition.HandledBy runtime.control event external handler row ∧
    guarded.ReachedIn row.targets settings runtime.ext data
  admitted : guarded.Admitted settings runtime.ext data

/-- The history after the current state of a runtime is left. -/
def Leaves (definition : MachineDefinition M) (runtime : Runtime M) (history : HistoryStore) :
    Prop :=
  ∃ around, ListsAround definition.states runtime.control around ∧
    history = runtime.history.recordExit runtime.control around

/-- One step on an event. Guards are asked first, then the action runs, then the reducer folds
its updates in, and at last the exit is recorded and the target entered; the first of these to
fail decides. -/
inductive MicroStep (definition : MachineDefinition M) (settings : Settings) (data : M.Data)
    (runtime : Runtime M) (event : String)
    (external : Bool) : Except (DispatchError M) (MicroOutcome M) → Prop where
  | unhandled (nowhere : ∀ handler row,
    ¬ definition.HandledBy runtime.control event external handler row) :
    MicroStep definition settings data runtime event external (.ok .unhandled)
  | refused {handler : String} {row : Transition M}
    (handled : definition.HandledBy runtime.control event external handler row)
    (all : ∀ guarded ∈ row.targets, guarded.Refused settings runtime.ext data) :
    MicroStep definition settings data runtime event external (.ok .refused)
  | guardFailed {handler source : String} {row : Transition M} {guarded : GuardedTarget M}
    {guard : Guard M} (handled : definition.HandledBy runtime.control event external handler row)
    (reached : guarded.ReachedIn row.targets settings runtime.ext data)
    (isGuard : guarded.guard = some guard)
    (failed : guard.check runtime.ext data settings = .error source) :
    MicroStep definition settings data runtime event external
      (.error (.guardFailed guard.name ⟨runtime.control, event, runtime.ext, data⟩ source))
  | actionFailed {source : String} {guarded : GuardedTarget M}
    (chosen : definition.Chooses settings data runtime event external guarded)
    (failed : guarded.action.run runtime.ext data settings = .error source) :
    MicroStep definition settings data runtime event external
      (.error (.actionFailed guarded.action.name
        ⟨runtime.control, event, runtime.ext, data⟩ source))
  | reducerFailed {source : String} {guarded : GuardedTarget M} {result : ActionResult M}
    (chosen : definition.Chooses settings data runtime event external guarded)
    (ran : guarded.action.run runtime.ext data settings = .ok result)
    (failed : definition.reducer runtime.ext result.updates = .error source) :
    MicroStep definition settings data runtime event external
      (.error (.reducerFailed guarded.action.name
        ⟨runtime.control, event, runtime.ext, data⟩ result.updates source))
  | unknownTarget {guarded : GuardedTarget M} {result : ActionResult M} {ext : M.Ext}
    {history : HistoryStore}
    (chosen : definition.Chooses settings data runtime event external guarded)
    (ran : guarded.action.run runtime.ext data settings = .ok result)
    (folded : definition.reducer runtime.ext result.updates = .ok ext)
    (left : definition.Leaves runtime history)
    (unknown : ¬ Declared definition.states (guarded.target.resolve history)) :
    MicroStep definition settings data runtime event external
      (.error (.unknownTarget runtime.control event (guarded.target.resolve history)))
  | entered {guarded : GuardedTarget M} {result : ActionResult M} {ext : M.Ext}
    {history : HistoryStore}
    (chosen : definition.Chooses settings data runtime event external guarded)
    (ran : guarded.action.run runtime.ext data settings = .ok result)
    (folded : definition.reducer runtime.ext result.updates = .ok ext)
    (left : definition.Leaves runtime history)
    (known : Declared definition.states (guarded.target.resolve history)) :
    MicroStep definition settings data runtime event external
      (.ok (.entered result.outputs ⟨guarded.target.resolve history, ext, history⟩))

/-- What is pending once a state was entered: the event that entering it raises, if a row of the
state itself is on it. -/
def LeavesPending (definition : MachineDefinition M) (state : String) : Option String → Prop
  | some event => definition.Raises state event ∧ definition.Handles state event
  | none => ∀ event, definition.Raises state event → ¬ definition.Handles state event

/-- The loop goes on by a step on the event that is pending, if there is room for one more. -/
inductive Advances (definition : MachineDefinition M) (settings : Settings) (data : M.Data) :
    MicroState M → MicroState M → Prop where
  | enter {made : Nat} {runtime next : Runtime M} {outputs : List M.Output} {event : String}
    {produced : Option (List M.Output)} {pending : Option String}
    (room : made ≤ settings.maxCascadeDepth)
    (step : definition.MicroStep settings data runtime event (made = 0)
      (.ok (.entered produced next)))
    (raised : definition.LeavesPending next.control pending) :
    Advances definition settings data ⟨made, runtime, outputs, some event⟩
      ⟨made + 1, next, outputs ++ produced.getD [], pending⟩

/-- The loop is over, and what it comes to. A pending event that is refused ends it as if
nothing were pending, unless it is the one that was dispatched. -/
inductive Halts (definition : MachineDefinition M) (settings : Settings) (data : M.Data) :
    MicroState M → Except (DispatchError M) (DispatchOutcome M.Output) → Prop where
  | settled (made : Nat) (runtime : Runtime M) (outputs : List M.Output) :
    Halts definition settings data ⟨made, runtime, outputs, none⟩ (.ok (.transitioned outputs))
  | refused {made : Nat} {runtime : Runtime M} {outputs : List M.Output} {event : String}
    (moved : made ≠ 0) (room : made ≤ settings.maxCascadeDepth)
    (step : definition.MicroStep settings data runtime event (made = 0) (.ok .refused)) :
    Halts definition settings data ⟨made, runtime, outputs, some event⟩
    (.ok (.transitioned outputs))
  | unhandled {runtime : Runtime M} {outputs : List M.Output} {event : String}
    (step : definition.MicroStep settings data runtime event true (.ok .unhandled)) :
    Halts definition settings data ⟨0, runtime, outputs, some event⟩
    (.ok (.unhandled runtime.control event))
  | noGuardSatisfied {runtime : Runtime M} {outputs : List M.Output} {event : String}
    (step : definition.MicroStep settings data runtime event true (.ok .refused)) :
    Halts definition settings data ⟨0, runtime, outputs, some event⟩
    (.ok (.noGuardSatisfied runtime.control event))
  | failed {made : Nat} {runtime : Runtime M} {outputs : List M.Output} {event : String}
    {error : DispatchError M} (room : made ≤ settings.maxCascadeDepth)
    (step : definition.MicroStep settings data runtime event (made = 0) (.error error)) :
    Halts definition settings data ⟨made, runtime, outputs, some event⟩ (.error error)
  | exceeded {made : Nat} {runtime : Runtime M} {outputs : List M.Output} {event : String}
    (full : settings.maxCascadeDepth < made) :
    Halts definition settings data ⟨made, runtime, outputs, some event⟩
      (.error (.cascadeLimitExceeded runtime.control settings.maxCascadeDepth))

/-- What an event comes to in a runtime, with the runtime after it: that of the last step, or
the one before if a step failed. -/
inductive Evaluates (definition : MachineDefinition M) (settings : Settings) (runtime : Runtime M)
    (event : Event M.Data) :
    Except (DispatchError M) (DispatchOutcome M.Output) → Runtime M → Prop where
  | settled {last : MicroState M} {outcome : DispatchOutcome M.Output}
    (run : Relation.ReflTransGen (definition.Advances settings event.data)
      ⟨0, runtime, [], some event.name⟩ last)
    (halts : definition.Halts settings event.data last (.ok outcome)) :
    Evaluates definition settings runtime event (.ok outcome) last.runtime
  | failed {last : MicroState M} {error : DispatchError M}
    (run : Relation.ReflTransGen (definition.Advances settings event.data)
      ⟨0, runtime, [], some event.name⟩ last)
    (halts : definition.Halts settings event.data last (.error error)) :
    Evaluates definition settings runtime event (.error error) runtime

end MachineDefinition

end Statechart
