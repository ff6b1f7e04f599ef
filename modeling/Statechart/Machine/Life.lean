import Statechart.Machine.Protocol
import Statechart.Machine.Run

set_option autoImplicit false

namespace Statechart

variable {M : Model}

/-- What can be seen of a dispatch. -/
structure Observation (M : Model) where
  answer : Except (DispatchError M) (DispatchOutcome M.Output)
  after : Runtime M
  reports : List TraceKind

/-- What can be seen of a machine: its creation, with the runtime and the outputs if it
succeeds, and the dispatches. -/
structure Life (M : Model) where
  created : Except (BuildError M) (Runtime M × List M.Output)
  reports : List TraceKind
  dispatches : List (Observation M)

namespace Machine

def observe (machine : Machine M) (event : Event M.Data) : Observation M :=
  ⟨(machine.dispatch event).result, (machine.dispatch event).machine.runtime,
    (machine.dispatch event).reports⟩

def observations (machine : Machine M) : List (Event M.Data) → List (Observation M)
  | [] => []
  | event :: rest => machine.observe event :: (machine.dispatch event).machine.observations rest

/-- What can be seen of the machine of a definition, given a sequence of events. -/
def life (definition : MachineDefinition M) (settings : Settings) (events : List (Event M.Data)) :
    Life M :=
  let creation := create definition settings
  { created := creation.result.map (fun machine => (machine.runtime, machine.initialOutputs))
    reports := creation.reports
    dispatches :=
      match creation.result with
      | .ok machine => machine.observations events
      | .error _ => [] }

end Machine

/-- The same definition with its rows, its declared events and the siblings among its states in
another order. The targets of each row keep theirs. -/
structure MachineDefinition.Rearranged (definition other : MachineDefinition M) : Prop where
  states : StateNode.Rearranged definition.states other.states
  events : definition.events.Perm other.events
  transitions : definition.transitions.Perm other.transitions
  initialExt : other.initialExt = definition.initialExt
  initialState : other.initialState = definition.initialState
  reducer : other.reducer = definition.reducer

def Settings.withCascadeLimit (settings : Settings) (limit : Nat) : Settings :=
  { settings with maxCascadeDepth := limit }

/-- The guard and the action of a target do not look at the limit. -/
structure GuardedTarget.IgnoresLimit (guarded : GuardedTarget M) : Prop where
  guard : ∀ guard, guarded.guard = some guard → ∀ ext data (settings : Settings) limit,
    guard.check ext data (settings.withCascadeLimit limit) = guard.check ext data settings
  action : ∀ ext data (settings : Settings) limit,
    guarded.action.run ext data (settings.withCascadeLimit limit) =
      guarded.action.run ext data settings

/-- No callback of a definition looks at the limit. The reducer is not shown any settings. -/
def MachineDefinition.IgnoresLimit (definition : MachineDefinition M) : Prop :=
  ∀ row ∈ definition.transitions, ∀ guarded ∈ row.targets, guarded.IgnoresLimit

def Machine.withCascadeLimit (machine : Machine M) (limit : Nat) : Machine M :=
  { machine with settings := machine.settings.withCascadeLimit limit }

/-- The limit is hit nowhere in a life: neither at the creation nor in a dispatch. -/
structure Life.WithinLimit (life : Life M) : Prop where
  created : ∀ state limit, life.created ≠
    .error (.initialization (.cascadeLimitExceeded state limit))
  dispatches : ∀ seen ∈ life.dispatches, ∀ state limit,
    seen.answer ≠ .error (.cascadeLimitExceeded state limit)

/-- A dispatch used up the limit and came to a state with a row without an event, which was
refused. -/
structure DispatchResult.EndsAtLimit (result : DispatchResult M) (definition : MachineDefinition M)
    (limit : Nat) : Prop where
  used : result.committed.length = limit + 1
  waiting : definition.Handles result.machine.runtime.control eventlessKey

end Statechart
