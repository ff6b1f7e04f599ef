import Statechart.Machine.Definition
import Statechart.Trace.Record

set_option autoImplicit false

namespace Statechart

/-- What a dispatch may change: the control state, the extended state and the history. -/
structure Runtime (M : Model) where
  control : String
  ext : M.Ext
  history : HistoryStore

/-- A machine: what it was made from, and its runtime. -/
structure Machine (M : Model) where
  settings : Settings
  transitions : List (Transition M)
  reducer : Reducer M
  indices : Indices
  runtime : Runtime M
  initialOutputs : List M.Output

/-- A transition that was taken: from which state, on which event, by which state's row, to
which target, with what result, into which runtime. -/
structure TakenStep (M : Model) where
  origin : String
  event : String
  handler : String
  guard : Option String
  action : String
  outputs : Option (List M.Output)
  next : Runtime M

/-- How a step ends, unless it fails. -/
inductive StepResult (M : Model) where
  | unhandled
  | noGuardSatisfied
  | taken (step : TakenStep M)

namespace TakenStep

variable {M : Model}

def report (step : TakenStep M) (depth : Nat) : TraceKind :=
  .internalTransition step.origin step.event step.handler step.guard step.action
    step.next.control depth

end TakenStep

namespace Machine

variable {M : Model}

/-- The state whose row handles an event, with the position of the row: the innermost one around
the current state. Init is only ever raised by the machine itself, and in the root only by its
creation. -/
def findHandler (machine : Machine M) (control event : String) (external : Bool) :
    Option (String × Nat) :=
  if control = rootName then
    if event = initEvent then
      machine.indices.tables.startRows.head?.map (fun row => (rootName, row)) else none
  else if external ∧ event = initEvent then none
  else (machine.indices.hierarchy.lineage control).findSome? (fun state =>
    (machine.indices.tables.ownHandler state event).map (fun row => (state, row)))

def targetsOf (machine : Machine M) (row : Nat) : List (GuardedTarget M) :=
  match machine.transitions[row]? with
  | some row => row.targets
  | none => []

/-- The first target whose guard holds; a target without a guard always may be taken. -/
def selectTarget (settings : Settings) (site : CallSite M) :
    List (GuardedTarget M) → Except (DispatchError M) (Option (GuardedTarget M))
  | [] => .ok none
  | guarded :: rest =>
    match guarded.guard with
    | none => .ok (some guarded)
    | some guard =>
      match guard.check site.ext site.data settings with
      | .ok true => .ok (some guarded)
      | .ok false => selectTarget settings site rest
      | .error source => .error (.guardFailed guard.name site source)

/-- Runs the action of a target and folds its updates in; neither sees anything but the state
before the step. -/
def perform (machine : Machine M) (site : CallSite M) (action : Action M) :
    Except (DispatchError M) (Option (List M.Output) × M.Ext) :=
  match action.run site.ext site.data machine.settings with
  | .error source => .error (.actionFailed action.name site source)
  | .ok result =>
    match machine.reducer site.ext result.updates with
    | .error source => .error (.reducerFailed action.name site result.updates source)
    | .ok ext => .ok (result.outputs, ext)

/-- The history after leaving a state. The root has none. -/
def leave (machine : Machine M) (runtime : Runtime M) : HistoryStore :=
  if runtime.control = rootName then runtime.history
  else runtime.history.recordExit runtime.control
    (machine.indices.hierarchy.historyAncestors runtime.control)

/-- Enters the state a target stands for, once the exit is recorded. -/
def enter (machine : Machine M) (runtime : Runtime M) (event : String) (target : Target)
    (ext : M.Ext) : Except (DispatchError M) (Runtime M) :=
  let history := machine.leave runtime
  let state := target.resolve history
  if state = rootName ∨ !machine.indices.hierarchy.contains state then
    .error (.unknownTarget runtime.control event state)
  else .ok ⟨state, ext, history⟩

/-- One step on an event: it is looked up from the current state outwards, the first target that
may be taken is taken, and the state it leads to is entered. Nothing but the runtime changes. -/
def step (machine : Machine M) (runtime : Runtime M) (event : String) (data : M.Data)
    (external : Bool) : Except (DispatchError M) (StepResult M) :=
  match machine.findHandler runtime.control event external with
  | none => .ok .unhandled
  | some (handler, row) => do
    let site : CallSite M := ⟨runtime.control, event, runtime.ext, data⟩
    match ← selectTarget machine.settings site (machine.targetsOf row) with
    | none => return .noGuardSatisfied
    | some guarded =>
      let (outputs, ext) ← machine.perform site guarded.action
      let next ← machine.enter runtime event guarded.target ext
      return .taken ⟨runtime.control, event, handler, guarded.guard.map Guard.name,
        guarded.action.name, outputs, next⟩

/-- The event raised by entering a state: init if it is compound and has an init row of its own,
else nothing but its eventless row if it has one. -/
def cascadeEvent (machine : Machine M) (state : String) : Option String :=
  if machine.indices.hierarchy.isCompound state ∧
      (machine.indices.tables.ownHandler state initEvent).isSome then
    some initEvent
  else if (machine.indices.tables.ownHandler state eventlessKey).isSome then some eventlessKey
  else none

end Machine

end Statechart
