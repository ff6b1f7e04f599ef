import Statechart.Contract.Battery
import Statechart.Machine.Error

set_option autoImplicit false

namespace Statechart

/-- Everything a machine is made from. Either an initial state is given, or one of the rows
starts the machine. -/
structure MachineDefinition (M : Model) where
  states : List StateNode
  events : List String
  transitions : List (Transition M)
  initialExt : M.Ext
  initialState : Option String
  reducer : Reducer M

namespace MachineDefinition

variable {M : Model}

def text (definition : MachineDefinition M) : String :=
  Text.partialRecord "MachineDefinition" [
    ("states", Text.list (definition.states.map StateNode.text)),
    ("events", Text.list (definition.events.map Text.quoted)),
    ("transitions", Text.list (definition.transitions.map Transition.text)),
    ("initial_extended_state", M.extText definition.initialExt),
    ("initial_control_state", Text.optional (definition.initialState.map Text.quoted))]

/-- The number of given rows that start the machine. -/
def explicitStarts (definition : MachineDefinition M) : Nat :=
  definition.transitions.countP Transition.isStart

/-- The rows of the machine: the given ones, and one into the initial state if there is one. -/
def rows (definition : MachineDefinition M) : List (Transition M) :=
  match definition.initialState with
  | some state => definition.transitions ++ [.start state]
  | none => definition.transitions

def indices (definition : MachineDefinition M) : Indices :=
  .build definition.states definition.rows

def context (definition : MachineDefinition M) (settings : Settings) : ContractContext where
  states := definition.states
  events := definition.events
  initialState := definition.initialState
  explicitStarts := definition.explicitStarts
  settings := settings
  indices := definition.indices

/-- The row at a position leads from an origin to the history of a state. -/
def RefersTo (definition : MachineDefinition M) (state origin : String) (position : Nat) : Prop :=
  ∃ row, definition.rows[position]? = some row ∧ row.origin = origin ∧
    ∃ guarded ∈ row.targets, guarded.target.isHistory = true ∧ guarded.target.stateName = state

/-- No later row leads from the same origin to the history of the same state. -/
def RefersLast (definition : MachineDefinition M) (state origin : String) (position : Nat) : Prop :=
  definition.RefersTo state origin position ∧ ∀ other, definition.RefersTo state origin other →
    other ≤ position

end MachineDefinition

/-- A definition in the making. Its entry actions are worked into the rows that enter their
state, so a definition knows rows only. -/
structure MachineDraft (M : Model) where
  states : List StateNode := []
  events : List String := []
  transitions : List (Transition M) := []
  initialState : Option String := none
  initialExt : Option M.Ext := none
  reducer : Option (Reducer M) := none
  entryActions : List (String × Action M) := []

namespace MachineDraft

variable {M : Model}

def addDraft (draft : MachineDraft M) (row : TransitionDraft M) :
    Except (BuildError M) (MachineDraft M) :=
  match row.build with
  | .ok row => .ok { draft with transitions := draft.transitions ++ [row] }
  | .error error => .error (.draft error)

/-- Adds an action to run whenever a state is entered by name. -/
def addEntryAction (draft : MachineDraft M) (state : String) (action : Action M) : MachineDraft M :=
  { draft with entryActions := draft.entryActions ++ [(state, action)] }

/-- Lets an entry action follow the action of a target that names its state. -/
def decorateTarget (reducer : Reducer M) (state : String) (entry : Action M)
    (guarded : GuardedTarget M) : GuardedTarget M :=
  if guarded.target = .state state then
    { guarded with action := guarded.action.andThen entry reducer } else guarded

def decorate (reducer : Reducer M) (state : String) (entry : Action M)
    (rows : List (Transition M)) : List (Transition M) :=
  rows.map (fun row => { row with targets := row.targets.map (decorateTarget reducer state entry) })

/-- Works entry actions into rows, one after the other. -/
def decorateAll (states : List StateNode) (reducer : Reducer M) :
    List (String × Action M) → List (Transition M) → Except (BuildError M) (List (Transition M))
  | [], rows => .ok rows
  | (state, entry) :: rest, rows =>
    if StateNode.forestDeclares state states then
      decorateAll states reducer rest (decorate reducer state entry rows)
    else .error (.unknownEntryState state)

def definition (draft : MachineDraft M) : Except (BuildError M) (MachineDefinition M) :=
  match draft.initialExt, draft.reducer with
  | none, _ => .error .missingExtendedState
  | some _, none => .error .missingReducer
  | some ext, some reducer => do
    let rows ← decorateAll draft.states reducer draft.entryActions draft.transitions
    return ⟨draft.states, draft.events, rows, ext, draft.initialState, reducer⟩

end MachineDraft

end Statechart
