import Statechart.Machine.Definition
import Statechart.State.Nesting

set_option autoImplicit false

namespace Statechart.MachineDefinition

open StateNode

variable {M : Model}

/-- There is one way into the machine: either a declared initial state and no given row that
starts the machine, or no initial state and exactly one such row. -/
def EnteredOnce (definition : MachineDefinition M) : Prop :=
  match definition.initialState with
  | some state =>
    Declared definition.states state ∧ ∀ row ∈ definition.transitions, row.isStart = false
  | none => definition.transitions.countP Transition.isStart = 1

/-- A row enters a compound state: it is the state's own row on init and has one target, which
is unconditional and a state inside it. -/
structure Initializes (definition : MachineDefinition M) (state : String) (row : Transition M)
    (guarded : GuardedTarget M) (inner : String) : Prop where
  listed : row ∈ definition.rows
  origin : row.origin = state
  event : row.event = some initEvent
  alone : row.targets = [guarded]
  unguarded : guarded.guard = none
  goal : guarded.target = .state inner
  inside : Encloses definition.states state inner

/-- A state has a row that enters it. -/
def HasInit (definition : MachineDefinition M) (state : String) : Prop :=
  ∃ row guarded inner, definition.Initializes state row guarded inner

/-- What a definition has to be like for a machine to be made of it. -/
structure WellFormed (definition : MachineDefinition M) (settings : Settings) : Prop where
  /-- At least one state is declared. -/
  inhabited : definition.states ≠ []
  /-- The declared names are pairwise distinct, and none of them is the root's. -/
  distinct : DistinctNames definition.states
  /-- No declared name is empty. -/
  named : ¬ Declared definition.states ""
  /-- No row has an empty origin. -/
  origins : ∀ row ∈ definition.rows, row.origin ≠ ""
  /-- A chain of steps may have at least one step after the first. -/
  room : 1 ≤ settings.maxCascadeDepth
  /-- There is one way into the machine. -/
  entered : definition.EnteredOnce
  /-- Every row from the root is on init. -/
  rootRows : ∀ row ∈ definition.rows, row.origin = rootName → row.event = some initEvent
  /-- No target names the root, nor the history of it. -/
  rootTargets : ∀ row ∈ definition.rows, ∀ guarded ∈ row.targets,
    guarded.target.stateName ≠ rootName
  /-- Every row has a target, and one without a guard is the only one. -/
  targets : ∀ row ∈ definition.rows, row.targets ≠ [] ∧
    ∀ guarded ∈ row.targets, guarded.guard = none → row.targets = [guarded]
  /-- No declared event is empty or init. -/
  events : ∀ event ∈ definition.events, event ≠ "" ∧ event ≠ initEvent
  /-- No row names the empty event. -/
  rowEvents : ∀ row ∈ definition.rows, row.event ≠ some ""
  /-- The declared events are those that rows name, init apart. -/
  eventsUsed : ∀ event, event ∈ definition.events ↔
    event ≠ initEvent ∧ ∃ row ∈ definition.rows, row.event = some event
  /-- The declared names are the origins of rows and the names in their targets, the root's
  apart. -/
  statesUsed : ∀ name, Declared definition.states name ↔ name ≠ rootName ∧
    ∃ row ∈ definition.rows, row.origin = name ∨
    ∃ guarded ∈ row.targets, guarded.target.stateName = name
  /-- Only compound states have rows on init, and the root. -/
  initOrigins : ∀ row ∈ definition.rows, row.event = some initEvent → row.origin ≠ rootName →
    DeclaredCompound definition.states row.origin
  /-- Every compound state is entered by a row of its own into a state inside it. -/
  inits : ∀ state, DeclaredCompound definition.states state → definition.HasInit state
  /-- A state with a row without an event has no rows on events. -/
  unmixed : ∀ row ∈ definition.rows, ∀ other ∈ definition.rows, row.origin = other.origin →
    row.event = none → other.event = none
  /-- A row without an event that leads to its own origin leaves a compound state. -/
  selfLoops : ∀ row ∈ definition.rows, row.event = none → ∀ guarded ∈ row.targets,
    guarded.target = .state row.origin → DeclaredCompound definition.states row.origin
  /-- No two rows have the same origin and the same event. -/
  single : definition.rows.Pairwise
    (fun row other => ¬ (row.origin = other.origin ∧ row.event = other.event))
  /-- No state handles what a state around it handles, init apart. -/
  unambiguous : ∀ row ∈ definition.rows, ∀ other ∈ definition.rows, row.event = other.event →
    row.event ≠ some initEvent → ¬ Encloses definition.states row.origin other.origin
  /-- References to history name compound states. -/
  histories : ∀ row ∈ definition.rows, ∀ guarded ∈ row.targets, ∀ reference,
    guarded.target = .history reference → DeclaredCompound definition.states reference.state

end Statechart.MachineDefinition
