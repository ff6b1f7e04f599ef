import Statechart.Machine.Protocol

set_option autoImplicit false

namespace Statechart.MachineDefinition

open StateNode

variable {M : Model}

/-- The first row of a state on an event. -/
def firstRow? (definition : MachineDefinition M) (state event : String) : Option (Transition M) :=
  definition.rows.find? (fun row => row.origin = state ∧ row.eventKey = event)

/-- Whether an event is looked up at all. In the root only init is; elsewhere init is not if it
comes from outside. -/
def Heard (control event : String) (external : Bool) : Prop :=
  if control = rootName then event = initEvent else ¬ (external = true ∧ event = initEvent)

/-- In a control state an event is handled by a row of the given state. -/
structure HandledBy (definition : MachineDefinition M) (control event : String) (external : Bool)
    (handler : String) (row : Transition M) : Prop where
  heard : Heard control event external
  around : handler = control ∨ Encloses definition.states handler control
  first : definition.firstRow? handler event = some row
  /-- No state with a row on the event lies between the control state and the handler. -/
  innermost : ∀ other, other = control ∨ Encloses definition.states other control →
    definition.Handles other event → other = handler ∨ Encloses definition.states other handler

/-- Whether a state lies on the way from a control state to the root, both ends included. -/
def OnTheWay (definition : MachineDefinition M) (control state : String) : Prop :=
  state = control ∨ Encloses definition.states state control ∨ state = rootName

/-- Looked up from the root inwards, an event is handled by a row of the given state. -/
structure HandledFromRoot (definition : MachineDefinition M) (control event handler : String)
    (row : Transition M) : Prop where
  onTheWay : definition.OnTheWay control handler
  first : definition.firstRow? handler event = some row
  /-- No state with a row on the event lies between the root and the handler. -/
  outermost : ∀ other, definition.OnTheWay control other → definition.Handles other event →
    definition.OnTheWay other handler

/-- On the way from a control state to the root no more than one row is on an event, so it does
not matter from which end the event is looked up. -/
structure HandledOnce (definition : MachineDefinition M) (control event : String) : Prop where
  alone : ∀ (position otherPosition : Nat) (row other : Transition M),
    definition.rows[position]? = some row →
    definition.rows[otherPosition]? = some other → definition.OnTheWay control row.origin →
      definition.OnTheWay control other.origin → row.eventKey = event → other.eventKey = event →
      position = otherPosition
  fromRoot : ∀ handler row, definition.HandledFromRoot control event handler row ↔
    definition.HandledBy control event false handler row

theorem handles_iff_firstRow? (definition : MachineDefinition M) (state event : String) :
    definition.Handles state event ↔ ∃ row, definition.firstRow? state event = some row := by
  rw [← Option.isSome_iff_exists, firstRow?, List.find?_isSome]
  simp only [Handles, decide_eq_true_eq]

end Statechart.MachineDefinition
