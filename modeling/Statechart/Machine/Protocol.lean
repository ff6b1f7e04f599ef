import Statechart.Machine.Definition
import Statechart.Machine.Error
import Statechart.State.Nesting
import Statechart.Trace.Record

set_option autoImplicit false

namespace Statechart

open StateNode

variable {M : Model}

namespace MachineDefinition

/-- A state has a row of its own that is filed under an event, where rows without an event are
filed under the empty one. -/
def Handles (definition : MachineDefinition M) (state event : String) : Prop :=
  ∃ row ∈ definition.rows, row.origin = state ∧ row.eventKey = event

/-- Entering a compound state with a row on init raises init; otherwise entering a state raises
the empty event. -/
inductive Raises (definition : MachineDefinition M) (state : String) : String → Prop where
  | init (compound : DeclaredCompound definition.states state)
    (own : definition.Handles state initEvent) : Raises definition state initEvent
  | eventless (simple : ¬ (DeclaredCompound definition.states state ∧
    definition.Handles state initEvent)) : Raises definition state eventlessKey

/-- Records of transitions that follow one another, from a depth and a state to the state
entered last. Each leaves the state entered before, by a row of that state itself and on the
event that entering it raises. -/
inductive Cascade (definition : MachineDefinition M) :
    Nat → String → List TraceKind → String → Prop where
  | settled (depth : Nat) (state : String) : Cascade definition depth state [] state
  | next {depth : Nat} {state event : String} {guard : Option String} {action target last : String}
    {rest : List TraceKind} (raises : definition.Raises state event)
    (own : definition.Handles state event)
    (onward : Cascade definition (depth + 1) target rest last) :
    Cascade definition depth state
      (.internalTransition state event state guard action target depth :: rest) last

/-- Records of the transitions of a dispatch, from the state before it to the one entered last.
The first one is on the event that is dispatched, by a row of the state before or of one around
it. -/
inductive Transitions (definition : MachineDefinition M) (before event : String) :
    List TraceKind → String → Prop where
  | none : Transitions definition before event [] before
  | first {handler : String} {guard : Option String} {action target last : String}
    {rest : List TraceKind} (around : handler = before ∨ Encloses definition.states handler before)
    (handles : definition.Handles handler event)
    (onward : Cascade definition 1 target rest last) :
    Transitions definition before event
      (.internalTransition before event handler guard action target 0 :: rest) last

/-- The records of a dispatch of an event in a state, given what it comes to, the state after
it, and how many transitions may follow the first. -/
inductive Protocol (definition : MachineDefinition M) (limit : Nat) (before event : String) :
    Except (DispatchError M) (DispatchOutcome M.Output) → String → List TraceKind → Prop where
  | nameless (nameless : event = "") :
      Protocol definition limit before event (.error (.malformed .emptyName)) before []
  | settled {outcome : DispatchOutcome M.Output} {after : String} {transitions : List TraceKind}
    (named : event ≠ "") (chain : definition.Transitions before event transitions after)
    (bound : transitions.length ≤ limit + 1)
    (agrees : outcome.isTransitioned = !transitions.isEmpty) :
    Protocol definition limit before event (.ok outcome) after
      (.eventReceived event before :: transitions ++
        [.eventSettled event after (!transitions.isEmpty)])
  | failed {error : DispatchError M} {last : String} {transitions : List TraceKind}
    (named : event ≠ "") (chain : definition.Transitions before event transitions last)
    (bound : transitions.length ≤ limit + 1)
    (exceeds : ∀ state most, error = .cascadeLimitExceeded state most →
      transitions.length = limit + 1 ∧ state = last ∧ most = limit) :
    Protocol definition limit before event (.error error) before
      (.eventReceived event before :: transitions ++ [.eventFailed event before error.message])

end MachineDefinition

end Statechart
