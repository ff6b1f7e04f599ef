import Statechart.Model
import Statechart.State.Node
import Statechart.Transition.Target

set_option autoImplicit false

namespace Statechart

/-- A target with the condition for taking it, if there is one, and the action that goes with it. -/
structure GuardedTarget (M : Model) where
  guard : Option (Guard M)
  target : Target
  action : Action M

/-- An origin, the event that triggers the row, and the targets to choose from in order. A row
without an event is taken as soon as its origin is entered. -/
structure Transition (M : Model) where
  origin : String
  event : Option String
  targets : List (GuardedTarget M)

variable {M : Model}

namespace GuardedTarget

def always (target : Target) (action : Action M) : GuardedTarget M :=
  ⟨none, target, action⟩

def when (guard : Guard M) (target : Target) (action : Action M) : GuardedTarget M :=
  ⟨some guard, target, action⟩

def text (guarded : GuardedTarget M) : String :=
  Text.record "GuardedTarget"
    [("predicate", Text.optional (guarded.guard.map Guard.text)), ("to", guarded.target.text),
    ("action", guarded.action.text)]

end GuardedTarget

namespace Transition

def onEvent (origin event : String) (target : Target) (action : Action M) : Transition M :=
  ⟨origin, some event, [.always target action]⟩

def guarded (origin event : String) (targets : List (GuardedTarget M)) : Transition M :=
  ⟨origin, some event, targets⟩

def automatic (origin : String) (targets : List (GuardedTarget M)) : Transition M :=
  ⟨origin, none, targets⟩

/-- An unconditional row on an event that changes nothing but the state. -/
def plain (origin event : String) (target : Target) : Transition M :=
  onEvent origin event target .identity

def plainAutomatic (origin : String) (target : Target) : Transition M :=
  automatic origin [.always target .identity]

/-- The row that enters a machine in a state. -/
def start (state : String) : Transition M :=
  plain rootName initEvent (.state state)

def isAutomatic (row : Transition M) : Bool :=
  row.event.isNone

/-- The name under which a row is filed. -/
def eventKey (row : Transition M) : String :=
  row.event.getD eventlessKey

/-- Whether a row enters the machine from the virtual root. -/
def isStart (row : Transition M) : Bool :=
  row.origin = rootName && row.event = some initEvent

def text (row : Transition M) : String :=
  Text.record "Transition" [("from", Text.quoted row.origin),
    ("event", Text.optional (row.event.map Text.quoted)),
    ("guards", Text.list (row.targets.map GuardedTarget.text))]

end Transition

end Statechart
