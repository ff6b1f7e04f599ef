import Statechart.History.Form

set_option autoImplicit false

namespace Statechart

/-- A state by name, or a reference to history. -/
inductive Target where
  | state (name : String)
  | history (target : HistoryTarget)
  deriving DecidableEq

namespace Target

/-- The state a target names; of a reference to history, the state whose history it is. -/
def stateName : Target → String
  | .state name => name
  | .history target => target.state

def isHistory : Target → Bool
  | .state _ => false
  | .history _ => true

def resolve (target : Target) (history : HistoryStore) : String :=
  match target with
  | .state name => name
  | .history reference => history.resolve reference

/-- The short notation of a target. -/
def label : Target → String
  | .state name => name
  | .history target => target.label

def text : Target → String
  | .state name => Text.case "State" [Text.quoted name]
  | .history target => Text.case "History" [target.text]

def toJson : Target → Json
  | .state name => .object [("state", .string name)]
  | .history target => .object [("history", target.toJson)]

def ofJson? (value : Json) : Option Target := do
  match ← value.choice? with
  | ("state", name) => return .state (← name.string?)
  | ("history", target) => return .history (← HistoryTarget.ofJson? target)
  | _ => none

end Target

end Statechart
