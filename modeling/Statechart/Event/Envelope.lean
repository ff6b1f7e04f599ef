import Statechart.Event.Payload
import Statechart.Json.Form

set_option autoImplicit false

namespace Statechart

/-- A named event with its data. -/
structure Event (α : Type) where
  name : String
  data : α
  deriving DecidableEq

inductive EventError where
  | emptyName
  | notAnObject (found : Json)
  | keyCount (count : Nat)
  | badData (name : String) (reason : PayloadError)
  deriving DecidableEq

namespace EventError

def kind : Json → String
  | .null | .unreadable => "null"
  | .bool _ => "a boolean"
  | .number _ => "a number"
  | .string _ => "a string"
  | .array _ => "an array"
  | .object _ => "an object"

def message : EventError → String
  | .emptyName => "event name must not be empty"
  | .notAnObject found => "expected an object with exactly one key, found " ++ kind found
  | .keyCount count =>
    "expected an object with exactly one key, found " ++ toString count ++ " keys"
  | .badData name reason => "data of event '" ++ name ++ "' is invalid: " ++ reason.message

end EventError

namespace Event

variable {α : Type}

/-- The event in an envelope; null data stands for the default. -/
def ofEnvelope (default : α) (payload : PayloadReader α) (value : Json) :
    Except EventError (Event α) :=
  match value.normal with
  | .object [(name, .null)] => .ok ⟨name, default⟩
  | .object [(name, data)] =>
    match payload data with
    | .ok data => .ok ⟨name, data⟩
    | .error reason => .error (.badData name reason)
  | .object fields => .error (.keyCount fields.length)
  | found => .error (.notAnObject found)

def text (dataText : α → String) (event : Event α) : String :=
  Text.record "Event" [("name", Text.quoted event.name), ("data", dataText event.data)]

def toJson (dataForm : α → Json) (event : Event α) : Json :=
  .object [("name", .string event.name), ("data", dataForm event.data)]

def ofJson? (data? : Json → Option α) (value : Json) : Option (Event α) := do
  match ← value.record? ["name", "data"] with
  | [some name, some data] => return ⟨← name.string?, ← data? data⟩
  | _ => none

end Event

/-- A value is an object with a single name. Where the name is given several times its last
content counts. -/
def Json.HoldsOnly (value : Json) (name : String) (content : Json) : Prop :=
  ∃ earlier, value = .object (earlier ++ [(name, content)]) ∧ ∀ field ∈ earlier, field.1 = name

/-- Exactly the integers of a signed 64-bit word are read, each as itself. -/
def PayloadReader.DecodesInt64 (payload : PayloadReader Int64) : Prop :=
  ∀ value n, payload value = .ok n ↔ value = .int n.toInt

/-- A value is the envelope of an event. Null stands for zero. -/
structure Event.Envelops (value : Json) (event : Event Int64) : Prop where
  named : event.name ≠ ""
  holds : value.HoldsOnly event.name (.int event.data.toInt) ∨
    value.HoldsOnly event.name .null ∧ event.data = 0

end Statechart
