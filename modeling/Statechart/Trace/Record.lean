import Statechart.Json.Form
import Statechart.Text.Layout
import Statechart.Trace.Timestamp
import Statechart.Trace.Uuid

set_option autoImplicit false

namespace Statechart

/-- One report. The handler of a transition is the state whose row was taken, the origin or a
state around it; the state of a failure is the one the machine went back to. -/
inductive TraceKind where
  | machineCreated (states transitions : Nat)
  | eventReceived (event state : String)
  | internalTransition (origin event handler : String) (guard : Option String)
      (action target : String) (depth : Nat)
  | eventSettled (event state : String) (transitioned : Bool)
  | eventFailed (event state error : String)
  deriving DecidableEq

namespace TraceKind

def entered? : TraceKind → Option String
  | .internalTransition _ _ _ _ _ target _ => some target
  | .machineCreated _ _ | .eventReceived _ _ | .eventSettled _ _ _ | .eventFailed _ _ _ => none

/-- The states entered by a sequence of reports. -/
def visited (reports : List TraceKind) : List String :=
  reports.filterMap entered?

def text : TraceKind → String
  | .machineCreated states transitions =>
    Text.record "MachineCreated"
      [("states", toString states), ("transitions", toString transitions)]
  | .eventReceived event state =>
    Text.record "EventReceived" [("event", Text.quoted event), ("state", Text.quoted state)]
  | .internalTransition origin event handler guard action target depth =>
    Text.record "InternalTransition" [("from", Text.quoted origin), ("event", Text.quoted event),
      ("handler", Text.quoted handler), ("guard", Text.optional (guard.map Text.quoted)),
      ("action", Text.quoted action),
      ("to", Text.quoted target), ("depth", toString depth)]
  | .eventSettled event state transitioned =>
    Text.record "EventSettled" [("event", Text.quoted event), ("state", Text.quoted state),
      ("transitioned", Text.truth transitioned)]
  | .eventFailed event state error =>
    Text.record "EventFailed" [("event", Text.quoted event), ("state", Text.quoted state),
      ("error", Text.quoted error)]

/-- The JSON form of a report; its type stands among its fields. -/
def toJson : TraceKind → Json
  | .machineCreated states transitions =>
    .object [("type", .string "machine_created"), ("states", .nat states),
      ("transitions", .nat transitions)]
  | .eventReceived event state =>
    .object [("type", .string "event_received"), ("event", .string event), ("state", .string state)]
  | .internalTransition origin event handler guard action target depth =>
    .object [("type", .string "internal_transition"), ("from", .string origin),
      ("event", .string event),
      ("handler", .string handler), ("guard", Json.optional Json.string guard),
      ("action", .string action),
      ("to", .string target), ("depth", .nat depth)]
  | .eventSettled event state transitioned =>
    .object [("type", .string "event_settled"), ("event", .string event), ("state", .string state),
      ("transitioned", .bool transitioned)]
  | .eventFailed event state error =>
    .object [("type", .string "event_failed"), ("event", .string event), ("state", .string state),
      ("error", .string error)]

/-- The type of a report and what reads its fields: an object names the type among its fields,
an array begins with it. A report is read as a whole before its type is known, so nothing in it
may be unreadable. -/
def split? (value : Json) : Option (String × (List String → Option (List (Option Json)))) :=
  if value.readable then
    match value with
    | .object fields => do
      let type ← (← (← Json.sole? fields "type")).string?
      return (type, fun names => names.mapM (Json.sole? fields))
    | .array (.string type :: items) =>
      some (type, fun names => if items.length = names.length then some (items.map some) else none)
    | _ => none
  else none

/-- A name that may be left out or null. -/
def name? : Option Json → Option (Option String)
  | none | some .null => some none
  | some value => value.string?.map some

def ofJson? (value : Json) : Option TraceKind := do
  let (type, fields?) ← split? value
  match type with
  | "machine_created" =>
    match ← fields? ["states", "transitions"] with
    | [some states, some transitions] =>
      return .machineCreated (← states.word?) (← transitions.word?)
    | _ => none
  | "event_received" =>
    match ← fields? ["event", "state"] with
    | [some event, some state] => return .eventReceived (← event.string?) (← state.string?)
    | _ => none
  | "internal_transition" =>
    match ← fields? ["from", "event", "handler", "guard", "action", "to", "depth"] with
    | [some origin, some event, some handler, guard, some action, some target, some depth] =>
      return .internalTransition (← origin.string?) (← event.string?) (← handler.string?)
        (← name? guard) (← action.string?) (← target.string?) (← depth.word?)
    | _ => none
  | "event_settled" =>
    match ← fields? ["event", "state", "transitioned"] with
    | [some event, some state, some transitioned] =>
      return .eventSettled (← event.string?) (← state.string?) (← transitioned.bool?)
    | _ => none
  | "event_failed" =>
    match ← fields? ["event", "state", "error"] with
    | [some event, some state, some error] =>
      return .eventFailed (← event.string?) (← state.string?) (← error.string?)
    | _ => none
  | _ => none

end TraceKind

/-- A report with its machine and time. -/
structure TraceRecord where
  machine : Uuid
  time : Timestamp
  kind : TraceKind
  deriving DecidableEq

namespace TraceRecord

def toJson (record : TraceRecord) : Json :=
  .object [("machine_id", .string record.machine.text), ("timestamp", .string record.time.text),
    ("kind", record.kind.toJson)]

def ofJson? (value : Json) : Option TraceRecord := do
  match ← value.record? ["machine_id", "timestamp", "kind"] with
  | [some machine, some time, some kind] =>
    return ⟨← Uuid.ofText? (← machine.string?), ← Timestamp.ofText? (← time.string?),
      ← TraceKind.ofJson? kind⟩
  | _ => none

end TraceRecord

end Statechart
