import Statechart.Json.Reader
import Statechart.Json.Form
import Statechart.Text.Layout

set_option autoImplicit false

namespace Statechart

/-- What is checked and observed. -/
structure DebugSettings where
  checkContracts : Bool := true
  traced : Bool := false
  deriving DecidableEq

/-- The settings of a machine; callbacks can read the options. Every field has a default, so a
JSON form may leave any of them out. -/
structure Settings where
  debug : DebugSettings := {}
  maxCascadeDepth : Nat := 100
  options : Json := .null
  deriving DecidableEq

namespace DebugSettings

def ofJson? (value : Json) : Option DebugSettings := do
  match ← value.record? ["check_contracts"] with
  | [none] => return {}
  | [some check] => return { checkContracts := ← check.bool? }
  | _ => none

/-- The JSON form of debug settings; what is observed is not part of it. -/
def toJson (debug : DebugSettings) : Json :=
  .object [("check_contracts", .bool debug.checkContracts)]

def deliver {α : Type} (debug : DebugSettings) (records : List α) : List α :=
  if debug.traced then records else []

def text (debug : DebugSettings) : String :=
  Text.record "DebugSettings"
    [("check_contracts", Text.truth debug.checkContracts), ("tracer", Text.truth debug.traced)]

end DebugSettings

namespace Settings

/-- A field of a record, or its default where it is left out. -/
def fieldOr {α : Type} (default : α) (read? : Json → Option α) : Option Json → Option α
  | none => some default
  | some value => read? value

def ofJson? (value : Json) : Option Settings := do
  match ← value.record? ["debug", "max_cascade_depth", "options"] with
  | [debug, depth, options] =>
    return {
      debug := ← fieldOr {} DebugSettings.ofJson? debug
      maxCascadeDepth := ← fieldOr 100 Json.word? depth
      options := ← fieldOr .null Json.any? options }
  | _ => none

def ofText? (text : String) : Option Settings :=
  (Json.ofText? text).bind ofJson?

def toJson (settings : Settings) : Json :=
  .object [("debug", settings.debug.toJson), ("max_cascade_depth", .nat settings.maxCascadeDepth),
    ("options", settings.options)]

def withoutContracts (settings : Settings) : Settings :=
  { settings with debug := { settings.debug with checkContracts := false } }

def withTracer (settings : Settings) : Settings :=
  { settings with debug := { settings.debug with traced := true } }

/-- An option by name, if the options are an object that has it. -/
def option? (settings : Settings) (name : String) : Option Json :=
  settings.options.field? name

end Settings

end Statechart
