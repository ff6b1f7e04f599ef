import Statechart.Json.Form
import Statechart.History.Store

set_option autoImplicit false

namespace Statechart

namespace HistoryMode

def toJson (mode : HistoryMode) : Json :=
  .string mode.name

def ofName? : String → Option HistoryMode
  | "shallow" => some .shallow
  | "deep" => some .deep
  | _ => none

/-- The mode that a value is a form of; a case without contents may also be written as a choice
of nothing. -/
def ofJson? : Json → Option HistoryMode
  | .string name => ofName? name
  | .object [(name, .null)] => ofName? name
  | _ => none

end HistoryMode

namespace HistoryTarget

def toJson (target : HistoryTarget) : Json :=
  .object [("mode", target.mode.toJson), ("state", .string target.state)]

def ofJson? (value : Json) : Option HistoryTarget := do
  match ← value.record? ["mode", "state"] with
  | [some mode, some state] => return ⟨← HistoryMode.ofJson? mode, ← state.string?⟩
  | _ => none

end HistoryTarget

namespace HistoryStore

def toJson (store : HistoryStore) : Json :=
  .object [("shallow", Json.ofTable Json.string store.shallow),
    ("deep", Json.ofTable Json.string store.deep)]

def ofJson? (value : Json) : Option HistoryStore := do
  match ← value.record? ["shallow", "deep"] with
  | [some shallow, some deep] =>
    return ⟨← Json.table? Json.string? shallow, ← Json.table? Json.string? deep⟩
  | _ => none

end HistoryStore

end Statechart
