import Statechart.Indices.Hierarchy
import Statechart.Indices.Rows

set_option autoImplicit false

namespace Statechart

/-- Everything that is derived from the states and rows of a machine. -/
structure Indices where
  hierarchy : Hierarchy
  tables : RowTables
  deriving DecidableEq

namespace Indices

def build {M : Model} (states : List StateNode) (rows : List (Transition M)) : Indices :=
  ⟨.ofStates states, .ofRows rows⟩

/-- The dotted text of a path; the root is `0`. -/
def pathText (path : List Nat) : String :=
  ".".intercalate ((0 :: path).map toString)

def shapeToJson (shape : RowShape) : Json :=
  .object [("from", .string shape.origin), ("event", Json.optional Json.string shape.event),
    ("guards", .nat shape.targets), ("unguarded", .nat shape.unguarded)]

def flatToJson (flat : FlatTransition) : Json :=
  .object [("row", .nat flat.row), ("position", .nat flat.position), ("from", .string flat.origin),
    ("event", Json.optional Json.string flat.event),
    ("guard", Json.optional Json.string flat.guard),
    ("to", flat.target.toJson), ("action", .string flat.action)]

def positionsToJson (positions : List Nat) : Json :=
  .array (positions.map Json.nat)

def toJson (indices : Indices) : Json :=
  let h := indices.hierarchy
  let t := indices.tables
  .object [
    ("state_list", .strings h.names),
    ("states_type", .ofTable Json.bool h.compound),
    ("states_path", .ofTable (fun path => .string (pathText path)) h.paths),
    ("ancestor_map", .ofTable Json.strings h.childNames),
    ("parent_map", .ofTable Json.string h.parents),
    ("descendants", .ofTable Json.strings h.descendants),
    ("shallow_ancestors", .ofTable Json.string h.shallowAncestors),
    ("deep_ancestors", .ofTable Json.strings h.deepAncestors),
    ("rows", .array (t.shapes.map shapeToJson)),
    ("transitions", .array (t.flat.map flatToJson)),
    ("states_transitions_map", .ofTable (Json.ofTable Json.nat) t.firstByOrigin),
    ("states_transitions_maps", .ofTable (Json.ofTable positionsToJson) t.byOrigin),
    ("event_transitions_maps", .ofTable (Json.ofTable positionsToJson) t.byEvent),
    ("history_states_map", .ofTable positionsToJson t.historyTargets),
    ("target_states_map", .ofTable positionsToJson t.targets),
    ("initial_rows", positionsToJson t.startRows)]

end Indices

end Statechart
