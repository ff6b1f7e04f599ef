import Statechart.Json.Form
import Statechart.State.Node

set_option autoImplicit false

namespace Statechart.StateNode

mutual

def toJson : StateNode → Json
  | ⟨name, children⟩ =>
    .object (("name", .string name) ::
      if children.isEmpty then [] else [("children", .array (forestToJson children))])

def forestToJson : List StateNode → List Json
  | [] => []
  | node :: rest => toJson node :: forestToJson rest

end

mutual

def ofJson? : Json → Option StateNode
  | .object fields => do
    let name ← (← (← Json.sole? fields "name")).string?
    match childrenFields fields with
    | [] => some ⟨name, []⟩
    | [children] => children.map (⟨name, ·⟩)
    | _ => none
  | .array [.string name] => some ⟨name, []⟩
  | .array [.string name, children] => (childrenOfJson? children).map (⟨name, ·⟩)
  | _ => none

/-- The states that an array is a form of: a name, followed by the children or nothing. -/
def childrenOfJson? : Json → Option (List StateNode)
  | .array items => forestOfJson? items
  | _ => none

def forestOfJson? : List Json → Option (List StateNode)
  | [] => some []
  | item :: rest => do
    let node ← ofJson? item
    let nodes ← forestOfJson? rest
    return node :: nodes

/-- What each field for the children holds, where there should be at most one. -/
def childrenFields : List (String × Json) → List (Option (List StateNode))
  | [] => []
  | (name, value) :: rest =>
    if name = "children" then childrenOfJson? value :: childrenFields rest else childrenFields rest

end

example : ofJson? (.array [.string "a", .array [.object [("name", .string "b")]]]) =
    some ⟨"a", [⟨"b", []⟩]⟩ := by
  decide +kernel

example : ofJson? (.object [("name", .string "a"), ("children", .null)]) = none := by decide +kernel

end Statechart.StateNode
