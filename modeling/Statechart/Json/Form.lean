import Statechart.Json.Value

set_option autoImplicit false

namespace Statechart.Json

def string? : Json → Option String
  | .string s => some s
  | _ => none

def bool? : Json → Option Bool
  | .bool b => some b
  | _ => none

def word? : Json → Option Nat
  | .number (.integer n) => if 0 ≤ n ∧ n.toNat < UInt64.size then some n.toNat else none
  | _ => none

def int64? : Json → Option Int64
  | .number (.integer n) =>
    if Int64.minValue.toInt ≤ n ∧ n ≤ Int64.maxValue.toInt then some (Int64.ofInt n) else none
  | _ => none

/-- Any value every part of which denotes something. -/
def any? (value : Json) : Option Json :=
  if value.readable then some value.normal else none

/-- A table of values of one type; of bindings of one name the last counts. -/
def table? {β : Type} (value? : Json → Option β) : Json → Option (Table β)
  | .object fields =>
    (fields.mapM (fun field => (value? field.2).map (field.1, ·))).map Table.ofList
  | _ => none

/-- Just one field has the name, and this is its value. -/
def Sole (fields : List (String × Json)) (name : String) (value : Json) : Prop :=
  ∃ before after, fields = before ++ (name, value) :: after ∧
    ∀ field ∈ before ++ after, field.1 ≠ name

/-- No field has the name. -/
def Lacks (fields : List (String × Json)) (name : String) : Prop :=
  ∀ field ∈ fields, field.1 ≠ name

/-- The value of a field that must not be repeated, if it is there. -/
def sole? (fields : List (String × Json)) (name : String) : Option (Option Json) :=
  match fields.filter (fun field => field.1 = name) with
  | [] => some none
  | [field] => some (some field.2)
  | _ => none

/-- The values of the named fields of a record, each `none` where it is left out. A record is an
object, where unknown fields are passed over and a known one must not be repeated, or the array
of its fields in order. -/
def record? (names : List String) : Json → Option (List (Option Json))
  | .object fields => names.mapM (sole? fields)
  | .array items =>
    if items.length ≤ names.length then
      some (items.map some ++ List.replicate (names.length - items.length) none)
    else none
  | _ => none

/-- The case of a choice and its contents: the only name of an object, and its value. -/
def choice? : Json → Option (String × Json)
  | .object [(name, value)] => some (name, value)
  | _ => none

example : record? ["a", "b"] (.object [("b", .null), ("c", .bool true)]) =
    some [none, some .null] := by decide +kernel

example : record? ["a"] (.object [("a", .null), ("a", .null)]) = none := by decide +kernel

end Statechart.Json
