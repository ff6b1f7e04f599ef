import Statechart.Decimal.Shortest
import Statechart.Table

set_option autoImplicit false

namespace Statechart

/-- A JSON number: an integer of a 64-bit word, or a binary64 number. -/
inductive Json.Number where
  | integer (n : Int)
  | float (x : Binary64)
  deriving DecidableEq

/-- A JSON value. An object keeps its fields as they were written, so that a reader can refuse a
field given twice. An `unreadable` part is well formed but denotes nothing: a numeral beyond
every binary64 number, half of a surrogate pair, or what is nested too deeply. It can only be
passed over. -/
inductive Json where
  | null
  | bool (b : Bool)
  | number (n : Json.Number)
  | string (s : String)
  | array (items : List Json)
  | object (fields : List (String × Json))
  | unreadable

namespace Json

instance : Inhabited Json := ⟨.null⟩

mutual

def decEq : (a b : Json) → Decidable (a = b)
  | .null, b => match b with
    | .null => isTrue rfl
    | .bool _ | .number _ | .string _ | .array _ | .object _ | .unreadable =>
      isFalse (fun h => nomatch h)
  | .bool x, b => match b with
    | .bool y => if h : x = y then isTrue (h ▸ rfl)
        else isFalse (fun same => h (Json.bool.inj same))
    | .null | .number _ | .string _ | .array _ | .object _ | .unreadable =>
      isFalse (fun h => nomatch h)
  | .number x, b => match b with
    | .number y =>
      if h : x = y then isTrue (h ▸ rfl) else isFalse (fun same => h (Json.number.inj same))
    | .null | .bool _ | .string _ | .array _ | .object _ | .unreadable =>
      isFalse (fun h => nomatch h)
  | .string x, b => match b with
    | .string y =>
      if h : x = y then isTrue (h ▸ rfl) else isFalse (fun same => h (Json.string.inj same))
    | .null | .bool _ | .number _ | .array _ | .object _ | .unreadable =>
      isFalse (fun h => nomatch h)
  | .array xs, b => match b with
    | .array ys => match decEqItems xs ys with
      | isTrue h => isTrue (h ▸ rfl)
      | isFalse h => isFalse (fun same => h (Json.array.inj same))
    | .null | .bool _ | .number _ | .string _ | .object _ | .unreadable =>
      isFalse (fun h => nomatch h)
  | .object xs, b => match b with
    | .object ys => match decEqFields xs ys with
      | isTrue h => isTrue (h ▸ rfl)
      | isFalse h => isFalse (fun same => h (Json.object.inj same))
    | .null | .bool _ | .number _ | .string _ | .array _ | .unreadable =>
      isFalse (fun h => nomatch h)
  | .unreadable, b => match b with
    | .unreadable => isTrue rfl
    | .null | .bool _ | .number _ | .string _ | .array _ | .object _ => isFalse (fun h => nomatch h)

def decEqItems : (xs ys : List Json) → Decidable (xs = ys)
  | [], [] => isTrue rfl
  | [], _ :: _ => isFalse (fun h => nomatch h)
  | _ :: _, [] => isFalse (fun h => nomatch h)
  | x :: xs, y :: ys => match decEq x y, decEqItems xs ys with
    | isTrue h, isTrue h' => isTrue (h ▸ h' ▸ rfl)
    | isFalse h, _ => isFalse (fun same => h (List.cons.inj same).1)
    | _, isFalse h => isFalse (fun same => h (List.cons.inj same).2)

def decEqFields : (xs ys : List (String × Json)) → Decidable (xs = ys)
  | [], [] => isTrue rfl
  | [], _ :: _ => isFalse (fun h => nomatch h)
  | _ :: _, [] => isFalse (fun h => nomatch h)
  | (a, x) :: xs, (b, y) :: ys =>
    if name : a = b then match decEq x y, decEqFields xs ys with
      | isTrue h, isTrue h' => isTrue (name ▸ h ▸ h' ▸ rfl)
      | isFalse h, _ => isFalse (fun same => h (Prod.mk.inj (List.cons.inj same).1).2)
      | _, isFalse h => isFalse (fun same => h (List.cons.inj same).2)
    else isFalse (fun same => name (Prod.mk.inj (List.cons.inj same).1).1)

end

instance : DecidableEq Json := decEq

def int (n : Int) : Json :=
  .number (.integer n)

def nat (n : Nat) : Json :=
  int n

def strings (names : List String) : Json :=
  .array (names.map Json.string)

def optional {α : Type} (form : α → Json) : Option α → Json
  | none => .null
  | some a => form a

def ofTable {β : Type} (form : β → Json) (table : Table β) : Json :=
  .object (table.entries.map (fun entry => (entry.1, form entry.2)))

mutual

/-- The normal form: fields ascend by name, and of fields of one name the last is kept. -/
def normal : Json → Json
  | .array items => .array (normalItems items)
  | .object fields => .object (Table.ofList (normalFields fields)).entries
  | .null => .null
  | .bool b => .bool b
  | .number n => .number n
  | .string s => .string s
  | .unreadable => .unreadable

def normalItems : List Json → List Json
  | [] => []
  | item :: rest => normal item :: normalItems rest

def normalFields : List (String × Json) → List (String × Json)
  | [] => []
  | (name, value) :: rest => (name, normal value) :: normalFields rest

end

mutual

/-- Whether every part of a value denotes something. -/
def readable : Json → Bool
  | .unreadable => false
  | .array items => readableItems items
  | .object fields => readableFields fields
  | .null | .bool _ | .number _ | .string _ => true

def readableItems : List Json → Bool
  | [] => true
  | item :: rest => readable item && readableItems rest

def readableFields : List (String × Json) → Bool
  | [] => true
  | (_, value) :: rest => readable value && readableFields rest

end

/-- The value of a field, the last one where a name is repeated. -/
def field? (value : Json) (name : String) : Option Json :=
  match value with
  | .object fields => (Table.ofList fields).find? name
  | _ => none

example : normal (.object [("b", int 1), ("a", .null), ("b", int 2)]) =
    .object [("a", .null), ("b", int 2)] := by
  decide +kernel

end Json

end Statechart
