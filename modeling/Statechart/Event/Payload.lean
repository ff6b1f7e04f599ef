import Statechart.Json.Value
import Statechart.Text.Layout

set_option autoImplicit false

namespace Statechart

inductive PayloadError where
  | wrongType (found : Json) (expected : String)
  | outOfRange (n : Int) (expected : String)
  | missingField (name : String)
  | tooShort (count : Nat) (expected : String)
  | tooLong (count : Nat)
  deriving DecidableEq

namespace PayloadError

def describe : Json → String
  | .null | .unreadable => "null"
  | .bool b => "boolean `" ++ Text.truth b ++ "`"
  | .number (.integer n) => "integer `" ++ toString n ++ "`"
  | .number (.float x) => "floating point `" ++ x.text ++ "`"
  | .string s => "string " ++ Text.quoted s
  | .array _ => "sequence"
  | .object _ => "map"

def message : PayloadError → String
  | .wrongType found expected => "invalid type: " ++ describe found ++ ", expected " ++ expected
  | .outOfRange n expected => "invalid value: integer `" ++ toString n ++ "`, expected " ++ expected
  | .missingField name => "missing field `" ++ name ++ "`"
  | .tooShort count expected => "invalid length " ++ toString count ++ ", expected " ++ expected
  | .tooLong count => "invalid length " ++ toString count ++ ", expected fewer elements in array"

end PayloadError

/-- Reads a value of one type. -/
abbrev PayloadReader (α : Type) : Type :=
  Json → Except PayloadError α

namespace PayloadReader

def integer (label : String) (low high : Int) : PayloadReader Int
  | .number (.integer n) => if low ≤ n ∧ n ≤ high then .ok n else .error (.outOfRange n label)
  | found => .error (.wrongType found label)

def int64 : PayloadReader Int64 := fun value =>
  (integer "i64" Int64.minValue.toInt Int64.maxValue.toInt value).map Int64.ofInt

def uint8 : PayloadReader Int :=
  integer "u8" 0 255

def uint32 : PayloadReader Int :=
  integer "u32" 0 4294967295

def bool : PayloadReader Bool
  | .bool b => .ok b
  | found => .error (.wrongType found "a boolean")

def string : PayloadReader String
  | .string s => .ok s
  | found => .error (.wrongType found "a string")

def list {α : Type} (item : PayloadReader α) : PayloadReader (List α)
  | .array items => items.mapM item
  | found => .error (.wrongType found "a sequence")

/-- A record of one field, as an object or as the array of its field. -/
def single {α : Type} (name field : String) (value : PayloadReader α) : PayloadReader α
  | .object fields =>
    match (Table.ofList fields).find? field with
    | some found => value found
    | none => .error (.missingField field)
  | .array [] => .error (.tooShort 0 ("struct " ++ name ++ " with 1 element"))
  | .array (found :: rest) => do
    let content ← value found
    if rest.isEmpty then return content else throw (.tooLong (rest.length + 1))
  | found => .error (.wrongType found ("struct " ++ name))

end PayloadReader

end Statechart
