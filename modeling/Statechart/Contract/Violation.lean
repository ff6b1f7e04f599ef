import Statechart.Json.Value

set_option autoImplicit false

namespace Statechart

/-- The blame for one failed contract: a message, and the same facts as data. -/
structure Violation where
  contract : String
  message : String
  data : Json
  deriving DecidableEq

namespace Violation

def line (violation : Violation) : String :=
  "[" ++ violation.contract ++ "] " ++ violation.message

def toJson (violation : Violation) : Json :=
  .object [("contract", .string violation.contract), ("message", .string violation.message),
    ("data", violation.data)]

/-- The data name a state. -/
def Reports (violation : Violation) (state : String) : Prop :=
  violation.data.field? "state" = some (.string state)

/-- The data give a row of an origin. -/
def Records (violation : Violation) (origin : String) (row : Nat) : Prop :=
  ∃ origins, violation.data.field? "origins" = some origins ∧
    origins.field? origin = some (.nat row)

end Violation

/-- Every violation found in a definition. -/
structure ContractError where
  violations : List Violation
  deriving DecidableEq

namespace ContractError

def contracts (error : ContractError) : List String :=
  (error.violations.map Violation.contract).eraseDups

def violates (error : ContractError) (contract : String) : Bool :=
  error.violations.any (fun violation => violation.contract = contract)

def message (error : ContractError) : String :=
  "Machine definition violates " ++ toString error.violations.length ++ " contract(s): "
    ++ "; ".intercalate (error.violations.map Violation.line)

end ContractError

end Statechart
