import Statechart.Contract.Battery

set_option autoImplicit false

namespace Statechart

/-- A success, or a failure with one error at least. -/
inductive Validation (ε α : Type) where
  | success (value : α)
  | failure (first : ε) (rest : List ε)
  deriving DecidableEq

namespace Validation

variable {ε α β : Type}

def errors : Validation ε α → List ε
  | .success _ => []
  | .failure first rest => first :: rest

def isFailure : Validation ε α → Bool
  | .success _ => false
  | .failure _ _ => true

def map (change : α → β) : Validation ε α → Validation ε β
  | .success value => .success (change value)
  | .failure first rest => .failure first rest

/-- A way of combining validations keeps all errors of all parts, in order. -/
def InOrder (all : List (Validation ε α) → Validation ε (List α)) : Prop :=
  ∀ parts, (all parts).errors = parts.flatMap errors

/-- Combines a validation with those after it. -/
def cons : Validation ε α → Validation ε (List α) → Validation ε (List α)
  | .success value, .success values => .success (value :: values)
  | .success _, .failure first rest => .failure first rest
  | .failure first rest, others => .failure first (rest ++ others.errors)

/-- Combines validations one after the other. -/
def collect (parts : List (Validation ε α)) : Validation ε (List α) :=
  parts.foldr cons (.success [])

/-- The verdict on what was found: a failure for each error, all of them combined. -/
def verdict (all : List (Validation ε Unit) → Validation ε (List Unit)) (found : List ε) :
    Validation ε Unit :=
  if found = [] then .success ()
    else (all (found.map (fun error => .failure error []))).map (fun _ => ())

end Validation

/-- A contract as it is run, for its verdict. -/
structure Inspection where
  stopsAtOnce : Bool
  verdict : ContractContext → Validation Violation Unit

namespace Inspection

def Passes (inspection : Inspection) (context : ContractContext) : Prop :=
  inspection.verdict context = .success ()

/-- Whether no other contract is run after this one. -/
def Stops (inspection : Inspection) (context : ContractContext) : Prop :=
  inspection.stopsAtOnce = true ∧ ¬ inspection.Passes context

instance (inspection : Inspection) (context : ContractContext) :
    Decidable (inspection.Passes context) :=
  inferInstanceAs (Decidable (_ = _))

instance (inspection : Inspection) (context : ContractContext) :
    Decidable (inspection.Stops context) :=
  inferInstanceAs (Decidable (_ ∧ _))

def verdicts (context : ContractContext) : List Inspection → List (Validation Violation Unit)
  | [] => []
  | inspection :: rest =>
    let verdict := inspection.verdict context
    if verdict.isFailure && inspection.stopsAtOnce then [verdict]
      else verdict :: verdicts context rest

/-- Runs contracts, and reports what the verdicts come to. -/
def checkAll (all : List (Validation Violation Unit) → Validation Violation (List Unit))
    (context : ContractContext) (inspections : List Inspection) : Except ContractError Unit :=
  match (all (verdicts context inspections)).map (fun _ => ()) with
  | .success _ => .ok ()
  | .failure first rest => .error ⟨first :: rest⟩

/-- Of some contracts these are run: all of them, or those up to the first one that stops the
run. -/
inductive Examined (context : ContractContext) : List Inspection → List Inspection → Prop where
  | all {inspections : List Inspection}
    (none : ∀ inspection ∈ inspections, ¬ inspection.Stops context) :
    Examined context inspections inspections
  | upTo {before after : List Inspection} {last : Inspection}
    (none : ∀ inspection ∈ before, ¬ inspection.Stops context)
    (stops : last.Stops context) : Examined context (before ++ last :: after) (before ++ [last])

end Inspection

def Contract.inspection (all : List (Validation Violation Unit) → Validation Violation (List Unit))
    (contract : Contract) : Inspection where
  stopsAtOnce := contract.stopsAtOnce
  verdict context := .verdict all (contract.check context)

end Statechart
