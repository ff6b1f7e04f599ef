import Statechart.Transition.Draft

set_option autoImplicit false

namespace Statechart

/-- What calls are about. That a row has no event is said about its event. -/
inductive DraftField where
  | origin
  | event
  | target
  | action
  | guarded
  deriving DecidableEq

variable {M : Model}

namespace DraftCall

def field : DraftCall M → DraftField
  | .origin _ => .origin
  | .event _ | .automatic => .event
  | .target _ => .target
  | .action _ => .action
  | .guarded _ _ _ => .guarded

def origin? : DraftCall M → Option String
  | .origin state => some state
  | .event _ | .automatic | .target _ | .action _ | .guarded _ _ _ => none

/-- The event that a call gives, which may be none. -/
def event? : DraftCall M → Option (Option String)
  | .event name => some (some name)
  | .automatic => some none
  | .origin _ | .target _ | .action _ | .guarded _ _ _ => none

def target? : DraftCall M → Option Target
  | .target leadsTo => some leadsTo
  | .origin _ | .event _ | .automatic | .action _ | .guarded _ _ _ => none

def action? : DraftCall M → Option (Action M)
  | .action does => some does
  | .origin _ | .event _ | .automatic | .target _ | .guarded _ _ _ => none

def guarded? : DraftCall M → Option (GuardedTarget M)
  | .guarded guard leadsTo does => some (.when guard leadsTo does)
  | .origin _ | .event _ | .automatic | .target _ | .action _ => none

end DraftCall

/-- The order in which errors are looked for. -/
def DraftError.rank : DraftError → Nat
  | .missingOrigin => 0
  | .missingEvent => 1
  | .mixedForms _ => 2
  | .missingTarget => 3

namespace TransitionDraft

open DraftCall

def Mentions (calls : List (DraftCall M)) (field : DraftField) : Prop :=
  ∃ call ∈ calls, call.field = field

def last? {α : Type} (given? : DraftCall M → Option α) (calls : List (DraftCall M)) : Option α :=
  (calls.filterMap given?).getLast?

/-- The guarded targets given, in order. -/
def choices (calls : List (DraftCall M)) : List (GuardedTarget M) :=
  calls.filterMap guarded?

/-- Calls say all that a row needs, and its targets in one form only. -/
structure Complete (calls : List (DraftCall M)) : Prop where
  origin : Mentions calls .origin
  event : Mentions calls .event
  form : Mentions calls .target ∧ ¬ Mentions calls .guarded ∨
    Mentions calls .guarded ∧ ¬ Mentions calls .target ∧ ¬ Mentions calls .action

/-- The row that calls describe: unconditional, with the last target and the last action if
there is any, or with the guarded targets in order. -/
inductive Describes (calls : List (DraftCall M)) : Transition M → Prop where
  | plain {origin : String} {event : Option String} {target : Target}
    (leaves : last? origin? calls = some origin) (on : last? event? calls = some event)
    (leads : last? target? calls = some target)
    (unguarded : choices calls = []) :
    Describes calls ⟨origin, event, [⟨none, target, (last? action? calls).getD .identity⟩]⟩
  | choice {origin : String} {event : Option String} (leaves : last? origin? calls = some origin)
    (on : last? event? calls = some event) (guarded : choices calls ≠ [])
    (notPlain : ¬ Mentions calls .target)
    (actionless : ¬ Mentions calls .action) : Describes calls ⟨origin, event, choices calls⟩

/-- What calls have to be like for an error. -/
def Warrants (calls : List (DraftCall M)) : DraftError → Prop
  | .missingOrigin => ¬ Mentions calls .origin
  | .missingEvent => ¬ Mentions calls .event
  | .mixedForms origin =>
    last? origin? calls = some origin ∧ Mentions calls .guarded ∧
      (Mentions calls .target ∨ Mentions calls .action)
  | .missingTarget => ¬ Mentions calls .target ∧ ¬ Mentions calls .guarded

/-- The error that calls come to: the first in order of those that they warrant. -/
def FailsWith (calls : List (DraftCall M)) (error : DraftError) : Prop :=
  Warrants calls error ∧ ∀ other, Warrants calls other → error.rank ≤ other.rank

/-- Two sequences of calls differ at most in how calls about different fields are interleaved. -/
def SameByField (calls others : List (DraftCall M)) : Prop :=
  ∀ field, calls.filter (fun call => call.field = field) =
    others.filter (fun call => call.field = field)

end TransitionDraft

end Statechart
