import Statechart.Transition.Row

set_option autoImplicit false

namespace Statechart

inductive DraftError where
  | missingOrigin
  | missingEvent
  | missingTarget
  | mixedForms (origin : String)
  deriving DecidableEq

namespace DraftError

def message : DraftError → String
  | .missingOrigin => "Transition source state not specified. Call .from(state)"
  | .missingEvent => "Transition event not specified. Call .on(event) or .automatic()"
  | .missingTarget =>
    "Transition target not specified. Call .to(target) or .when(guard, target, action)"
  | .mixedForms origin =>
    "Transition from '" ++ origin ++ "' mixes .to()/.action() with guarded .when() targets"

end DraftError

/-- What has been said about a row so far. An event that is given may be given as none. -/
structure TransitionDraft (M : Model) where
  origin : Option String := none
  event : Option (Option String) := none
  target : Option Target := none
  action : Option (Action M) := none
  guarded : List (GuardedTarget M) := []

/-- One thing said about a row. -/
inductive DraftCall (M : Model) where
  | origin (state : String)
  | event (name : String)
  | automatic
  | target (target : Target)
  | action (action : Action M)
  | guarded (guard : Guard M) (target : Target) (action : Action M)

namespace TransitionDraft

variable {M : Model}

/-- Takes in one call: a later setting replaces an earlier one, guarded targets accumulate. -/
def call (draft : TransitionDraft M) : DraftCall M → TransitionDraft M
  | .origin state => { draft with origin := some state }
  | .event name => { draft with event := some (some name) }
  | .automatic => { draft with event := some none }
  | .target target => { draft with target := some target }
  | .action action => { draft with action := some action }
  | .guarded guard target action =>
    { draft with guarded := draft.guarded ++ [.when guard target action] }

def ofCalls (calls : List (DraftCall M)) : TransitionDraft M :=
  calls.foldl call {}

/-- The row of a draft, which needs an origin, an event or the word that there is none, and
targets of one form. A lone action belongs to the unconditional form. -/
def build (draft : TransitionDraft M) : Except DraftError (Transition M) :=
  match draft.origin, draft.event with
  | none, _ => .error .missingOrigin
  | some _, none => .error .missingEvent
  | some origin, some event =>
    match draft.target, draft.guarded with
    | none, [] => .error .missingTarget
    | some target, [] => .ok ⟨origin, event, [.always target (draft.action.getD .identity)]⟩
    | some _, _ :: _ => .error (.mixedForms origin)
    | none, guarded =>
      if draft.action.isSome then .error (.mixedForms origin) else .ok ⟨origin, event, guarded⟩

end TransitionDraft

end Statechart
