import Statechart.Contract.Violation
import Statechart.Event.Envelope
import Statechart.Transition.Draft

set_option autoImplicit false

namespace Statechart

/-- What happened to an event. Unless a transition was taken nothing changed. -/
inductive DispatchOutcome (α : Type) where
  | transitioned (outputs : List α)
  | unhandled (state event : String)
  | noGuardSatisfied (state event : String)
  deriving DecidableEq

namespace DispatchOutcome

variable {α : Type}

def isTransitioned : DispatchOutcome α → Bool
  | .transitioned _ => true
  | .unhandled _ _ | .noGuardSatisfied _ _ => false

/-- The outputs of the transitions taken, if any was. -/
def outputs? : DispatchOutcome α → Option (List α)
  | .transitioned outputs => some outputs
  | .unhandled _ _ | .noGuardSatisfied _ _ => none

end DispatchOutcome

/-- Where a callback was called: the control state, the event, the extended state and the data. -/
structure CallSite (M : Model) where
  state : String
  event : String
  ext : M.Ext
  data : M.Data

/-- Why a dispatch failed. Callbacks give the text of their own failure. -/
inductive DispatchError (M : Model) where
  | malformed (reason : EventError)
  | guardFailed (guard : String) (site : CallSite M) (source : String)
  | actionFailed (action : String) (site : CallSite M) (source : String)
  | reducerFailed (action : String) (site : CallSite M) (updates : List M.Update) (source : String)
  | unknownTarget (state event target : String)
  | cascadeLimitExceeded (state : String) (limit : Nat)

namespace DispatchError

variable {M : Model}

/-- How a call site is described. -/
def siteText (site : CallSite M) (last : String) : String :=
  "in state '" ++ site.state ++ "' on event '" ++ site.event ++ "' (extended state: " ++
    M.extText site.ext ++ ", " ++ last ++ ")"

def message : DispatchError M → String
  | .malformed reason => "Malformed event: " ++ reason.message
  | .guardFailed guard site source =>
    "Guard '" ++ guard ++ "' failed " ++ siteText site ("event data: " ++ M.dataText site.data) ++
      ": " ++ source
  | .actionFailed action site source =>
    "Action '" ++ action ++ "' failed " ++ siteText site ("event data: " ++ M.dataText site.data) ++
      ": " ++ source
  | .reducerFailed action site updates source =>
    "Reducer failed on updates of action '" ++ action ++ "' " ++
      siteText site ("updates: " ++ M.updatesText updates) ++ ": " ++ source
  | .unknownTarget state event target =>
    "Transition from '" ++ state ++ "' on event '" ++ event ++ "' resolved to unknown state '" ++
      target ++ "'"
  | .cascadeLimitExceeded state limit =>
    "More than " ++ toString limit ++ " chained transitions after entering '" ++ state ++ "'"

/-- The text of the failed callback, if a callback failed. -/
def source? : DispatchError M → Option String
  | .guardFailed _ _ source | .actionFailed _ _ source | .reducerFailed _ _ _ source => some source
  | .malformed _ | .unknownTarget _ _ _ | .cascadeLimitExceeded _ _ => none

end DispatchError

inductive BuildError (M : Model) where
  | missingExtendedState
  | missingReducer
  | draft (error : DraftError)
  | unknownEntryState (state : String)
  | missingInitialTransition
  | contracts (error : ContractError)
  | initialization (error : DispatchError M)

namespace BuildError

variable {M : Model}

def message : BuildError M → String
  | .missingExtendedState =>
    "Initial extended state not specified. Call .initial_extended_state(state) before .build()"
  | .missingReducer => "Reducer not specified. Call .update_state(reducer) before .build()"
  | .draft error => error.message
  | .unknownEntryState state => "Entry action declared for unknown state '" ++ state ++ "'"
  | .missingInitialTransition =>
    "No initial transition. Call .initial_control_state(state) or add a transition from the root on init"
  | .contracts error => error.message
  | .initialization error => "Machine failed to settle in its initial state: " ++ error.message

end BuildError

end Statechart
