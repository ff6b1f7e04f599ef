import Statechart.Model
import Statechart.Machine.Entry
import Statechart.Machine.MicroStep

set_option autoImplicit false

namespace Statechart

variable {M : Model}

inductive CallbackKind where
  | guard
  | action
  | reducer
  deriving DecidableEq

/-- The kind of callback that an error blames, if it blames any. -/
def DispatchError.blamed? : DispatchError M → Option CallbackKind
  | .guardFailed _ _ _ => some .guard
  | .actionFailed _ _ _ => some .action
  | .reducerFailed _ _ _ _ => some .reducer
  | .malformed _ | .unknownTarget _ _ _ | .cascadeLimitExceeded _ _ => none

/-- A call that failed, with the text of its failure. The reducer may fail on what an action as
a whole comes to, or before that on what one of its parts comes to, from where the next part
would go on. -/
inductive FailedCall (M : Model) where
  | guard (guard : Guard M) (source : String)
  | action (action : Action M) (source : String)
  | between (updates : List M.Update) (source : String)
  | reducer (updates : List M.Update) (source : String)

namespace FailedCall

def kind : FailedCall M → CallbackKind
  | .guard _ _ => .guard
  | .action _ _ => .action
  | .between _ _ | .reducer _ _ => .reducer

def source : FailedCall M → String
  | .guard _ source | .action _ source | .between _ source | .reducer _ source => source

/-- Whether the reducer failed between two parts of an action. -/
def isBetween : FailedCall M → Bool
  | .between _ _ => true
  | .guard _ _ | .action _ _ | .reducer _ _ => false

end FailedCall

/-- An action fails by a call: that of a part itself, or that of the reducer between two parts. -/
inductive Composition.FailsBy (reducer : Reducer M) (settings : Settings) (data : M.Data) :
    Composition M → M.Ext → FailedCall M → Prop where
  | single {action : Action M} {ext : M.Ext} {source : String}
    (failed : action.run ext data settings = .error source) :
    FailsBy reducer settings data (.single action) ext (.action action source)
  | first {first second : Composition M} {ext : M.Ext} {call : FailedCall M}
    (failed : FailsBy reducer settings data first ext call) :
    FailsBy reducer settings data (.chained first second) ext call
  | between {first second : Composition M} {ext : M.Ext} {updates : List M.Update}
    {outputs : Option (List M.Output)} {source : String}
    (ran : (first.action reducer).run ext data settings = .ok ⟨updates, outputs⟩)
    (failed : reducer ext updates = .error source) :
    FailsBy reducer settings data (.chained first second) ext (.between updates source)
  | second {first second : Composition M} {ext between : M.Ext} {early : ActionResult M}
    {call : FailedCall M} (ran : (first.action reducer).run ext data settings = .ok early)
    (folded : reducer ext early.updates = .ok between)
    (failed : FailsBy reducer settings data second between call) :
    FailsBy reducer settings data (.chained first second) ext call

namespace MachineDraft

/-- The rows of a draft as they were given, and one into the initial state if there is one. -/
def givenRows (draft : MachineDraft M) : List (Transition M) :=
  draft.transitions ++ draft.initialState.toList.map .start

/-- How the action of a target is put together once entry actions are worked in, where it is
known of every action by itself how it was put together. -/
def composition (draft : MachineDraft M) (apart : Action M → Composition M) (row : Nat)
    (guarded : GuardedTarget M) : Composition M :=
  (draft.entriesAt row guarded.target).foldl (fun whole entry => .chained whole (apart entry))
    (apart guarded.action)

end MachineDraft

/-- A step of a machine made from a draft fails by a call: that of a guard it comes to, one made
by the action of the target taken, or that of the reducer on what this action comes to. -/
inductive Machine.StepFailsBy (machine : Machine M) (draft : MachineDraft M)
    (apart : Action M → Composition M) (runtime : Runtime M) (event : String) (data : M.Data)
    (external : Bool) :
    FailedCall M → Prop where
  | guard {handler source : String} {row : Nat} {given : Transition M} {guarded : GuardedTarget M}
    {guard : Guard M}
    (handled : machine.findHandler runtime.control event external = some (handler, row))
    (listed : draft.givenRows[row]? = some given)
    (reached : guarded.ReachedIn given.targets machine.settings runtime.ext data)
    (isGuard : guarded.guard = some guard)
    (failed : guard.check runtime.ext data machine.settings = .error source) :
    StepFailsBy machine draft apart runtime event data external (.guard guard source)
  | action {handler : String} {row : Nat} {given : Transition M} {guarded : GuardedTarget M}
    {call : FailedCall M}
    (handled : machine.findHandler runtime.control event external = some (handler, row))
    (listed : draft.givenRows[row]? = some given)
    (reached : guarded.ReachedIn given.targets machine.settings runtime.ext data)
    (admitted : guarded.Admitted machine.settings runtime.ext data)
    (failed : (draft.composition apart row guarded).FailsBy machine.reducer machine.settings data
      runtime.ext call) :
    StepFailsBy machine draft apart runtime event data external call
  | reducer {handler source : String} {row : Nat} {given : Transition M} {guarded : GuardedTarget M}
    {updates : List M.Update} {outputs : Option (List M.Output)}
    (handled : machine.findHandler runtime.control event external = some (handler, row))
    (listed : draft.givenRows[row]? = some given)
    (reached : guarded.ReachedIn given.targets machine.settings runtime.ext data)
    (admitted : guarded.Admitted machine.settings runtime.ext data)
    (ran : ((draft.composition apart row guarded).action machine.reducer).run runtime.ext data
      machine.settings = .ok ⟨updates, outputs⟩)
    (failed : machine.reducer runtime.ext updates = .error source) :
    StepFailsBy machine draft apart runtime event data external (.reducer updates source)

end Statechart
