import Statechart.Contract.Violation
import Statechart.State.Node
import Statechart.Transition.Target

set_option autoImplicit false

namespace Statechart

/-- One thing wrong with a definition. -/
inductive Finding where
  | unnamedChild (parent : String)
  | emptyOrigin (row : Nat)
  | zeroCascadeDepth
  | undeclaredInitialState (state : String)
  | rootTarget (origin : String) (event : Option String) (row position : Nat)
  | unnamedEvent (events : List String)
  | reservedEvent
  | emptyEventName (row : Nat) (origin : String)
  | noTarget (origin : String) (event : Option String) (row : Nat)
  | mixedTargets (origin : String) (event : Option String) (row targets unguarded : Nat)
  | repeatedState (state : String)
  | rootRedeclared
  | noStates
  | unusedEvent (event : String)
  | undeclaredEvent (event : String)
  | rootRowNotInit (event : Option String) (row : Nat)
  | unreferencedState (state : String)
  | undeclaredState (state : String)
  | initialStateBesideStart (state : String) (starts : Nat)
  | noStart
  | manyStarts (starts : Nat)
  | initFromNonCompound (row : Nat) (state : String)
  | noInit (state : String)
  | manyInits (state : String) (rows : List Nat)
  | conditionalInit (state : String) (row : Nat)
  | initToHistory (state : String) (target : Target)
  | initOutside (state target : String)
  | mixedEventless (state : String) (events : List String)
  | eventlessSelfLoop (state : String) (row position : Nat)
  | splitRows (state event : String) (rows : List Nat)
  | ancestorConflict (event ancestor state : String)
  | undeclaredHistory (state : String) (origins : Table Nat)
  | atomicHistory (state : String) (origins : Table Nat)
  deriving DecidableEq

namespace Finding

/-- How the event of a row is named in messages. -/
def eventLabel (event : Option String) : String :=
  event.getD "<eventless>"

/-- How the event of a table key is named in messages. -/
def keyLabel (key : String) : String :=
  if key = eventlessKey then eventLabel none else key

/-- A name between backquotes. -/
def tick (name : String) : String :=
  "`" ++ name ++ "`"

def message : Finding → String
  | .unnamedChild parent => "a child of " ++ tick parent ++ " has an empty name"
  | .emptyOrigin row => "transition row " ++ toString row ++ " has an empty origin state"
  | .zeroCascadeDepth => "max_cascade_depth must be at least 1"
  | .undeclaredInitialState state =>
    "initial control state " ++ tick state ++ " is not a declared state"
  | .rootTarget origin event _ _ =>
    "transition from " ++ tick origin ++ " on " ++ tick (eventLabel event) ++
      " targets the reserved root state"
  | .unnamedEvent _ => "declared events must have non-empty names"
  | .reservedEvent => tick initEvent ++ " is reserved and cannot be declared"
  | .emptyEventName row origin =>
    "transition row " ++ toString row ++ " from " ++ tick origin
      ++ " uses an empty event name; eventless transitions carry no event"
  | .noTarget origin event _ =>
    "transition from " ++ tick origin ++ " on " ++ tick (eventLabel event) ++ " has no target"
  | .mixedTargets origin event _ _ _ =>
    "transition from " ++ tick origin ++ " on " ++ tick (eventLabel event)
      ++ " mixes unconditional and guarded targets"
  | .repeatedState state => "state " ++ tick state ++ " is declared more than once"
  | .rootRedeclared => tick rootName ++ " is reserved for the root state"
  | .noStates => "a machine needs at least one control state"
  | .unusedEvent event => "event " ++ tick event ++ " is declared but no transition uses it"
  | .undeclaredEvent event =>
    "event " ++ tick event ++ " is used by a transition but never declared"
  | .rootRowNotInit event _ =>
    "the root state only accepts " ++ tick initEvent ++ ", found " ++ tick (eventLabel event)
  | .unreferencedState state =>
    "state " ++ tick state ++ " is declared but no transition references it"
  | .undeclaredState state =>
    "state " ++ tick state ++ " is referenced by a transition but never declared"
  | .initialStateBesideStart state _ =>
    "initial control state " ++ tick state ++ " given alongside an explicit " ++ tick initEvent
      ++ " transition from the root"
  | .noStart => "no initial control state and no " ++ tick initEvent ++ " transition from the root"
  | .manyStarts starts =>
    toString starts ++ " " ++ tick initEvent ++ " transitions from the root, expected exactly one"
  | .initFromNonCompound _ state =>
    tick initEvent ++ " transition from non-compound state " ++ tick state
  | .noInit state =>
    "compound state " ++ tick state ++ " has no " ++ tick initEvent ++ " transition"
  | .manyInits state rows =>
    "compound state " ++ tick state ++ " has " ++ toString rows.length ++ " " ++ tick initEvent ++
      " transitions"
  | .conditionalInit state _ =>
    tick initEvent ++ " transition of " ++ tick state ++ " must be unconditional"
  | .initToHistory state _ =>
    tick initEvent ++ " transition of " ++ tick state ++ " cannot target a history state"
  | .initOutside state target =>
    tick initEvent ++ " transition of " ++ tick state ++ " targets " ++ tick target
      ++ ", which is not one of its descendants"
  | .mixedEventless state events =>
    "state " ++ tick state ++ " has an eventless transition alongside transitions on "
      ++ Text.list (events.map Text.quoted)
  | .eventlessSelfLoop state _ _ =>
    "atomic state " ++ tick state ++ " has an eventless transition to itself"
  | .splitRows state event rows =>
    "state " ++ tick state ++ " declares " ++ toString rows.length ++ " separate transitions on "
      ++ tick (keyLabel event) ++ "; list the guards in one transition"
  | .ancestorConflict event ancestor state =>
    tick ancestor ++ " and its descendant " ++ tick state ++ " both handle " ++
      tick (keyLabel event)
  | .undeclaredHistory state _ => "history target " ++ tick state ++ " is not a declared state"
  | .atomicHistory state _ => "history target " ++ tick state ++ " is atomic and has no history"

def rowsData (rows : List Nat) : Json :=
  .array (rows.map Json.nat)

def data : Finding → Json
  | .unnamedChild parent => .object [("parent", .string parent)]
  | .emptyOrigin row => .object [("row", .nat row)]
  | .zeroCascadeDepth => .object [("max_cascade_depth", .nat 0)]
  | .undeclaredInitialState state => .object [("initial_control_state", .string state)]
  | .rootTarget _ _ row position => .object [("row", .nat row), ("position", .nat position)]
  | .unnamedEvent events => .object [("events", .strings events)]
  | .reservedEvent => .object [("event", .string initEvent)]
  | .emptyEventName row _ => .object [("row", .nat row)]
  | .noTarget _ _ row => .object [("row", .nat row)]
  | .mixedTargets _ _ row targets unguarded =>
    .object [("row", .nat row), ("guards", .nat targets), ("unguarded", .nat unguarded)]
  | .repeatedState state => .object [("state", .string state)]
  | .rootRedeclared => .object [("state", .string rootName)]
  | .noStates => .object [("states", .array [])]
  | .unusedEvent event | .undeclaredEvent event => .object [("event", .string event)]
  | .rootRowNotInit _ row => .object [("row", .nat row)]
  | .unreferencedState state | .undeclaredState state => .object [("state", .string state)]
  | .initialStateBesideStart state starts =>
    .object [("initial_control_state", .string state),
      ("explicit_initial_transitions", .nat starts)]
  | .noStart => .object [("initial_control_state", .null), ("explicit_initial_transitions", .nat 0)]
  | .manyStarts starts =>
    .object [("initial_control_state", .null), ("explicit_initial_transitions", .nat starts)]
  | .initFromNonCompound row state => .object [("row", .nat row), ("state", .string state)]
  | .noInit state => .object [("state", .string state)]
  | .manyInits state rows => .object [("state", .string state), ("rows", rowsData rows)]
  | .conditionalInit state row => .object [("state", .string state), ("row", .nat row)]
  | .initToHistory state target =>
    .object [("state", .string state), ("target", .string target.label)]
  | .initOutside state target => .object [("state", .string state), ("target", .string target)]
  | .mixedEventless state events => .object [("state", .string state), ("events", .strings events)]
  | .eventlessSelfLoop state row position =>
    .object [("state", .string state), ("row", .nat row), ("position", .nat position)]
  | .splitRows state event rows =>
    .object [("state", .string state), ("event", .string event), ("rows", rowsData rows)]
  | .ancestorConflict event ancestor state =>
    .object [("event", .string event), ("ancestor", .string ancestor), ("state", .string state)]
  | .undeclaredHistory state origins | .atomicHistory state origins =>
    .object [("state", .string state), ("origins", .ofTable Json.nat origins)]

def violation (contract : String) (finding : Finding) : Violation :=
  ⟨contract, finding.message, finding.data⟩

end Finding

end Statechart
