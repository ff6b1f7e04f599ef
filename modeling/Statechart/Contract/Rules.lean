import Statechart.Contract.Finding
import Statechart.Indices.Indices
import Statechart.Settings

set_option autoImplicit false

namespace Statechart

/-- What rules look at: the definition as given, the settings, and the indices. The explicit
starts are the rows from the root on init that were given, without one made from the initial
state. -/
structure ContractContext where
  states : List StateNode
  events : List String
  initialState : Option String
  explicitStarts : Nat
  settings : Settings
  indices : Indices
  deriving DecidableEq

namespace ContractContext

variable (context : ContractContext)

def rows : List (RowShape × Nat) :=
  context.indices.tables.shapes.zipIdx

/-- All targets of all rows. -/
def flat : List FlatTransition :=
  context.indices.tables.flat

def names : List String :=
  context.indices.hierarchy.names

/-- States, rows and settings have the expected shape. -/
def wellFormedDefinition : List Finding :=
  (((StateNode.root context.states).preOrder.filter (fun visit => visit.node.name = "")).map
      (fun visit => .unnamedChild ((visit.parent.map StateNode.name).getD "")))
    ++ ((context.rows.filter (fun row => row.1.origin = "")).map (fun row => .emptyOrigin row.2))
    ++ (if context.settings.maxCascadeDepth = 0 then [.zeroCascadeDepth] else [])

def initialStateDeclared : List Finding :=
  match context.initialState with
  | some state =>
    if state = rootName ∨ state ∉ context.names then [.undeclaredInitialState state] else []
  | none => []

def noTransitionToRoot : List Finding :=
  (context.flat.filter (fun flat => flat.target.stateName = rootName)).map
    (fun flat => .rootTarget flat.origin flat.event flat.row flat.position)

/-- Declared events have names other than init, and rows with an event name it. -/
def eventNamesValid : List Finding :=
  context.events.filterMap (fun event =>
      if event = "" then some (.unnamedEvent context.events)
      else if event = initEvent then some .reservedEvent
      else none)
    ++ (context.rows.filter (fun row => row.1.event = some eventlessKey)).map
      (fun row => .emptyEventName row.2 row.1.origin)

/-- Every row has a target, and an unconditional target is alone in its row. -/
def transitionShape : List Finding :=
  context.rows.filterMap (fun row =>
    if row.1.targets = 0 then some (.noTarget row.1.origin row.1.event row.2)
    else if 0 < row.1.unguarded ∧ 1 < row.1.targets then
      some (.mixedTargets row.1.origin row.1.event row.2 row.1.targets row.1.unguarded)
    else none)

/-- The names that occur again after some names, each once and where it first occurs again. -/
def repeats (seen reported : List String) : List String → List String
  | [] => []
  | name :: rest =>
    if name ∈ seen ∧ name ∉ reported then name :: repeats seen (name :: reported) rest
    else repeats (name :: seen) reported rest

def uniqueStateNames : List Finding :=
  (repeats [] [] context.names).map .repeatedState

def rootNameNotReused : List Finding :=
  if rootName ∈ context.names then [.rootRedeclared] else []

def atLeastOneState : List Finding :=
  if context.names = [] then [.noStates] else []

/-- The declared events, less those that other rules blame. -/
def declaredEvents : List String :=
  Table.distinct (context.events.filter (fun event => event ≠ "" ∧ event ≠ initEvent))

/-- The events that rows name, less init. -/
def usedEvents : List String :=
  Table.distinct ((context.rows.filterMap (fun row => row.1.event)).filter
    (fun event => event ≠ initEvent ∧ event ≠ eventlessKey))

/-- The declared events are those that rows use. -/
def eventsMatchTransitions : List Finding :=
  (context.declaredEvents.filter (fun event => event ∉ context.usedEvents)).map .unusedEvent
    ++ (context.usedEvents.filter (fun event => event ∉ context.declaredEvents)).map
      .undeclaredEvent

def declaredStates : List String :=
  Table.distinct context.names

/-- The names that rows mention as origin or target, less the root's. -/
def referencedStates : List String :=
  Table.distinct
    ((context.rows.map (fun row => row.1.origin) ++
      context.flat.map (fun flat => flat.target.stateName)).filter
    (fun state => state ≠ rootName))

/-- The declared states are those that rows mention, and the root has init rows only. -/
def statesMatchTransitions : List Finding :=
  (context.rows.filter (fun row => row.1.origin = rootName ∧ row.1.event ≠ some initEvent)).map
      (fun row => .rootRowNotInit row.1.event row.2)
    ++ (context.declaredStates.filter (fun state => state ∉ context.referencedStates)).map
      .unreferencedState
    ++ (context.referencedStates.filter (fun state => state ∉ context.declaredStates)).map
      .undeclaredState

/-- There is one way into the machine: an initial state, or one explicit start. -/
def singleInitialTransition : List Finding :=
  match context.initialState, context.explicitStarts with
  | some _, 0 => []
  | some state, starts => [.initialStateBesideStart state starts]
  | none, 0 => [.noStart]
  | none, 1 => []
  | none, starts => [.manyStarts starts]

def initOnlyFromCompound : List Finding :=
  (context.rows.filter (fun row => row.1.event = some initEvent ∧ row.1.origin ≠ rootName
      ∧ !context.indices.hierarchy.isCompound row.1.origin)).map
    (fun row => .initFromNonCompound row.2 row.1.origin)

def compoundStates : List String :=
  ((context.indices.hierarchy.compound.entries.filter (fun entry => entry.2)).map Prod.fst).filter
    (fun state => state ≠ rootName)

/-- What is wrong with the single init row of a compound state. -/
def initRowFindings (state : String) (row : Nat) : List Finding :=
  match context.indices.tables.shapes[row]? with
  | none => []
  | some shape =>
    if shape.targets ≠ 1 ∨ shape.unguarded ≠ 1 then [.conditionalInit state row]
    else match context.flat.find? (fun flat => flat.row = row) with
      | none => []
      | some flat =>
        if flat.target.isHistory then [.initToHistory state flat.target]
        else if !context.indices.hierarchy.isStrictAncestor state flat.target.stateName then
          [.initOutside state flat.target.stateName]
        else []

/-- Every compound state has one init row, unconditional and into one of its descendants. -/
def compoundInitValid : List Finding :=
  context.compoundStates.flatMap (fun state =>
    match context.indices.tables.rowsOn state initEvent with
    | [] => [.noInit state]
    | [row] => context.initRowFindings state row
    | rows => [.manyInits state rows])

/-- A state with an eventless row has no other rows. -/
def noMixedEventless : List Finding :=
  (context.indices.tables.byOrigin.entries.filter
      (fun entry => entry.2.contains eventlessKey ∧ 1 < entry.2.size)).map
    (fun entry => .mixedEventless entry.1 (entry.2.keys.filter (fun event => event ≠ eventlessKey)))

/-- No eventless row leads from an atomic state to itself. -/
def noEventlessAtomicSelfLoop : List Finding :=
  (context.flat.filter (fun flat => flat.event = none ∧ !flat.target.isHistory ∧
      flat.target.stateName = flat.origin ∧ !context.indices.hierarchy.isCompound flat.origin)).map
    (fun flat => .eventlessSelfLoop flat.origin flat.row flat.position)

/-- All targets of an origin on an event stand in one row. -/
def guardsInSingleRow : List Finding :=
  context.indices.tables.byOrigin.entries.flatMap (fun entry =>
    (entry.2.entries.filter (fun rows => 1 < rows.2.length)).map
      (fun rows => .splitRows entry.1 rows.1 rows.2))

/-- No state handles an event that a state around it handles, init excepted. -/
def noAncestorConflicts : List Finding :=
  (context.indices.tables.byEvent.entries.filter (fun entry => entry.1 ≠ initEvent)).flatMap
      (fun entry =>
    entry.2.keys.flatMap (fun ancestor =>
      (entry.2.keys.filter (fun state =>
        context.indices.hierarchy.isStrictAncestor ancestor state)).map
        (fun state => .ancestorConflict entry.1 ancestor state)))

/-- The origins of some flat positions with their rows; of several rows of one origin the last
is kept. -/
def originsOf (positions : List Nat) : Table Nat :=
  .ofList ((positions.filterMap (fun position => context.flat[position]?)).map
    (fun flat => (flat.origin, flat.row)))

/-- References to history name declared compound states. -/
def historyTargetsValid : List Finding :=
  context.indices.tables.historyTargets.entries.flatMap (fun entry =>
    if !context.indices.hierarchy.contains entry.1 ∨ entry.1 = rootName then
      [.undeclaredHistory entry.1 (context.originsOf entry.2)]
    else if !context.indices.hierarchy.isCompound entry.1 then
      [.atomicHistory entry.1 (context.originsOf entry.2)]
    else [])

end ContractContext

end Statechart
