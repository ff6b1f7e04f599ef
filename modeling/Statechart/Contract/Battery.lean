import Statechart.Contract.Rules

set_option autoImplicit false

namespace Statechart

/-- A named, checkable property of a definition. -/
structure Contract where
  name : String
  description : String
  stopsAtOnce : Bool
  check : ContractContext → List Violation

namespace Contract

def ofRule (name description : String) (rule : ContractContext → List Finding) : Contract :=
  ⟨name, description, false, fun context => (rule context).map (Finding.violation name)⟩

def text (contract : Contract) : String :=
  Text.record "Contract" [("name", Text.quoted contract.name),
    ("should_throw_immediately", Text.truth contract.stopsAtOnce)]

/-- The violations of a list of contracts, up to the first failing one that stops at once. -/
def violations (context : ContractContext) : List Contract → List Violation
  | [] => []
  | contract :: rest =>
    let found := contract.check context
    if contract.stopsAtOnce ∧ found ≠ [] then found else found ++ violations context rest

/-- Checks a definition with a list of contracts. -/
def checkAll (context : ContractContext) (contracts : List Contract) : Except ContractError Unit :=
  match violations context contracts with
  | [] => .ok ()
  | found => .error ⟨found⟩

open ContractContext

/-- The contracts every definition is checked with, in order. -/
def battery : List Contract := [
  ofRule "well_formed_definition" "states, transitions and settings have the expected shape"
    wellFormedDefinition,
  ofRule "initial_control_state_declared"
    "the initial control state, when given, is a declared state" initialStateDeclared,
  ofRule "no_transition_to_root" "no transition targets the root state" noTransitionToRoot,
  ofRule "event_names_valid" "event names are non-empty and do not reuse the init event"
    eventNamesValid,
  ofRule "transition_shape" "an unconditional target is the only target of its transition"
    transitionShape,
  ofRule "unique_state_names" "state names are unique across the hierarchy" uniqueStateNames,
  ofRule "root_name_not_reused" "no declared state reuses the root name" rootNameNotReused,
  ofRule "at_least_one_state" "at least one control state is declared" atLeastOneState,
  ofRule "events_match_transitions" "declared events and events used by transitions agree"
    eventsMatchTransitions,
  ofRule "states_match_transitions" "declared states and states referenced by transitions agree"
    statesMatchTransitions,
  ofRule "single_initial_transition" "exactly one way of entering the machine is given"
    singleInitialTransition,
  ofRule "init_only_from_compound" "init transitions originate only from compound states"
    initOnlyFromCompound,
  ofRule "compound_init_valid" "each compound state has one unconditional init into a descendant"
    compoundInitValid,
  ofRule "no_mixed_eventless" "a state with an eventless transition has no other transitions"
    noMixedEventless,
  ofRule "no_eventless_atomic_self_loop" "no atomic state has an eventless transition to itself"
    noEventlessAtomicSelfLoop,
  ofRule "guards_in_single_row" "all guards for an (origin, event) pair sit in one transition"
    guardsInSingleRow,
  ofRule "no_ancestor_conflicts" "a state and one of its ancestors never handle the same event"
    noAncestorConflicts,
  ofRule "history_targets_valid" "history targets name declared compound states"
    historyTargetsValid]

end Contract

end Statechart
