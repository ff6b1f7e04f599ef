import Statechart.Contract.Battery

set_option autoImplicit false

namespace Statechart

namespace Contract

theorem violations_eq_nil_iff (context : ContractContext) (contracts : List Contract) :
    violations context contracts = [] ↔ ∀ contract ∈ contracts, contract.check context = [] := by
  induction contracts with
  | nil => simp [violations]
  | cons contract rest ih =>
    rw [violations, List.forall_mem_cons, ← ih]
    by_cases stops : contract.stopsAtOnce = true ∧ contract.check context ≠ []
    · simp [stops]
    · simp [stops]

theorem checkAll_eq_ok_iff (context : ContractContext) (contracts : List Contract) :
    checkAll context contracts = .ok () ↔ ∀ contract ∈ contracts, contract.check context = [] := by
  rw [← violations_eq_nil_iff, checkAll]
  cases violations context contracts <;> simp

theorem check_ofRule_eq_nil_iff (name description : String) (rule : ContractContext → List Finding)
    (context : ContractContext) : (ofRule name description rule).check context = [] ↔
    rule context = [] :=
  List.map_eq_nil_iff

end Contract

/-- No rule of the battery finds anything. -/
structure ContractContext.Passes (context : ContractContext) : Prop where
  wellFormedDefinition : context.wellFormedDefinition = []
  initialStateDeclared : context.initialStateDeclared = []
  noTransitionToRoot : context.noTransitionToRoot = []
  eventNamesValid : context.eventNamesValid = []
  transitionShape : context.transitionShape = []
  uniqueStateNames : context.uniqueStateNames = []
  rootNameNotReused : context.rootNameNotReused = []
  atLeastOneState : context.atLeastOneState = []
  eventsMatchTransitions : context.eventsMatchTransitions = []
  statesMatchTransitions : context.statesMatchTransitions = []
  singleInitialTransition : context.singleInitialTransition = []
  initOnlyFromCompound : context.initOnlyFromCompound = []
  compoundInitValid : context.compoundInitValid = []
  noMixedEventless : context.noMixedEventless = []
  noEventlessAtomicSelfLoop : context.noEventlessAtomicSelfLoop = []
  guardsInSingleRow : context.guardsInSingleRow = []
  noAncestorConflicts : context.noAncestorConflicts = []
  historyTargetsValid : context.historyTargetsValid = []

theorem Contract.checkAll_battery_iff (context : ContractContext) :
    checkAll context battery = .ok () ↔ context.Passes := by
  rw [checkAll_eq_ok_iff]
  simp only [battery, List.forall_mem_cons, List.not_mem_nil, false_imp_iff, implies_true, and_true,
    check_ofRule_eq_nil_iff]
  constructor
  · rintro ⟨h1, h2, h3, h4, h5, h6, h7, h8, h9, h10, h11, h12, h13, h14, h15, h16, h17, h18⟩
    exact ⟨h1, h2, h3, h4, h5, h6, h7, h8, h9, h10, h11, h12, h13, h14, h15, h16, h17, h18⟩
  · intro passes
    exact ⟨passes.1, passes.2, passes.3, passes.4, passes.5, passes.6, passes.7, passes.8, passes.9,
      passes.10, passes.11, passes.12, passes.13, passes.14, passes.15, passes.16, passes.17,
      passes.18⟩

end Statechart
