import Statechart.Machine.Life
import Statechart.Proofs.Contract.WellFormed
import Statechart.Proofs.Machine.Safety
import Statechart.Proofs.Machine.Taken

set_option autoImplicit false

namespace Statechart

variable {M : Model} {definition : MachineDefinition M} {settings : Settings} {machine : Machine M}

namespace Contract

theorem violations_congr {context other : ContractContext} {contracts : List Contract}
    (same : ∀ contract ∈ contracts, contract.check context = contract.check other) :
    violations context contracts = violations other contracts := by
  induction contracts with
  | nil => rfl
  | cons contract rest ih =>
    obtain ⟨here, further⟩ := List.forall_mem_cons.mp same
    rw [violations, violations, here, ih further]

end Contract

namespace MachineDefinition

/-- The row into the initial state has no guard, and its action does nothing. -/
theorem IgnoresLimit.of_rows (ignores : definition.IgnoresLimit) {row : Transition M}
    (listed : row ∈ definition.rows) {guarded : GuardedTarget M}
    (inRow : guarded ∈ row.targets) : guarded.IgnoresLimit := by
  rcases mem_rows listed with given | ⟨state, rfl⟩
  · exact ignores row given guarded inRow
  · cases List.mem_singleton.mp inRow
    exact ⟨nofun, fun _ _ _ _ => rfl⟩

end MachineDefinition

section

variable (definition : MachineDefinition M) (settings : Settings) {limit larger : Nat}
  (positive : limit ≠ 0) (otherPositive : larger ≠ 0)

include positive otherPositive

/-- The battery asks of the limit only that it is not zero. -/
theorem Contract.checkAll_withCascadeLimit :
    checkAll (definition.context (settings.withCascadeLimit larger)) battery
      = checkAll (definition.context (settings.withCascadeLimit limit)) battery := by
  have same : ∀ contract ∈ battery,
      contract.check (definition.context (settings.withCascadeLimit larger))
      = contract.check (definition.context (settings.withCascadeLimit limit)) := by
    have shape : (definition.context (settings.withCascadeLimit larger)).wellFormedDefinition
        = (definition.context (settings.withCascadeLimit limit)).wellFormedDefinition := by
      have zero {limit : Nat} (positive : limit ≠ 0) :
          ¬ (definition.context (settings.withCascadeLimit limit)).settings.maxCascadeDepth = 0 :=
            positive
      rw [ContractContext.wellFormedDefinition, ContractContext.wellFormedDefinition,
        if_neg (zero positive), if_neg (zero otherPositive)]
      rfl
    refine List.forall_mem_cons.mpr ⟨congrArg (List.map _) shape, ?_⟩
    -- The other rules do not look at the settings at all.
    repeat refine List.forall_mem_cons.mpr ⟨rfl, ?_⟩
    exact List.forall_mem_nil _
  rw [checkAll, checkAll, violations_congr same]

theorem Machine.check_withCascadeLimit :
    check definition (settings.withCascadeLimit larger) =
      check definition (settings.withCascadeLimit limit) := by
  rw [check, check, Contract.checkAll_withCascadeLimit definition settings positive otherPositive]
  rfl

end

theorem MachineDefinition.Accepted.withCascadeLimit (accepted : definition.Accepted settings)
    {limit : Nat}
    (positive : limit ≠ 0) : definition.Accepted (settings.withCascadeLimit limit) := by
  have room : settings.maxCascadeDepth ≠ 0 := Nat.ne_of_gt accepted.wellFormed.room
  exact (Contract.checkAll_withCascadeLimit definition settings room positive).trans accepted

namespace Machine

theorem MadeFrom.withCascadeLimit (made : machine.MadeFrom definition settings) (limit : Nat) :
    (machine.withCascadeLimit limit).MadeFrom definition (settings.withCascadeLimit limit) :=
  ⟨congrArg (Settings.withCascadeLimit · limit) made.settings, made.transitions, made.reducer,
    made.indices⟩

section

variable (never : ∀ machine : Machine M, machine.MadeFrom definition settings → ∀ event state limit,
  (machine.dispatch event).result ≠ .error (.cascadeLimitExceeded state limit))

include never

theorem observations_ne_limit (made : machine.MadeFrom definition settings)
    (events : List (Event M.Data)) :
    ∀ seen ∈ machine.observations events, ∀ state limit,
    seen.answer ≠ .error (.cascadeLimitExceeded state limit) := by
  induction events generalizing machine with
  | nil => exact List.forall_mem_nil _
  | cons event rest ih =>
    exact List.forall_mem_cons.mpr ⟨never machine made event, ih (made.dispatch event)⟩

/-- Where no dispatch hits the limit, no life does. -/
theorem life_withinLimit (events : List (Event M.Data)) :
    (life definition settings events).WithinLimit := by
  have creates := create_creates definition settings
  unfold life
  generalize made : create definition settings = creation at creates
  cases creates with
  | rejected _ => exact ⟨nofun, List.forall_mem_nil _⟩
  | noStart _ _ => exact ⟨nofun, List.forall_mem_nil _⟩
  | stopped _ failed =>
    refine ⟨?_, List.forall_mem_nil _⟩
    intro state limit exceeded
    cases exceeded
    exact never _ (MadeFrom.unstarted definition settings) _ state limit failed
  | started _ _ =>
    have created := MadeFrom.created (congrArg Creation.result made)
    exact ⟨nofun, observations_ne_limit never created events⟩

end

theorem selectTarget_withCascadeLimit (settings : Settings) (site : CallSite M) (limit : Nat)
    {targets : List (GuardedTarget M)} (ignores : ∀ guarded ∈ targets, guarded.IgnoresLimit) :
    selectTarget (settings.withCascadeLimit limit) site targets =
      selectTarget settings site targets := by
  induction targets with
  | nil => rfl
  | cons first rest ih =>
    obtain ⟨here, further⟩ := List.forall_mem_cons.mp ignores
    rw [selectTarget, selectTarget]
    cases condition : first.guard with
    | none => rfl
    | some guard =>
      simp only [here.guard guard condition site.ext site.data settings limit, ih further]

theorem perform_withCascadeLimit (site : CallSite M) (limit : Nat) {guarded : GuardedTarget M}
    (ignores : guarded.IgnoresLimit) :
    (machine.withCascadeLimit limit).perform site guarded.action =
      machine.perform site guarded.action := by
  have ran : guarded.action.run site.ext site.data (machine.withCascadeLimit limit).settings
      = guarded.action.run site.ext site.data machine.settings :=
        ignores.action site.ext site.data machine.settings limit
  rw [perform, perform, ran]
  rfl

section

variable (ignores : definition.IgnoresLimit) (made : machine.MadeFrom definition settings)

include ignores made

theorem step_withCascadeLimit (limit : Nat) (runtime : Runtime M) (event : String) (data : M.Data)
    (external : Bool) :
    (machine.withCascadeLimit limit).step runtime event data external =
      machine.step runtime event data external := by
  have ignoring {position : Nat} {guarded : GuardedTarget M}
      (inRow : guarded ∈ machine.targetsOf position) : guarded.IgnoresLimit := by
    obtain ⟨row, listed, member⟩ := made.mem_targetsOf inRow
    exact ignores.of_rows listed member
  have sameHandler : (machine.withCascadeLimit limit).findHandler runtime.control event external
      = machine.findHandler runtime.control event external := rfl
  rw [step, step, sameHandler]
  cases machine.findHandler runtime.control event external with
  | none => rfl
  | some place =>
    obtain ⟨handler, position⟩ := place
    have chosen : selectTarget (machine.withCascadeLimit limit).settings
        ⟨runtime.control, event, runtime.ext, data⟩
        ((machine.withCascadeLimit limit).targetsOf position)
        = selectTarget machine.settings ⟨runtime.control, event, runtime.ext, data⟩
          (machine.targetsOf position) :=
      selectTarget_withCascadeLimit machine.settings _ limit (fun _ inRow => ignoring inRow)
    simp only [bind, Except.bind, chosen]
    cases result : selectTarget machine.settings ⟨runtime.control, event, runtime.ext, data⟩
        (machine.targetsOf position) with
    | error error => rfl
    | ok choice =>
      cases choice with
      | none => rfl
      | some guarded =>
        simp only [perform_withCascadeLimit _ limit (ignoring (mem_of_selectTarget result))]
        rfl

theorem Chain.withCascadeLimit (limit : Nat) {data : M.Data} {external : Bool}
    {runtime last : Runtime M} {event : String} {steps : List (TakenStep M)}
    {pending : Option String}
    (chain : Chain machine data external runtime event steps last pending) :
    Chain (machine.withCascadeLimit limit) data external runtime event steps last pending := by
  have same {runtime : Runtime M} {event : String} {external : Bool}
      {result : Except (DispatchError M) (StepResult M)}
      (ended : machine.step runtime event data external = result) :
      (machine.withCascadeLimit limit).step runtime event data external = result :=
    (step_withCascadeLimit ignores made limit runtime event data external).trans ended
  induction chain with
  | start external runtime event => exact .start external runtime event
  | rest taken quiet => exact .rest (same taken) quiet
  | follow taken raises _ ih => exact .follow (same taken) raises ih

/-- A step under a larger limit is the same, so only what is done after it can differ. -/
theorem advance_eq_or_exceeds (larger : Nat) {data : M.Data} {depth : Nat} {runtime : Runtime M}
    {event : String} {follow otherFollow : Runtime M → String → CascadeResult M}
    (onward : ∀ next raised,
      (∃ state, (follow next raised).result =
        .error (.cascadeLimitExceeded state machine.settings.maxCascadeDepth)) ∨
        otherFollow next raised = follow next raised) :
    (∃ state, (machine.advance data depth runtime event follow).result
        = .error (.cascadeLimitExceeded state machine.settings.maxCascadeDepth)) ∨
      (machine.withCascadeLimit larger).advance data depth runtime event otherFollow
        = machine.advance data depth runtime event follow := by
  have raisesSame (state : String) : (machine.withCascadeLimit larger).cascadeEvent state =
    machine.cascadeEvent state := rfl
  unfold advance
  rw [step_withCascadeLimit ignores made larger]
  cases machine.step runtime event data (decide (depth = 0)) with
  | error error => exact Or.inr rfl
  | ok result =>
    cases result with
    | unhandled => exact Or.inr rfl
    | noGuardSatisfied => exact Or.inr rfl
    | taken step =>
      dsimp only
      rw [raisesSame]
      cases machine.cascadeEvent step.next.control with
      | none => exact Or.inr rfl
      | some raised =>
        rcases onward step.next raised with ⟨state, exceeded⟩ | same
        · refine Or.inl ⟨state, ?_⟩
          show Except.map _ (follow step.next raised).result = _
          rw [exceeded]
          rfl
        · exact Or.inr (congrArg (CascadeResult.prepend step depth) same)

/-- The steps of a dispatch go beyond the room there is for them, or they are the same with more
room. -/
theorem cascade_eq_or_exceeds (larger : Nat) (data : M.Data) {room more : Nat}
    (enough : room ≤ more) (depth : Nat) (runtime : Runtime M) (event : String) :
    (∃ state, (machine.cascade data room depth runtime event).result
        = .error (.cascadeLimitExceeded state machine.settings.maxCascadeDepth)) ∨
      (machine.withCascadeLimit larger).cascade data more depth runtime event
        = machine.cascade data room depth runtime event := by
  induction room generalizing more depth runtime event with
  | zero =>
    obtain ⟨otherFollow, unfolded⟩ :=
      (machine.withCascadeLimit larger).cascade_eq_advance data more depth runtime event
    rw [unfolded, cascade]
    apply advance_eq_or_exceeds ignores made larger
    intro next _
    exact Or.inl ⟨next.control, rfl⟩
  | succ room ih =>
    obtain ⟨more, rfl⟩ := Nat.exists_eq_add_of_le' enough
    rw [cascade]
    apply advance_eq_or_exceeds ignores made larger
    intro next raised
    exact ih (Nat.le_add_left room more) (depth + 1) next raised

/-- A dispatch hits the limit, or it is the same under every larger one. -/
theorem dispatch_eq_or_exceeds {larger : Nat} (enough : machine.settings.maxCascadeDepth ≤ larger)
    (event : Event M.Data) :
    (∃ state, (machine.dispatch event).result =
      .error (.cascadeLimitExceeded state machine.settings.maxCascadeDepth)) ∨
      (machine.withCascadeLimit larger).dispatch event = ⟨(machine.dispatch event).result,
        (machine.dispatch event).machine.withCascadeLimit larger,
        (machine.dispatch event).reports⟩ := by
  by_cases nameless : event.name = ""
  · right
    rw [dispatch, dispatch, if_pos nameless, if_pos nameless]
  · rcases cascade_eq_or_exceeds ignores made larger event.data enough 0 machine.runtime event.name
        with
      ⟨state, exceeded⟩ | same
    · exact Or.inl ⟨state, dispatch_error_of_cascade nameless exceeded⟩
    · right
      have whole : (machine.withCascadeLimit larger).cascade event.data
          (machine.withCascadeLimit larger).settings.maxCascadeDepth 0
            (machine.withCascadeLimit larger).runtime event.name
          = machine.cascade event.data machine.settings.maxCascadeDepth 0 machine.runtime
            event.name := same
      rw [dispatch, dispatch, if_neg nameless, if_neg nameless]
      simp only [whole]
      cases (machine.cascade event.data machine.settings.maxCascadeDepth 0 machine.runtime
          event.name).result with
      | error error => rfl
      | ok result => rfl

/-- Dispatches that do not hit the limit look the same under every larger one. -/
theorem observations_withCascadeLimit {larger : Nat} (enough : settings.maxCascadeDepth ≤ larger)
    {events : List (Event M.Data)} (within : ∀ seen ∈ machine.observations events, ∀ state limit,
      seen.answer ≠ .error (.cascadeLimitExceeded state limit)) :
    (machine.withCascadeLimit larger).observations events = machine.observations events := by
  induction events generalizing machine with
  | nil => rfl
  | cons event rest ih =>
    obtain ⟨here, later⟩ := List.forall_mem_cons.mp within
    rw [observations, observations, observe, observe]
    rcases dispatch_eq_or_exceeds ignores made (made.settings ▸ enough) event
      with ⟨state, exceeded⟩ | same
    · exact absurd exceeded (here state machine.settings.maxCascadeDepth)
    · rw [same]
      exact congrArg (machine.observe event :: ·) (ih (made.dispatch event) later)

end

section

variable (ignores : definition.IgnoresLimit) {limit larger : Nat} (positive : 1 ≤ limit)
  (raised : limit ≤ larger)

include ignores positive raised

/-- A creation hits the limit, or it is the same under every larger one. -/
theorem create_eq_or_exceeds :
    (∃ state, (create definition (settings.withCascadeLimit limit)).result
        = .error (.initialization (.cascadeLimitExceeded state limit))) ∨
      create definition (settings.withCascadeLimit larger)
        = ⟨(create definition (settings.withCascadeLimit limit)).result.map
          (·.withCascadeLimit larger),
          (create definition (settings.withCascadeLimit limit)).reports⟩ := by
  have checked := check_withCascadeLimit definition settings (Nat.ne_of_gt positive)
    (Nat.ne_of_gt (Nat.le_trans positive raised))
  rw [create, create, checked]
  cases check definition (settings.withCascadeLimit limit) with
  | error violations => exact Or.inr rfl
  | ok passed =>
    dsimp only
    by_cases noStart : definition.indices.tables.startRows = []
    · rw [if_pos noStart, if_pos noStart]
      exact Or.inr rfl
    · have made := MadeFrom.unstarted definition (settings.withCascadeLimit limit)
      have unstartedSame : unstarted definition (settings.withCascadeLimit larger)
          = (unstarted definition (settings.withCascadeLimit limit)).withCascadeLimit larger := rfl
      rw [if_neg noStart, if_neg noStart, unstartedSame, start, start]
      rcases dispatch_eq_or_exceeds ignores made raised ⟨initEvent, M.noData⟩
        with ⟨state, exceeded⟩ | same
      · left
        rw [exceeded]
        exact ⟨state, rfl⟩
      · right
        rw [same]
        dsimp only
        cases ((unstarted definition (settings.withCascadeLimit limit)).dispatch
            ⟨initEvent, M.noData⟩).result with
        | error error => rfl
        | ok outcome => rfl

/-- A life in which the limit is never hit is the same under every larger one. -/
theorem life_eq_of_withinLimit {events : List (Event M.Data)}
    (within : (life definition (settings.withCascadeLimit limit) events).WithinLimit) :
    life definition (settings.withCascadeLimit larger) events =
      life definition (settings.withCascadeLimit limit) events := by
  obtain ⟨creation, dispatches⟩ := within
  rw [life] at creation dispatches
  rw [life, life]
  rcases create_eq_or_exceeds ignores positive raised with ⟨state, exceeded⟩ | same
  · rw [exceeded] at creation
    exact absurd rfl (creation state limit)
  · rw [same]
    cases created : (create definition (settings.withCascadeLimit limit)).result with
    | error error => rfl
    | ok machine =>
      rw [created] at dispatches
      have dispatchesSame :=
        observations_withCascadeLimit ignores (MadeFrom.created created) raised dispatches
      dsimp only [Except.map]
      rw [dispatchesSame]
      rfl

end

end Machine

namespace Player

/-- Neither the one guard nor the one action looks at any settings. -/
theorem target_ignoresLimit {guarded : GuardedTarget model}
    (guards : guarded.guard = none ∨ guarded.guard = some tired)
    (actions : guarded.action = .identity ∨ guarded.action = speedUp) : guarded.IgnoresLimit := by
  constructor
  · intro guard isGuard ext data settings limit
    rcases guards with none | same
    · cases none.symm.trans isGuard
    · cases same.symm.trans isGuard
      rfl
  · intro ext data settings limit
    rcases actions with same | same
    · rw [same]
      rfl
    · rw [same]
      rfl

theorem ignoresLimit : Player.definition.IgnoresLimit := by
  intro row listed guarded inRow
  obtain ⟨guards, actions⟩ := callbacks row listed guarded inRow
  exact target_ignoresLimit guards actions

end Player

namespace Machine

/-- Switched on, the player goes inwards twice, so a limit of two is enough for all it does
here, and one of a hundred changes nothing. -/
theorem player_withinLimit :
    (life Player.definition (Settings.withCascadeLimit {} 2)
      [Player.press "on", Player.press "speed"]).WithinLimit ∧
      life Player.definition (Settings.withCascadeLimit {} 100)
        [Player.press "on", Player.press "speed"]
        = life Player.definition (Settings.withCascadeLimit {} 2)
          [Player.press "on", Player.press "speed"] := by
  have within :
      (life Player.definition (Settings.withCascadeLimit {} 2)
        [Player.press "on", Player.press "speed"]).WithinLimit := by
    constructor
    · intro state limit exceeded
      have created : (life Player.definition (Settings.withCascadeLimit {} 2)
          [Player.press "on", Player.press "speed"]).created.isOk = true := by decide +kernel
      rw [exceeded] at created
      cases created
    · have answers : (life Player.definition (Settings.withCascadeLimit {} 2)
          [Player.press "on", Player.press "speed"]).dispatches.map Observation.answer
          = [.ok (.transitioned []), .ok (.transitioned ["faster"])] := by rfl
      intro seen member state limit exceeded
      have listed := List.mem_map_of_mem (f := Observation.answer) member
      rw [answers, exceeded] at listed
      simp at listed
  exact ⟨within, life_eq_of_withinLimit Player.ignoresLimit (by decide) (by decide) within⟩

end Machine

end Statechart
