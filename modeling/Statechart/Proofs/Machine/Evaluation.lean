import Statechart.Proofs.Machine.MicroStep

set_option autoImplicit false

namespace Statechart

open StateNode TakenStep

variable {M : Model} {definition : MachineDefinition M} {settings : Settings} {machine : Machine M}

namespace TakenStep

theorem outputsOf_cons (step : TakenStep M) (steps : List (TakenStep M)) :
    outputsOf (step :: steps) = step.outputs.getD [] ++ outputsOf steps :=
  List.flatMap_cons

end TakenStep

namespace Machine.MadeFrom

variable (made : machine.MadeFrom definition settings) (distinct : DistinctNames definition.states)

include made distinct

theorem microStep_unique {data : M.Data} {runtime : Runtime M} {event : String} {external : Bool}
    {result other : Except (DispatchError M) (MicroOutcome M)}
    (micro : definition.MicroStep settings data runtime event external result)
    (otherMicro : definition.MicroStep settings data runtime event external other) :
    result = other :=
  ((made.microStep_iff distinct).mp micro).symm.trans ((made.microStep_iff distinct).mp otherMicro)

/-- A transition that the machine takes carries the loop on. -/
theorem advances_of_step {data : M.Data} {count : Nat} {runtime : Runtime M} {event : String}
    {external : Bool} {step : TakenStep M} (outputs : List M.Output)
    (flag : external = decide (count = 0)) (room : count ≤ settings.maxCascadeDepth)
    (taken : machine.step runtime event data external = .ok (.taken step)) :
    definition.Advances settings data ⟨count, runtime, outputs, some event⟩
      ⟨count + 1, step.next, outputs ++ step.outputs.getD [],
        machine.cascadeEvent step.next.control⟩ := by
  obtain ⟨_, _, took⟩ := took_of_step taken
  have micro := made.microStep_of_step distinct data runtime event external
  rw [taken, flag] at micro
  exact .enter room micro ((made.leavesPending_iff distinct took.notRoot _).mpr rfl)

/-- A chain of steps is a run of the loop. -/
theorem advances_of_chain {data : M.Data} {external : Bool} {runtime last : Runtime M}
    {event : String} {steps : List (TakenStep M)} {pending : Option String}
    (chain : Chain machine data external runtime event steps last pending) {count : Nat}
    (outputs : List M.Output) (flag : external = decide (count = 0))
    (room : count + steps.length ≤ settings.maxCascadeDepth + 1) :
    Relation.ReflTransGen (definition.Advances settings data) ⟨count, runtime, outputs, some event⟩
      ⟨count + steps.length, last, outputs ++ outputsOf steps, pending⟩ := by
  induction chain generalizing count outputs with
  | start external runtime event =>
    rw [List.length_nil, Nat.add_zero, show outputsOf ([] : List (TakenStep M)) = [] from
      rfl, List.append_nil]
  | @rest external runtime event step taken quiet =>
    rw [List.length_singleton] at room
    have advance := made.advances_of_step distinct outputs flag (by omega) taken
    rw [quiet] at advance
    rw [outputsOf_cons, show outputsOf ([] : List (TakenStep M)) = [] from rfl, List.append_nil]
    exact .single advance
  | @follow external runtime event step raised steps last pending taken raises onward ih =>
    rw [List.length_cons] at room ⊢
    have advance := made.advances_of_step distinct outputs flag (by omega) taken
    rw [raises] at advance
    have further := @ih (count + 1) (outputs ++ step.outputs.getD []) (by simp) (by omega)
    rw [List.append_assoc, ← outputsOf_cons, Nat.add_right_comm] at further
    exact .head advance further

/-- A chain of steps that a dispatch begins with is a run of the loop from its start. -/
theorem run_of_chain {event : Event M.Data} {last : Runtime M} {steps : List (TakenStep M)}
    {pending : Option String}
    (chain : Chain machine event.data true machine.runtime event.name steps last pending)
    (bound : steps.length ≤ settings.maxCascadeDepth + 1) :
    Relation.ReflTransGen (definition.Advances settings event.data)
      ⟨0, machine.runtime, [], some event.name⟩ ⟨steps.length, last, outputsOf steps, pending⟩ := by
  have run := made.advances_of_chain distinct chain []
    (show true = decide (0 = 0) from rfl) (by omega)
  rw [Nat.zero_add, List.nil_append] at run
  exact run

/-- The step at which a chain stops is a micro-step of the loop. -/
theorem microStep_of_stopped {data : M.Data} {last : Runtime M} {steps : List (TakenStep M)}
    {pending : String} {result : Except (DispatchError M) (StepResult M)}
    (stopped : machine.step last pending data (true && steps.isEmpty) = result) :
    definition.MicroStep settings data last pending (decide (steps.length = 0))
    (result.map StepResult.outcome) := by
  have flag : (true && steps.isEmpty) = decide (steps.length = 0) := by cases steps <;> simp
  rw [← stopped, flag]
  exact made.microStep_of_step distinct data last pending _

theorem evaluates_dispatch {event : Event M.Data} (named : event.name ≠ "") :
    definition.Evaluates settings machine.runtime event (machine.dispatch event).result
      (machine.dispatch event).machine.runtime := by
  have settles := machine.dispatch_settles event
  generalize machine.dispatch event = result at settles
  cases settles with
  | nameless nameless => exact absurd nameless named
  | @settled steps outcome last _ finished =>
    rw [made.settings] at finished
    cases finished with
    | rested chain bound => exact .settled (made.run_of_chain distinct chain bound) (.settled _ _ _)
    | unhandled chain bound stopped =>
      have micro := made.microStep_of_stopped distinct stopped
      cases steps with
      | nil =>
        obtain ⟨rfl, isEvent⟩ := chain.of_nil
        cases isEvent
        exact .settled .refl (.unhandled micro)
      | cons step rest =>
        -- What is raised is handled by a row of the state itself.
        have moved : step :: rest ≠ [] := List.cons_ne_nil step rest
        obtain ⟨_, _, found⟩ :=
          findHandler_of_cascadeEvent (chain.entered moved).1 (chain.raised moved)
        cases found.symm.trans (findHandler_of_unhandled stopped)
    | noGuardSatisfied chain bound stopped =>
      have micro := made.microStep_of_stopped distinct stopped
      have run := made.run_of_chain distinct chain (Nat.le_succ_of_le bound)
      cases steps with
      | nil =>
        obtain ⟨rfl, isEvent⟩ := chain.of_nil
        cases isEvent
        exact .settled .refl (.noGuardSatisfied micro)
      | cons step rest => exact .settled run (.refused (Nat.succ_ne_zero _) bound micro)
  | failed _ finished =>
    rw [made.settings] at finished
    cases finished with
    | failed chain bound stopped =>
      have micro := made.microStep_of_stopped distinct stopped
      exact .failed (made.run_of_chain distinct chain (Nat.le_succ_of_le bound))
        (.failed bound micro)
    | exceeded chain bound =>
      rw [made.settings]
      exact .failed (made.run_of_chain distinct chain (Nat.le_of_eq bound)) (.exceeded (by omega))

theorem advances_unique {data : M.Data} {state next other : MicroState M}
    (advances : definition.Advances settings data state next)
    (otherAdvances : definition.Advances settings data state other) : next = other := by
  cases advances with
  | enter _ micro raised =>
    cases otherAdvances with
    | enter _ otherMicro otherRaised =>
      cases made.microStep_unique distinct micro otherMicro
      rw [raised.unique otherRaised]

theorem not_advances_of_halts {data : M.Data} {state next : MicroState M}
    {answer : Except (DispatchError M) (DispatchOutcome M.Output)}
    (halts : definition.Halts settings data state answer) :
    ¬ definition.Advances settings data state next := by
  intro advances
  cases advances with
  | enter room micro _ =>
    cases halts with
    | refused _ _ stops => cases made.microStep_unique distinct micro stops
    | unhandled stops => cases made.microStep_unique distinct micro stops
    | noGuardSatisfied stops => cases made.microStep_unique distinct micro stops
    | failed _ stops => cases made.microStep_unique distinct micro stops
    | exceeded full => exact Nat.lt_irrefl _ (Nat.lt_of_lt_of_le full room)

theorem halts_unique {data : M.Data} {state : MicroState M}
    {answer other : Except (DispatchError M) (DispatchOutcome M.Output)}
    (halts : definition.Halts settings data state answer)
    (otherHalts : definition.Halts settings data state other) :
    answer = other := by
  cases halts with
  | settled => cases otherHalts with
    | settled => rfl
  | refused moved room micro => cases otherHalts with
    | refused _ _ _ => rfl
    | unhandled _ => exact absurd rfl moved
    | noGuardSatisfied _ => exact absurd rfl moved
    | failed _ otherMicro => cases made.microStep_unique distinct micro otherMicro
    | exceeded full => omega
  | unhandled micro => cases otherHalts with
    | refused moved _ _ => exact absurd rfl moved
    | unhandled _ => rfl
    | noGuardSatisfied otherMicro => cases made.microStep_unique distinct micro otherMicro
    | failed _ otherMicro => cases made.microStep_unique distinct micro otherMicro
    | exceeded full => exact absurd full (Nat.not_lt_zero _)
  | noGuardSatisfied micro => cases otherHalts with
    | refused moved _ _ => exact absurd rfl moved
    | unhandled otherMicro => cases made.microStep_unique distinct micro otherMicro
    | noGuardSatisfied _ => rfl
    | failed _ otherMicro => cases made.microStep_unique distinct micro otherMicro
    | exceeded full => exact absurd full (Nat.not_lt_zero _)
  | failed room micro => cases otherHalts with
    | refused _ _ otherMicro => cases made.microStep_unique distinct micro otherMicro
    | unhandled otherMicro => cases made.microStep_unique distinct micro otherMicro
    | noGuardSatisfied otherMicro => cases made.microStep_unique distinct micro otherMicro
    | failed _ otherMicro =>
      cases made.microStep_unique distinct micro otherMicro
      rfl
    | exceeded full => omega
  | exceeded full => cases otherHalts with
    | refused _ room _ => omega
    | unhandled _ => exact absurd full (Nat.not_lt_zero _)
    | noGuardSatisfied _ => exact absurd full (Nat.not_lt_zero _)
    | failed room _ => omega
    | exceeded _ => rfl

theorem run_unique {data : M.Data} {first last other : MicroState M}
    {answer otherAnswer : Except (DispatchError M) (DispatchOutcome M.Output)}
    (run : Relation.ReflTransGen (definition.Advances settings data) first last)
    (halts : definition.Halts settings data last answer)
    (otherRun : Relation.ReflTransGen (definition.Advances settings data) first other)
    (otherHalts : definition.Halts settings data other otherAnswer) :
    last = other ∧ answer = otherAnswer := by
  have deterministic : Relator.RightUnique (definition.Advances settings data) := by
    intro state next second advances otherAdvances
    exact made.advances_unique distinct advances otherAdvances
  have same : last = other := by
    rcases Relation.ReflTransGen.total_of_right_unique deterministic run otherRun
      with onward | onward
    · rcases onward.cases_head with same | ⟨next, advances, _⟩
      · exact same
      · exact absurd advances (made.not_advances_of_halts distinct halts)
    · rcases onward.cases_head with same | ⟨next, advances, _⟩
      · exact same.symm
      · exact absurd advances (made.not_advances_of_halts distinct otherHalts)
  subst same
  exact ⟨rfl, made.halts_unique distinct halts otherHalts⟩

theorem evaluates_unique {runtime after otherAfter : Runtime M} {event : Event M.Data}
    {answer other : Except (DispatchError M) (DispatchOutcome M.Output)}
    (evaluates : definition.Evaluates settings runtime event answer after)
    (otherEvaluates : definition.Evaluates settings runtime event other otherAfter) :
    answer = other ∧ after = otherAfter := by
  cases evaluates with
  | settled run halts =>
    cases otherEvaluates with
    | settled otherRun otherHalts =>
      obtain ⟨rfl, same⟩ := made.run_unique distinct run halts otherRun otherHalts
      exact ⟨same, rfl⟩
    | failed otherRun otherHalts => cases (made.run_unique distinct run halts otherRun otherHalts).2
  | failed run halts =>
    cases otherEvaluates with
    | settled otherRun otherHalts =>
      cases (made.run_unique distinct run halts otherRun otherHalts).2
    | failed otherRun otherHalts =>
      exact ⟨(made.run_unique distinct run halts otherRun otherHalts).2, rfl⟩

end Machine.MadeFrom

namespace Machine

variable (distinct : DistinctNames definition.states)

include distinct

/-- A dispatch comes to what the loop over micro-steps comes to from the runtime before it, and
nothing else. So does the first dispatch of a machine, by which it is created. -/
theorem evaluates_iff_dispatch :
    (∀ machine : Machine M, machine.MadeFrom definition settings →
      ∀ event : Event M.Data, event.name ≠ "" →
      ∀ answer after, definition.Evaluates settings machine.runtime event answer after ↔
        (machine.dispatch event).result = answer ∧
        (machine.dispatch event).machine.runtime = after) ∧
      (∀ machine, (create definition settings).result = .ok machine →
        machine.MadeFrom definition settings ∧
        ∃ outcome, machine.initialOutputs = outcome.outputs?.getD [] ∧ definition.Evaluates settings
          ⟨rootName, definition.initialExt, .empty⟩ ⟨initEvent, M.noData⟩
            (.ok outcome) machine.runtime) ∧
      ∀ error, (create definition settings).result = .error (.initialization error) →
        definition.Evaluates settings
        ⟨rootName, definition.initialExt, .empty⟩ ⟨initEvent, M.noData⟩ (.error error)
          ⟨rootName, definition.initialExt, .empty⟩ := by
  have first : definition.Evaluates settings ⟨rootName, definition.initialExt, .empty⟩
      ⟨initEvent, M.noData⟩ _ _ :=
    (MadeFrom.unstarted definition settings).evaluates_dispatch distinct
      (show initEvent ≠ "" by decide)
  refine ⟨?_, ?_, ?_⟩
  · intro machine made event named answer after
    constructor
    · intro evaluates
      exact made.evaluates_unique distinct (made.evaluates_dispatch distinct named) evaluates
    · intro same
      obtain ⟨rfl, rfl⟩ := same
      exact made.evaluates_dispatch distinct named
  · intro machine created
    obtain ⟨outcome, settled, rfl, _⟩ := create_eq_ok created
    rw [settled] at first
    exact ⟨MadeFrom.created created, outcome, rfl, first⟩
  · intro error failed
    have creates := create_creates definition settings
    generalize create definition settings = creation at creates failed
    cases creates with
    | rejected checked => cases failed
    | noStart checked none => cases failed
    | started checked settled => cases failed
    | stopped checked stopped =>
      cases failed
      rw [stopped, (dispatch_of_error stopped).1] at first
      exact first

omit distinct

/-- Sped up while it plays slowly, the player goes on to play fast, and is not tired yet. -/
theorem player_evaluates_speed :
    Player.definition.Evaluates {}
      (Player.machine.after [Player.press "on"]).runtime (Player.press "speed")
      (.ok (.transitioned ["faster"]))
        (Player.machine.after [Player.press "on", Player.press "speed"]).runtime := by
  have distinct := Player.accepted.distinctNames
  have made := (MadeFrom.created Player.created).after [Player.press "on"]
  exact ((evaluates_iff_dispatch distinct).1 _ made (Player.press "speed") (by decide) _ _).mpr
    ⟨rfl, rfl⟩

end Machine

end Statechart
