import Statechart.Proofs.Machine.Step

set_option autoImplicit false

namespace Statechart

variable {M : Model}

namespace TakenStep

/-- The reports of successive steps, the first of which is the given one of its dispatch. -/
def reports : Nat → List (TakenStep M) → List TraceKind
  | _, [] => []
  | depth, step :: rest => step.report depth :: reports (depth + 1) rest

def outputsOf (steps : List (TakenStep M)) : List M.Output :=
  steps.flatMap (fun step => step.outputs.getD [])

/-- What a dispatch comes to when it stops without failing: once a step was taken it counts as a
transition. -/
def outcomeOf (steps : List (TakenStep M)) (otherwise : DispatchOutcome M.Output) :
    DispatchOutcome M.Output :=
  if steps = [] then otherwise else .transitioned (outputsOf steps)

end TakenStep

namespace Machine

open TakenStep

/-- Steps that follow one another, each after the first on the event raised by entering the
state before it. At the end stand the runtime and the event still to be handled, if any. -/
inductive Chain (machine : Machine M) (data : M.Data) :
    Bool → Runtime M → String → List (TakenStep M) → Runtime M → Option String → Prop where
  | start (external : Bool) (runtime : Runtime M) (event : String) :
    Chain machine data external runtime event [] runtime (some event)
  | rest {external : Bool} {runtime : Runtime M} {event : String} {step : TakenStep M}
    (taken : machine.step runtime event data external = .ok (.taken step))
    (quiet : machine.cascadeEvent step.next.control = none) :
    Chain machine data external runtime event [step] step.next none
  | follow {external : Bool} {runtime : Runtime M} {event : String} {step : TakenStep M}
    {raised : String} {steps : List (TakenStep M)} {last : Runtime M} {pending : Option String}
    (taken : machine.step runtime event data external = .ok (.taken step))
    (raises : machine.cascadeEvent step.next.control = some raised)
    (onward : Chain machine data false step.next raised steps last pending) :
    Chain machine data external runtime event (step :: steps) last pending

/-- What a chain of steps comes to, of which `room` may follow the first. -/
inductive Finishes (machine : Machine M) (data : M.Data) (room : Nat) (external : Bool)
    (runtime : Runtime M)
    (event : String) : List (TakenStep M) → Except (DispatchError M)
    (DispatchOutcome M.Output × Runtime M) → Prop where
  | rested {steps : List (TakenStep M)} {last : Runtime M}
    (chain : Chain machine data external runtime event steps last none)
    (bound : steps.length ≤ room + 1) :
    Finishes machine data room external runtime event steps
      (.ok (.transitioned (outputsOf steps), last))
  | unhandled {steps : List (TakenStep M)} {last : Runtime M} {pending : String}
    (chain : Chain machine data external runtime event steps last (some pending))
    (bound : steps.length ≤ room)
    (stopped : machine.step last pending data (external && steps.isEmpty) = .ok .unhandled) :
    Finishes machine data room external runtime event steps
      (.ok (outcomeOf steps (.unhandled last.control pending), last))
  | noGuardSatisfied {steps : List (TakenStep M)} {last : Runtime M} {pending : String}
    (chain : Chain machine data external runtime event steps last (some pending))
    (bound : steps.length ≤ room)
    (stopped : machine.step last pending data (external && steps.isEmpty) = .ok .noGuardSatisfied) :
    Finishes machine data room external runtime event steps
      (.ok (outcomeOf steps (.noGuardSatisfied last.control pending), last))
  | failed {steps : List (TakenStep M)} {last : Runtime M} {pending : String}
    {error : DispatchError M}
    (chain : Chain machine data external runtime event steps last (some pending))
    (bound : steps.length ≤ room)
    (stopped : machine.step last pending data (external && steps.isEmpty) = .error error) :
    Finishes machine data room external runtime event steps (.error error)
  | exceeded {steps : List (TakenStep M)} {last : Runtime M} {pending : String}
    (chain : Chain machine data external runtime event steps last (some pending))
    (bound : steps.length = room + 1) :
    Finishes machine data room external runtime event steps
      (.error (.cascadeLimitExceeded last.control machine.settings.maxCascadeDepth))

variable {machine : Machine M} {data : M.Data}

namespace Chain

variable {external : Bool} {runtime last : Runtime M} {event : String} {steps : List (TakenStep M)}
  {pending : Option String}

theorem of_nil (chain : Chain machine data external runtime event [] last pending) :
    last = runtime ∧ pending = some event := by
  cases chain with
  | start => exact ⟨rfl, rfl⟩

theorem first {step : TakenStep M} {rest : List (TakenStep M)}
    (chain : Chain machine data external runtime event (step :: rest) last pending) :
    machine.step runtime event data external = .ok (.taken step) := by
  cases chain with
  | rest taken _ => exact taken
  | follow taken _ _ => exact taken

theorem raised (chain : Chain machine data external runtime event steps last pending)
    (moved : steps ≠ []) : machine.cascadeEvent last.control = pending := by
  induction chain with
  | start => exact absurd rfl moved
  | rest taken quiet => exact quiet
  | @follow _ _ _ step raised steps last pending taken raises onward ih =>
    cases steps with
    | nil =>
      obtain ⟨same, waiting⟩ := onward.of_nil
      rw [same, raises, waiting]
    | cons next later => exact ih (List.cons_ne_nil next later)

theorem entered (chain : Chain machine data external runtime event steps last pending)
    (moved : steps ≠ []) :
    last.control ≠ rootName ∧ machine.indices.hierarchy.contains last.control = true := by
  have enters {external : Bool} {runtime : Runtime M} {event : String} {step : TakenStep M}
      (taken : machine.step runtime event data external = .ok (.taken step)) :
      step.next.control ≠ rootName ∧ machine.indices.hierarchy.contains step.next.control =
        true := by
    obtain ⟨_, _, took⟩ := took_of_step taken
    exact ⟨took.notRoot, took.known⟩
  induction chain with
  | start => exact absurd rfl moved
  | rest taken quiet => exact enters taken
  | @follow _ _ _ step raised steps last pending taken raises onward ih =>
    cases steps with
    | nil =>
      rw [onward.of_nil.1]
      exact enters taken
    | cons next later => exact ih (List.cons_ne_nil next later)

end Chain

/-- Without a step nothing changed, and the outcome says so. -/
theorem Finishes.of_nil {room : Nat} {external : Bool} {runtime last : Runtime M} {event : String}
    {outcome : DispatchOutcome M.Output}
    (finished : Finishes machine data room external runtime event [] (.ok (outcome, last))) :
    last = runtime ∧ outcome.isTransitioned = false := by
  cases finished with
  | rested chain _ => exact nomatch chain.of_nil.2
  | unhandled chain _ _ => exact ⟨chain.of_nil.1, rfl⟩
  | noGuardSatisfied chain _ _ => exact ⟨chain.of_nil.1, rfl⟩

/-- The outcome tells of a transition exactly if a step was taken. -/
theorem Finishes.isTransitioned_eq {room : Nat} {external : Bool} {runtime last : Runtime M}
    {event : String} {steps : List (TakenStep M)} {outcome : DispatchOutcome M.Output}
    (finished : Finishes machine data room external runtime event steps (.ok (outcome, last))) :
    outcome.isTransitioned = !steps.isEmpty := by
  cases steps with
  | nil => exact finished.of_nil.2
  | cons step rest => cases finished <;> rfl

theorem Finishes.eq_nil_of_still {room : Nat} {external : Bool} {runtime last : Runtime M}
    {event : String} {steps : List (TakenStep M)} {outcome : DispatchOutcome M.Output}
    (finished : Finishes machine data room external runtime event steps (.ok (outcome, last)))
    (still : outcome.isTransitioned = false) : steps = [] := by
  have moved := finished.isTransitioned_eq.symm.trans still
  rw [Bool.not_eq_false'] at moved
  exact List.isEmpty_iff.mp moved

theorem Finishes.prepend {room : Nat} {external : Bool} {runtime : Runtime M}
    {event raised : String} {step : TakenStep M} {steps : List (TakenStep M)}
    {result : Except (DispatchError M) (DispatchOutcome M.Output × Runtime M)}
    (taken : machine.step runtime event data external = .ok (.taken step))
    (raises : machine.cascadeEvent step.next.control = some raised)
    (onward : Finishes machine data room false step.next raised steps result) :
    Finishes machine data (room + 1) external runtime event (step :: steps)
      (result.map (fun (outcome, last) =>
        (.transitioned (step.outputs.getD [] ++ outcome.outputs?.getD []), last))) := by
  -- What the later steps put out, whether or not there are any, comes after what this step puts
  -- out.
  have outputs : ∀ otherwise : DispatchOutcome M.Output, otherwise.outputs? = none →
      DispatchOutcome.transitioned
        (step.outputs.getD [] ++ (outcomeOf steps otherwise).outputs?.getD [])
        = outcomeOf (step :: steps) otherwise := by
    intro otherwise silent
    cases steps with
    | nil => simp [outcomeOf, outputsOf, silent]
    | cons next rest => simp [outcomeOf, outputsOf, DispatchOutcome.outputs?]
  have flag : (external && (step :: steps).isEmpty) = (false && steps.isEmpty) := by simp
  cases onward with
  | rested chain bound =>
    exact Finishes.rested (Chain.follow taken raises chain) (Nat.succ_le_succ bound)
  | @unhandled last pending chain bound stopped =>
    have finished := Finishes.unhandled (Chain.follow taken raises chain) (Nat.succ_le_succ bound)
      (flag ▸ stopped)
    rw [← outputs (.unhandled last.control pending) rfl] at finished
    exact finished
  | @noGuardSatisfied last pending chain bound stopped =>
    have finished := Finishes.noGuardSatisfied (Chain.follow taken raises chain)
      (Nat.succ_le_succ bound) (flag ▸ stopped)
    rw [← outputs (.noGuardSatisfied last.control pending) rfl] at finished
    exact finished
  | failed chain bound stopped =>
    exact Finishes.failed (Chain.follow taken raises chain) (Nat.succ_le_succ bound)
      (flag ▸ stopped)
  | exceeded chain bound =>
    exact Finishes.exceeded (Chain.follow taken raises chain) (congrArg (· + 1) bound)

/-- One step of the recursion, whatever it goes on with. -/
theorem advance_finishes {room depth : Nat} {runtime : Runtime M} {event : String}
    {follow : Runtime M → String → CascadeResult M}
    (onward : ∀ step raised, machine.step runtime event data (decide (depth = 0)) =
      .ok (.taken step) → machine.cascadeEvent step.next.control = some raised →
        ∃ steps, (follow step.next raised).reports = reports (depth + 1) steps ∧
          Finishes machine data room (decide (depth = 0)) runtime event (step :: steps)
            ((follow step.next raised).result.map (fun (outcome, last) =>
              (.transitioned (step.outputs.getD [] ++ outcome.outputs?.getD []), last)))) :
    ∃ steps, (machine.advance data depth runtime event follow).reports = reports depth steps ∧
      Finishes machine data room (decide (depth = 0)) runtime event steps
        (machine.advance data depth runtime event follow).result := by
  have flag : (decide (depth = 0) && ([] : List (TakenStep M)).isEmpty) = decide (depth = 0) := by
    simp
  unfold advance
  cases stepped : machine.step runtime event data (decide (depth = 0)) with
  | error error =>
    exact ⟨[], rfl, Finishes.failed (Chain.start _ _ _) (Nat.zero_le room) (flag.symm ▸ stepped)⟩
  | ok ended =>
    cases ended with
    | unhandled =>
      exact ⟨[], rfl, Finishes.unhandled (Chain.start _ _ _) (Nat.zero_le room)
        (flag.symm ▸ stepped)⟩
    | noGuardSatisfied =>
      exact ⟨[], rfl, Finishes.noGuardSatisfied (Chain.start _ _ _) (Nat.zero_le room)
        (flag.symm ▸ stepped)⟩
    | taken step =>
      dsimp only
      cases raises : machine.cascadeEvent step.next.control with
      | none =>
        refine ⟨[step], rfl, ?_⟩
        have short : [step].length ≤ room + 1 := Nat.succ_le_succ (Nat.zero_le room)
        have finished := Finishes.rested (Chain.rest stepped raises) short
        simpa [CascadeResult.prepend, Except.map, outputsOf, DispatchOutcome.outputs?]
          using finished
      | some raised =>
        obtain ⟨steps, reported, finished⟩ := onward step raised stepped raises
        refine ⟨step :: steps, ?_, finished⟩
        show step.report depth :: (follow step.next raised).reports = _
        rw [reported]
        rfl

/-- The recursion of a dispatch takes a chain of steps and finishes with it. -/
theorem cascade_finishes (machine : Machine M) (data : M.Data) (room depth : Nat)
    (runtime : Runtime M) (event : String) :
    ∃ steps, (machine.cascade data room depth runtime event).reports = reports depth steps ∧
      Finishes machine data room (decide (depth = 0)) runtime event steps
        (machine.cascade data room depth runtime event).result := by
  induction room generalizing depth runtime event with
  | zero =>
    refine advance_finishes (fun step raised taken raises => ⟨[], rfl, ?_⟩)
    exact Finishes.exceeded (Chain.follow taken raises (Chain.start _ _ _)) rfl
  | succ room ih =>
    refine advance_finishes (fun step raised taken raises => ?_)
    obtain ⟨steps, reported, finished⟩ := ih (depth + 1) step.next raised
    exact ⟨steps, reported, Finishes.prepend taken raises finished⟩

end Machine

end Statechart
