import Statechart.Proofs.History.Reentry
import Statechart.Proofs.Machine.Limit
import Statechart.Proofs.Machine.Protocol

set_option autoImplicit false

namespace Statechart

open StateNode TakenStep

variable {M : Model} {definition : MachineDefinition M} {settings : Settings} {machine : Machine M}
  {event : Event M.Data}

namespace Machine

/-- A dispatch that takes no more steps than a chain has from the same start ends where the
chain does. -/
theorem Chain.ends_there {data : M.Data} {runtime before there : Runtime M} {event pending : String}
    {steps : List (TakenStep M)}
    (chain : Chain machine data true runtime event steps before (some pending)) {room : Nat}
    (fits : steps.length ≤ room) {outcome : DispatchOutcome M.Output}
    (came : (machine.cascade data room 0 runtime event).result = .ok (outcome, there))
    (short : (machine.cascade data room 0 runtime event).reports.length ≤ steps.length) :
    there = before ∧ (machine.cascade data room 0 runtime event).reports.length = steps.length := by
  obtain ⟨extra, rfl⟩ := Nat.exists_eq_add_of_le fits
  obtain ⟨reported, leads⟩ := chain.cascade_goesOn extra 0 rfl
  obtain ⟨further, furtherReported, finished⟩ :=
    machine.cascade_finishes data extra (0 + steps.length) before pending
  rw [reported, List.length_append, length_reports] at short ⊢
  have none : (machine.cascade data extra (0 + steps.length) before pending).reports = [] :=
    List.eq_nil_of_length_eq_zero (by omega)
  have still : further = [] := (reports_eq_nil_iff _ _).mp (furtherReported.symm.trans none)
  subst still
  rw [came] at leads
  refine ⟨?_, by rw [none, List.length_nil, Nat.add_zero]⟩
  cases stopped : (machine.cascade data extra (0 + steps.length) before pending).result with
  | error error =>
    rw [stopped] at leads
    cases leads
  | ok result =>
    rw [stopped] at leads finished
    cases leads
    exact finished.of_nil.1

section

variable (accepted : definition.Accepted settings) (ignores : definition.IgnoresLimit)
  (made : machine.MadeFrom definition settings) {larger : Nat} {outcome : DispatchOutcome M.Output}
  (settled : ((machine.withCascadeLimit larger).dispatch event).result = .ok outcome)

include accepted ignores made settled

/-- A dispatch that hits the limit, and under a larger one takes no more steps than there may
be, uses up the limit. -/
theorem endsAtLimit_of_exceeded (more : machine.settings.maxCascadeDepth < larger)
    (short : ((machine.withCascadeLimit larger).dispatch event).committed.length ≤
      machine.settings.maxCascadeDepth + 1)
    {state : String}
    (exceeded : (machine.dispatch event).result =
      .error (.cascadeLimitExceeded state machine.settings.maxCascadeDepth)) :
    ((machine.withCascadeLimit larger).dispatch event).EndsAtLimit definition
      machine.settings.maxCascadeDepth ∧
      state = ((machine.withCascadeLimit larger).dispatch event).machine.runtime.control := by
  rcases (dispatch_of_error exceeded).2.2 with ⟨_, other⟩ | ⟨_, steps, finished⟩
  · cases other
  · cases finished with
    | failed _ _ stopped => exact absurd rfl (step_error_ne_limit stopped state _)
    | @exceeded before pending chain full =>
      obtain ⟨last, came, same, committed⟩ := cascade_of_dispatch settled
      rw [committed, ← full] at short
      obtain ⟨rfl, used⟩ :=
        (chain.withCascadeLimit ignores made larger).ends_there (full ▸ more) came short
      have positive : larger ≠ 0 := Nat.ne_zero_of_lt more
      have used := (congrArg List.length committed).trans (used.trans full)
      have there := congrArg (fun machine => machine.runtime.control) same
      have moved : steps ≠ [] := List.ne_nil_of_length_eq_add_one full
      have atomic : DeclaredAtomic definition.states last.control := by
        rcases dispatch_rests (accepted.withCascadeLimit positive)
            (made.withCascadeLimit larger) settled with
          ⟨none, _⟩ | ⟨_, atomic, _⟩
        · rw [none] at used
          cases used
        · rw [there] at atomic
          exact atomic
      -- An atomic state raises nothing but the event of its row without one.
      have raises := chain.raised moved
      obtain ⟨own, kind⟩ := ownHandler_of_cascadeEvent raises
      rcases kind with ⟨rfl, _⟩ | rfl
      · exact absurd raises (cascadeEvent_ne_init_of_atomic accepted made atomic)
      · refine ⟨⟨used, ?_⟩, there.symm⟩
        rw [there]
        exact (made.handles_iff (chain.entered moved).1 eventlessKey).mp own

end

/-- A dispatch that succeeds does not use up the limit before a row without an event. -/
theorem not_endsAtLimit_of_ok (made : machine.MadeFrom definition settings)
    {outcome : DispatchOutcome M.Output} (settled : (machine.dispatch event).result = .ok outcome) :
    ¬ (machine.dispatch event).EndsAtLimit definition machine.settings.maxCascadeDepth := by
  intro ends
  obtain ⟨used, waiting⟩ := ends
  obtain ⟨steps, last, finished, same, committed⟩ := dispatch_of_ok settled
  rw [committed, length_reports] at used
  rw [same] at waiting
  cases finished with
  | rested chain _ =>
    have moved : steps ≠ [] := List.ne_nil_of_length_eq_add_one used
    have silent := ownHandler_of_cascadeEvent_none (chain.raised moved)
    have own := (made.handles_iff (chain.entered moved).1 eventlessKey).mpr waiting
    rw [silent] at own
    cases own
  | unhandled _ bound _ => omega
  | noGuardSatisfied _ bound _ => omega

/-- What succeeds under a larger limit, and takes no more steps than there may be, succeeds in
the same way, unless it uses up the limit in a state with a row without an event: then the limit
is hit, though that row would not have been taken. -/
theorem dispatch_below_limit (accepted : definition.Accepted settings)
    (ignores : definition.IgnoresLimit) (made : machine.MadeFrom definition settings) {larger : Nat}
    (enough : settings.maxCascadeDepth ≤ larger) {outcome : DispatchOutcome M.Output}
    (settled : ((machine.withCascadeLimit larger).dispatch event).result = .ok outcome)
    (short : ((machine.withCascadeLimit larger).dispatch event).committed.length ≤
      settings.maxCascadeDepth + 1) :
    (¬ ((machine.withCascadeLimit larger).dispatch event).EndsAtLimit definition
        settings.maxCascadeDepth →
        (machine.dispatch event).result = .ok outcome ∧ (machine.dispatch event).machine.runtime
          = ((machine.withCascadeLimit larger).dispatch event).machine.runtime) ∧
      (((machine.withCascadeLimit larger).dispatch event).EndsAtLimit definition
        settings.maxCascadeDepth → (machine.dispatch event).result = .error (.cascadeLimitExceeded
          ((machine.withCascadeLimit larger).dispatch event).machine.runtime.control
            settings.maxCascadeDepth)) := by
  rw [← made.settings] at enough short ⊢
  rcases dispatch_eq_or_exceeds ignores made enough event with ⟨state, exceeded⟩ | same
  · have more : machine.settings.maxCascadeDepth < larger := by
      rcases Nat.lt_or_eq_of_le enough with more | rfl
      · exact more
      · cases settled.symm.trans exceeded
    obtain ⟨ends, rfl⟩ := endsAtLimit_of_exceeded accepted ignores made settled more short exceeded
    exact ⟨fun room => absurd ends room, fun _ => exceeded⟩
  · rw [same] at settled ⊢
    refine ⟨fun _ => ⟨settled, rfl⟩, ?_⟩
    intro ends
    exact absurd ⟨ends.used, ends.waiting⟩ (not_endsAtLimit_of_ok made settled)

/-- The player that may go inwards twice at most comes to play slowly, as it would under any
larger limit. -/
theorem player_below_limit :
    ((Player.machine.withCascadeLimit 2).dispatch (Player.press "on")).result =
      .ok (.transitioned []) ∧
      ((Player.machine.withCascadeLimit 2).dispatch (Player.press "on")).machine.runtime
        = ((Player.machine.withCascadeLimit 100).dispatch (Player.press "on")).machine.runtime := by
  have accepted := MachineDefinition.Accepted.withCascadeLimit Player.accepted
    (show 2 ≠ 0 by decide)
  have made := (MadeFrom.created Player.created).withCascadeLimit 2
  have settled : ((Player.machine.withCascadeLimit 100).dispatch (Player.press "on")).result =
      .ok (.transitioned []) := by
    rfl
  have control : ((Player.machine.withCascadeLimit 100).dispatch
      (Player.press "on")).machine.runtime.control = "Slow" := by
    rfl
  have silent : ¬ Player.definition.Handles "Slow" eventlessKey := by
    unfold MachineDefinition.Handles
    decide +kernel
  apply (dispatch_below_limit accepted Player.ignoresLimit made (show 2 ≤ 100 by decide) settled
    (by decide +kernel)).1
  intro ends
  exact silent (control ▸ ends.waiting)

end Machine

namespace Player

/-- A player that has one speed, and goes off by itself once it is tired. -/
def brisk : MachineDefinition model where
  states := [.atomic "Off", .compound "On" [.atomic "Fast"]]
  events := ["on"]
  transitions := [
    .plain "On" initEvent (.state "Fast"),
    .plain "Off" "on" (.state "On"),
    .automatic "Fast" [.when tired (.state "Off") .identity]]
  initialExt := (0 : Nat)
  initialState := some "Off"
  reducer := reducer

def narrow : Settings :=
  Settings.withCascadeLimit {} 1

/-- The brisk player that was created. -/
def briskMachine : Machine model :=
  match (Machine.create brisk narrow).result with
  | .ok machine => machine
  | .error _ => .unstarted brisk narrow

end Player

namespace Machine

/-- The limit may be hit by a dispatch that would take no more steps than there may be. -/
theorem not_forall_dispatch_below_limit :
    ¬ ∀ (M : Model) (definition : MachineDefinition M) (settings : Settings) (machine : Machine M),
      definition.Accepted settings → definition.IgnoresLimit →
        (create definition settings).result = .ok machine →
        ∀ (events : List (Event M.Data)) (event : Event M.Data) (larger : Nat) (outcome :
          DispatchOutcome M.Output), settings.maxCascadeDepth ≤ larger →
          (((machine.after events).withCascadeLimit larger).dispatch event).result = .ok outcome →
          (((machine.after events).withCascadeLimit larger).dispatch event).committed.length
            ≤ settings.maxCascadeDepth + 1 →
          ((machine.after events).dispatch event).result = .ok outcome ∧
            ((machine.after events).dispatch event).machine.runtime
              = (((machine.after events).withCascadeLimit larger).dispatch
                event).machine.runtime := by
  intro always
  have accepted : Player.brisk.Accepted Player.narrow := by
    rw [MachineDefinition.Accepted, Contract.checkAll_eq_ok_iff]
    decide +kernel
  have ignores : Player.brisk.IgnoresLimit := by
    have callbacks : ∀ row ∈ Player.brisk.transitions, ∀ guarded ∈ row.targets,
        (guarded.guard = none ∨ guarded.guard = some Player.tired) ∧
        guarded.action = .identity := by
      simp [Player.brisk, Transition.plain, Transition.onEvent, Transition.automatic,
        GuardedTarget.always, GuardedTarget.when]
    intro row listed guarded inRow
    obtain ⟨guards, action⟩ := callbacks row listed guarded inRow
    exact Player.target_ignoresLimit guards (Or.inl action)
  have created : (create Player.brisk Player.narrow).result = .ok Player.briskMachine := by rfl
  have settled : ((Player.briskMachine.withCascadeLimit 2).dispatch (Player.press "on")).result
      = .ok (.transitioned []) := by rfl
  have exceeded : (Player.briskMachine.dispatch (Player.press "on")).result
      = .error (.cascadeLimitExceeded "Fast" 1) := by rfl
  have same :=
    (always Player.model Player.brisk Player.narrow Player.briskMachine accepted ignores created []
    (Player.press "on") 2 (.transitioned []) (by decide) settled (by decide +kernel)).1
  cases same.symm.trans exceeded

end Machine

end Statechart
