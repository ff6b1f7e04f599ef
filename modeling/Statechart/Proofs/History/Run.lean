import Statechart.Proofs.History.Replay
import Statechart.Proofs.Machine.Run

set_option autoImplicit false

namespace Statechart

open StateNode

variable {M : Model} {definition : MachineDefinition M} {settings : Settings} {machine : Machine M}

namespace Machine

theorem leave_eq_recordExit (distinct : DistinctNames definition.states)
    (made : machine.MadeFrom definition settings) (runtime : Runtime M) :
    machine.leave runtime = runtime.history.recordExit runtime.control
      ((Hierarchy.ofStates definition.states).historyAncestors runtime.control) := by
  unfold leave
  by_cases inRoot : runtime.control = rootName
  · rw [if_pos inRoot, inRoot, Hierarchy.historyAncestors_root distinct,
      HistoryStore.recordExit_nil]
  · rw [if_neg inRoot, made.indices]
    rfl

theorem statesLeft_concat (log : List TraceKind) (step : TakenStep M) (depth : Nat) :
    statesLeft (log ++ [step.report depth]) = statesLeft log ++ [step.origin] := by
  rw [statesLeft, List.filterMap_append]
  rfl

theorem Took.history_eq (distinct : DistinctNames definition.states)
    (made : machine.MadeFrom definition settings) {data : M.Data} {runtime : Runtime M}
    {event : String} {external : Bool} {step : TakenStep M} {position : Nat}
    {guarded : GuardedTarget M} {log : List TraceKind}
    (took : Took machine data runtime event external step position guarded)
    (before : runtime.history = HistoryStore.replay (.ofStates definition.states) (statesLeft log))
    (depth : Nat) :
    step.next.history
      = HistoryStore.replay (.ofStates definition.states)
        (statesLeft (log ++ [step.report depth])) := by
  rw [took.recorded, leave_eq_recordExit distinct made, statesLeft_concat, took.origin,
    HistoryStore.replay_concat, before]

theorem stepsKeep_replay (distinct : DistinctNames definition.states)
    (made : machine.MadeFrom definition settings) : machine.StepsKeep (fun log runtime =>
      runtime.history = HistoryStore.replay (.ofStates definition.states) (statesLeft log)) := by
  intro log runtime event data external step depth before taken
  obtain ⟨_, _, took⟩ := took_of_step taken
  exact took.history_eq distinct made before depth

theorem history_after (distinct : DistinctNames definition.states)
    (created : (create definition settings).result = .ok machine) (events : List (Event M.Data)) :
    (machine.after events).runtime.history = HistoryStore.replay (.ofStates definition.states)
      (statesLeft ((create definition settings).committed ++ machine.committed events)) := by
  refine created_keeps (fun log runtime =>
    runtime.history = HistoryStore.replay (.ofStates definition.states)
      (statesLeft log)) created rfl ?_ events
  intro machine event log made before
  exact dispatch_keeps (stepsKeep_replay distinct made) event log before

/-- The history is an exact function of the run: it tells of the last committed exit from inside
each compound state. -/
theorem history_follows_run (distinct : DistinctNames definition.states)
    (created : (create definition settings).result = .ok machine) (events : List (Event M.Data)) :
    (machine.after events).runtime.history.Follows definition.states
      (statesLeft ((create definition settings).committed ++ machine.committed events)) := by
  rw [history_after distinct created events]
  exact HistoryStore.follows_replay distinct _

/-- Paused while playing fast, and then switched off, the player was last left in its pause. -/
theorem player_history_follows :
    (Player.machine.after [Player.press "on", Player.press "speed", Player.press "pause",
        Player.press "off"]).runtime.history.Follows
        Player.states ["nok", "Off", "On", "Playing", "Slow", "Fast", "Paused"] := by
  have left : statesLeft ((create Player.definition {}).committed ++ Player.machine.committed
      [Player.press "on", Player.press "speed", Player.press "pause", Player.press "off"])
      = ["nok", "Off", "On", "Playing", "Slow", "Fast", "Paused"] := by decide +kernel
  rw [← left]
  exact history_follows_run Player.accepted.distinctNames Player.created _

end Machine

end Statechart
