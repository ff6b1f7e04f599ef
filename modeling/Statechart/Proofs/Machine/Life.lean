import Statechart.Proofs.Machine.Rearranged

set_option autoImplicit false

namespace Statechart

open StateNode

variable {M : Model} {definition other : MachineDefinition M} {settings : Settings}

namespace Hierarchy

variable {states others : List StateNode}

theorem declaredCount_eq_of_rearranged (rearranged : StateNode.Rearranged states others) :
    (ofStates states).declaredCount = (ofStates others).declaredCount := by
  have sameNames : (ofStates states).compound.keys.Perm (ofStates others).compound.keys := by
    rw [List.perm_ext_iff_of_nodup (Table.keys_nodup _) (Table.keys_nodup _)]
    intro name
    rw [mem_keys_compound_iff, mem_keys_compound_iff, rearranged.declared_iff]
  exact (sameNames.filter _).length_eq

end Hierarchy

namespace Machine

theorem create_of_accepted (accepted : definition.Accepted settings) :
    create definition settings = (unstarted definition settings).start := by
  have checked : check definition settings = .ok () := by
    unfold check
    split
    · exact accepted
    · rfl
  rw [create, checked]
  exact if_neg accepted.startRows_ne_nil

section

variable (rearranged : definition.Rearranged other)

include rearranged

theorem creationReport_eq_of_rearranged (settings : Settings) :
    (unstarted definition settings).creationReport = (unstarted other settings).creationReport := by
  have states := Hierarchy.declaredCount_eq_of_rearranged rearranged.states
  have transitions : (RowTables.flatOf definition.rows).length =
      (RowTables.flatOf other.rows).length := by
    rw [RowTables.length_flatOf, RowTables.length_flatOf]
    exact (rearranged.rows_perm.flatMap_right _).length_eq
  show TraceKind.machineCreated _ _ = TraceKind.machineCreated _ _
  exact congrArg₂ TraceKind.machineCreated states transitions

/-- The order in which a definition lists its rows, its events and the siblings among its states
carries no meaning: the battery accepts it in any order, and if it does then what can be seen of
its machine is the same, whatever is dispatched. -/
theorem life_eq_of_rearranged (settings : Settings) :
    (definition.Accepted settings ↔ other.Accepted settings) ∧
      (definition.Accepted settings → ∀ events,
        life definition settings events = life other settings events) := by
  refine ⟨⟨rearranged.accepted, rearranged.symm.accepted⟩, ?_⟩
  intro accepted events
  have made := MadeFrom.unstarted definition settings
  have otherMade := MadeFrom.unstarted other settings
  have alike : (unstarted definition settings).runtime = (unstarted other settings).runtime := by
    rw [unstarted, unstarted, rearranged.initialExt]
  have same := observe_eq_of_rearranged rearranged accepted made otherMade alike
    ⟨initEvent, M.noData⟩
  have answers := congrArg Observation.answer same
  have afters := congrArg Observation.after same
  have reports := congrArg Observation.reports same
  simp only [observe] at answers afters reports
  rw [life, life, create_of_accepted accepted, create_of_accepted (rearranged.accepted accepted),
    start, start]
  dsimp only
  rw [creationReport_eq_of_rearranged rearranged settings, answers, reports]
  cases result : ((unstarted other settings).dispatch ⟨initEvent, M.noData⟩).result with
  | error error => rfl
  | ok outcome =>
    -- The outputs of the first dispatch are kept with the machine, and nothing else changes.
    have kept {definition : MachineDefinition M} {machine : Machine M}
        (made : machine.MadeFrom definition settings) :
        { machine with initialOutputs := outcome.outputs?.getD [] }.MadeFrom definition settings :=
      ⟨made.settings, made.transitions, made.reducer, made.indices⟩
    have dispatches := observations_eq_of_rearranged rearranged accepted
      (kept (made.dispatch ⟨initEvent, M.noData⟩))
      (kept (otherMade.dispatch ⟨initEvent, M.noData⟩)) afters events
    dsimp only [Except.map]
    rw [dispatches, afters]

end

end Machine

namespace Player

/-- The player with everything listed in another order. -/
def shuffled : MachineDefinition model where
  states :=
    [.compound "On" [.atomic "Paused", .compound "Playing" [.atomic "Fast", .atomic "Slow"]],
      .atomic "Off"]
  events := ["speed", "pause", "play", "off", "on"]
  transitions := Player.definition.transitions.reverse
  initialExt := (0 : Nat)
  initialState := some "Off"
  reducer := reducer

theorem rearranged : Player.definition.Rearranged shuffled where
  states := by
    have playing : StateNode.Rearranged [.compound "Playing" [.atomic "Slow", .atomic "Fast"]]
        [.compound "Playing" [.atomic "Fast", .atomic "Slow"]] :=
          .cons "Playing" (.swap _ _ []) .nil
    have inside : StateNode.Rearranged
        [.compound "Playing" [.atomic "Slow", .atomic "Fast"], .atomic "Paused"]
        [.atomic "Paused", .compound "Playing" [.atomic "Fast", .atomic "Slow"]] :=
      .trans (.swap _ _ []) (.cons "Paused" .nil playing)
    exact .trans (.swap _ _ []) (.cons "On" inside (.cons "Off" .nil .nil))
  events := by decide
  transitions := (List.reverse_perm Player.definition.transitions).symm
  initialExt := rfl
  initialState := rfl
  reducer := rfl

end Player

namespace Machine

/-- Switched on, sped up and paused, the player looks the same whatever order its definition has. -/
theorem player_lives_alike : Player.shuffled.Accepted {} ∧
    life Player.definition {} [Player.press "on", Player.press "speed", Player.press "pause"]
      = life Player.shuffled {} [Player.press "on", Player.press "speed",
        Player.press "pause"] := by
  obtain ⟨acceptance, alike⟩ := life_eq_of_rearranged Player.rearranged {}
  exact ⟨acceptance.mp Player.accepted, alike Player.accepted _⟩

end Machine

end Statechart
