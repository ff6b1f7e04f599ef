import Statechart.Machine.Life
import Statechart.Proofs.Contract.WellFormed
import Statechart.Proofs.State.Rearranged

set_option autoImplicit false

namespace Statechart.MachineDefinition

open StateNode

variable {M : Model} {definition other : MachineDefinition M} {settings : Settings}

namespace Rearranged

variable (rearranged : definition.Rearranged other)

include rearranged

theorem symm : other.Rearranged definition where
  states := rearranged.states.symm
  events := rearranged.events.symm
  transitions := rearranged.transitions.symm
  initialExt := rearranged.initialExt.symm
  initialState := rearranged.initialState.symm
  reducer := rearranged.reducer.symm

theorem rows_perm : definition.rows.Perm other.rows := by
  unfold rows
  rw [rearranged.initialState]
  cases definition.initialState with
  | none => exact rearranged.transitions
  | some state => exact rearranged.transitions.append_right [.start state]

theorem mem_rows_iff (row : Transition M) : row ∈ other.rows ↔ row ∈ definition.rows :=
  rearranged.rows_perm.mem_iff.symm

theorem enteredOnce (entered : definition.EnteredOnce) : other.EnteredOnce := by
  unfold EnteredOnce at entered ⊢
  rw [rearranged.initialState]
  cases initial : definition.initialState with
  | none =>
    rw [initial] at entered
    exact (rearranged.transitions.countP_eq _).symm.trans entered
  | some state =>
    rw [initial] at entered
    refine ⟨rearranged.states.declared entered.1, ?_⟩
    intro row listed
    exact entered.2 row (rearranged.transitions.mem_iff.mpr listed)

theorem initializes {state inner : String} {row : Transition M} {guarded : GuardedTarget M}
    (init : definition.Initializes state row guarded inner) :
    other.Initializes state row guarded inner :=
  { init with
    listed := (rearranged.mem_rows_iff row).mpr init.listed
    inside := rearranged.states.encloses init.inside }

theorem wellFormed (wellFormed : definition.WellFormed settings) : other.WellFormed settings := by
  have states := rearranged.states
  have listed {row : Transition M} (member : row ∈ other.rows) : row ∈ definition.rows :=
    (rearranged.mem_rows_iff row).mp member
  have declared := fun name => (states.declared_iff name).symm
  have compound := fun name => (states.compound_iff name).symm
  exact {
    inhabited := by
      intro empty
      have length := states.length_eq
      rw [empty, List.length_nil, List.length_eq_zero_iff] at length
      exact wellFormed.inhabited length
    distinct := states.distinctNames wellFormed.distinct
    named := by
      rw [declared]
      exact wellFormed.named
    origins := fun row member => wellFormed.origins row (listed member)
    room := wellFormed.room
    entered := rearranged.enteredOnce wellFormed.entered
    rootRows := fun row member => wellFormed.rootRows row (listed member)
    rootTargets := fun row member => wellFormed.rootTargets row (listed member)
    targets := fun row member => wellFormed.targets row (listed member)
    events := fun event member => wellFormed.events event (rearranged.events.mem_iff.mpr member)
    rowEvents := fun row member => wellFormed.rowEvents row (listed member)
    eventsUsed := by
      intro event
      simp only [← rearranged.events.mem_iff, rearranged.mem_rows_iff]
      exact wellFormed.eventsUsed event
    statesUsed := by
      intro name
      simp only [declared, rearranged.mem_rows_iff]
      exact wellFormed.statesUsed name
    initOrigins := by
      intro row member isInit notRoot
      exact states.compound (wellFormed.initOrigins row (listed member) isInit notRoot)
    inits := by
      intro state isCompound
      obtain ⟨row, guarded, inner, init⟩ := wellFormed.inits state ((compound state).mp isCompound)
      exact ⟨row, guarded, inner, rearranged.initializes init⟩
    unmixed := fun row member second secondMember =>
      wellFormed.unmixed row (listed member) second (listed secondMember)
    selfLoops := by
      intro row member eventless guarded inRow goal
      exact states.compound (wellFormed.selfLoops row (listed member) eventless guarded inRow goal)
    single := by
      apply (rearranged.rows_perm.pairwise_iff _).mp wellFormed.single
      intro row second apart same
      exact apart ⟨same.1.symm, same.2.symm⟩
    unambiguous := by
      intro row member second secondMember same notInit encloses
      exact wellFormed.unambiguous row (listed member) second (listed secondMember) same notInit
        (states.symm.encloses encloses)
    histories := by
      intro row member guarded inRow reference goal
      exact states.compound (wellFormed.histories row (listed member) guarded inRow reference goal)
        }

theorem accepted (accepted : definition.Accepted settings) : other.Accepted settings :=
  (Contract.checkAll_battery_iff _).mpr (rearranged.wellFormed accepted.wellFormed).passes

end Rearranged

end Statechart.MachineDefinition
