import Mathlib.Data.List.Pairwise
import Statechart.Proofs.Contract.Battery
import Statechart.Proofs.Contract.Rules

set_option autoImplicit false

namespace Statechart

open StateNode

namespace MachineDefinition

variable {M : Model}

/-- The battery finds nothing wrong with a definition. -/
def Accepted (definition : MachineDefinition M) (settings : Settings) : Prop :=
  Contract.checkAll (definition.context settings) Contract.battery = .ok ()

namespace Accepted

variable {definition : MachineDefinition M} {settings : Settings}
  (accepted : definition.Accepted settings)

include accepted

theorem passes : (definition.context settings).Passes :=
  (Contract.checkAll_battery_iff _).mp accepted

theorem distinctNames : DistinctNames definition.states :=
  (Hierarchy.distinctNames_iff definition.states).mpr
    ⟨(ContractContext.uniqueStateNames_eq_nil_iff _).mp accepted.passes.uniqueStateNames,
      (ContractContext.rootNameNotReused_eq_nil_iff _).mp accepted.passes.rootNameNotReused⟩

theorem target_declared {row : Transition M} {guarded : GuardedTarget M}
    (listed : row ∈ definition.rows)
    (inRow : guarded ∈ row.targets) : Declared definition.states guarded.target.stateName := by
  have notRoot := (noTransitionToRoot_eq_nil_iff definition settings).mp
    accepted.passes.noTransitionToRoot
  have mentioned := (statesMatchTransitions_eq_nil_iff definition settings).mp
    accepted.passes.statesMatchTransitions
  exact (mentioned.2 guarded.target.stateName).mpr
    ⟨notRoot row listed guarded inRow, row, listed, Or.inr ⟨guarded, inRow, rfl⟩⟩

theorem history_compound {row : Transition M} {guarded : GuardedTarget M}
    (listed : row ∈ definition.rows) (inRow : guarded ∈ row.targets)
    (history : guarded.target.isHistory = true) :
    DeclaredCompound definition.states guarded.target.stateName := by
  obtain ⟨_, notRoot, compound⟩ := (historyTargetsValid_eq_nil_iff definition settings).mp
    accepted.passes.historyTargetsValid row listed guarded inRow history
  exact (Hierarchy.isCompound_iff accepted.distinctNames notRoot).mp compound

theorem event_ne_empty {row : Transition M} (listed : row ∈ definition.rows) :
    row.event ≠ some eventlessKey :=
  ((eventNamesValid_eq_nil_iff definition settings).mp accepted.passes.eventNamesValid).2 row listed

theorem rows_filed_once : definition.rows.Pairwise (fun row other => row.origin ≠ rootName →
    ¬ (row.origin = other.origin ∧ row.eventKey = other.eventKey)) :=
  (RowTables.rowsOn_length_le_one_iff definition.rows).mp
    ((guardsInSingleRow_eq_nil_iff definition settings).mp accepted.passes.guardsInSingleRow)

theorem row_unique {row other : Transition M} (listed : row ∈ definition.rows)
    (otherListed : other ∈ definition.rows) (notRoot : row.origin ≠ rootName)
    (origins : other.origin = row.origin)
    (events : other.eventKey = row.eventKey) :
    other = row := by
  have symmetric : Std.Symm (fun row other : Transition M => row.origin ≠ rootName →
      ¬ (row.origin = other.origin ∧ row.eventKey = other.eventKey)) := by
    refine ⟨?_⟩
    intro first second apart secondNotRoot same
    exact apart (same.1 ▸ secondNotRoot) ⟨same.1.symm, same.2.symm⟩
  apply Classical.byContradiction
  intro different
  have apart := accepted.rows_filed_once.forall listed otherListed (fun same => different same.symm)
  exact apart notRoot ⟨origins.symm, events.symm⟩

theorem start_row : ∃ row ∈ definition.rows, row.isStart = true ∧
    ∀ other ∈ definition.rows, other.isStart = true → other = row := by
  have count := countP_isStart_of_singleInitialTransition definition settings
    accepted.passes.singleInitialTransition
  rw [List.countP_eq_length_filter] at count
  obtain ⟨row, single⟩ := List.length_eq_one_iff.mp count
  have member : row ∈ definition.rows.filter Transition.isStart :=
    single ▸ List.mem_singleton_self row
  refine ⟨row, (List.mem_filter.mp member).1, (List.mem_filter.mp member).2, ?_⟩
  intro other listed starts
  have otherMember : other ∈ definition.rows.filter Transition.isStart :=
    List.mem_filter.mpr ⟨listed, starts⟩
  rw [single] at otherMember
  exact List.mem_singleton.mp otherMember

theorem startRows_ne_nil : definition.indices.tables.startRows ≠ [] := by
  obtain ⟨row, listed, starts, _⟩ := accepted.start_row
  obtain ⟨position, found⟩ := List.mem_iff_getElem?.mp listed
  exact List.ne_nil_of_mem
    ((RowTables.mem_startRows_iff definition.rows position).mpr ⟨row, found, starts⟩)

end Accepted

end MachineDefinition

namespace Player

/-- The extended state counts; events carry a number that nothing here reads. -/
def model : Model where
  Ext := Nat
  Update := Nat
  Data := Nat
  Output := String
  noData := 0
  extText := toString
  dataText := toString
  updatesText := fun updates => toString updates

def tired : Guard model where
  name := "tired"
  check (ext : Nat) _ _ := .ok (2 ≤ ext)

def speedUp : Action model where
  name := "speed_up"
  run _ _ _ := .ok ⟨[(1 : Nat)], some ["faster"]⟩

def states : List StateNode :=
  [.atomic "Off", .compound "On"
    [.compound "Playing" [.atomic "Slow", .atomic "Fast"], .atomic "Paused"]]

def reducer : Reducer model :=
  fun (ext : Nat) (updates : List Nat) => .ok (List.foldl Nat.add ext updates)

/-- Switching on goes back to the innermost state last switched off from, resuming to the speed
last paused at. -/
def definition : MachineDefinition model where
  states := states
  events := ["on", "off", "play", "pause", "speed"]
  transitions := [
    .plain "On" initEvent (.state "Playing"),
    .plain "Playing" initEvent (.state "Slow"),
    .plain "Off" "on" (.history ⟨.deep, "On"⟩),
    .plain "On" "off" (.state "Off"),
    .plain "Playing" "pause" (.state "Paused"),
    .plain "Paused" "play" (.history ⟨.shallow, "Playing"⟩),
    .onEvent "Slow" "speed" (.state "Fast") speedUp,
    .automatic "Fast" [.when tired (.state "Slow") .identity]]
  initialExt := (0 : Nat)
  initialState := some "Off"
  reducer := reducer

def press (name : String) : Event model.Data :=
  ⟨name, (0 : Nat)⟩

theorem accepted : definition.Accepted {} := by
  rw [MachineDefinition.Accepted, Contract.checkAll_eq_ok_iff]
  decide +kernel

end Player

end Statechart
