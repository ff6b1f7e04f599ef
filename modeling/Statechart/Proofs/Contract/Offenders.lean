import Statechart.Machine.Protocol
import Statechart.Proofs.Contract.Accepted
import Statechart.Proofs.Contract.Blame
import Statechart.Proofs.Contract.DeclarationRules
import Statechart.Proofs.Contract.HandlerRules
import Statechart.Proofs.Indices.Descendants
import Statechart.Proofs.Indices.Exact
import Statechart.Proofs.Indices.Places

set_option autoImplicit false

namespace Statechart

open StateNode

namespace ContractContext

end ContractContext

/-- A row has no target, or one without a guard beside others. -/
def Transition.Misshapen {M : Model} (row : Transition M) : Prop :=
  row.targets = [] ∨ 1 < row.targets.length ∧ ∃ guarded ∈ row.targets, guarded.guard = none

namespace MachineDefinition

variable {M : Model} (definition : MachineDefinition M) (settings : Settings)

/-- A row is the given one at a position. -/
def Lists (item : Transition M × Nat) : Prop :=
  definition.rows[item.2]? = some item.1

/-- What is wrong with a row that is misshapen. -/
def shapeBlame (item : Transition M × Nat) : Finding :=
  if item.1.targets = [] then .noTarget item.1.origin item.1.event item.2
  else .mixedTargets item.1.origin item.1.event item.2 item.1.targets.length
    (item.1.targets.countP (fun guarded => guarded.guard.isNone))

theorem rows_eq_zipIdx : (definition.context settings).rows
    = definition.rows.zipIdx.map (fun item => (RowTables.shapeOf item.1, item.2)) := by
  show (definition.rows.map RowTables.shapeOf).zipIdx = _
  rw [List.zipIdx_map]
  rfl

theorem mem_zipIdx_rows_iff (item : Transition M × Nat) :
    item ∈ definition.rows.zipIdx ↔ definition.Lists item :=
  List.mem_zipIdx_iff_getElem?

theorem zipIdx_rows_nodup : definition.rows.zipIdx.Nodup := by
  apply (pairwise_zipIdx definition.rows).imp
  rintro first _ less rfl
  exact Nat.lt_irrefl _ less

theorem blamesEach_rows (picked : RowShape × Nat → Bool) (blame : RowShape × Nat → Finding) :
    BlamesEach (((definition.context settings).rows.filter picked).map blame)
      (fun item => definition.Lists item ∧ picked (RowTables.shapeOf item.1, item.2) = true)
      (fun item => blame (RowTables.shapeOf item.1, item.2)) := by
  have each := BlamesEach.of_filter definition.zipIdx_rows_nodup
    (fun item => picked (RowTables.shapeOf item.1, item.2))
      (fun item => blame (RowTables.shapeOf item.1, item.2))
  simp only [mem_zipIdx_rows_iff] at each
  rw [rows_eq_zipIdx, List.filter_map, List.map_map]
  exact each

theorem transitionShape_blames : BlamesEach (definition.context settings).transitionShape
    (fun item => definition.Lists item ∧ item.1.Misshapen) shapeBlame := by
  have picks : (definition.context settings).transitionShape
      = ((definition.context settings).rows.filter
            (fun row => decide (row.1.targets = 0 ∨ 0 < row.1.unguarded ∧ 1 < row.1.targets))).map
          (fun row => if row.1.targets = 0 then .noTarget row.1.origin row.1.event row.2
            else .mixedTargets row.1.origin row.1.event row.2 row.1.targets row.1.unguarded) := by
    rw [ContractContext.transitionShape, ← List.filterMap_eq_filter, List.map_filterMap]
    congr 1
    funext row
    by_cases empty : row.1.targets = 0
    · simp [empty, Option.guard]
    · by_cases mixed : 0 < row.1.unguarded ∧ 1 < row.1.targets <;> simp [empty, mixed, Option.guard]
  rw [picks]
  refine (definition.blamesEach_rows settings _ _).congr ?_ ?_
  · rintro ⟨row, position⟩
    refine and_congr_right (fun _ => ?_)
    show row.Misshapen ↔ decide (row.targets.length = 0 ∨
      0 < (row.targets.filter (fun guarded => guarded.guard.isNone)).length ∧
      1 < row.targets.length) = true
    rw [decide_eq_true_iff, List.length_eq_zero_iff, List.length_pos_iff_exists_mem,
      Transition.Misshapen]
    refine or_congr_right
      (and_comm.trans (and_congr_left (fun _ => exists_congr (fun guarded => ?_))))
    rw [List.mem_filter, Option.isNone_iff_eq_none]
  · rintro ⟨row, position⟩ _
    show shapeBlame (row, position) = if row.targets.length = 0 then _ else _
    simp only [shapeBlame, List.length_eq_zero_iff, RowTables.shapeOf, List.countP_eq_length_filter]

end MachineDefinition

namespace Player

end Player

namespace MachineDefinition

end MachineDefinition

end Statechart
