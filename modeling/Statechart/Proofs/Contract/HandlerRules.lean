import Statechart.Proofs.Contract.Rules

set_option autoImplicit false

namespace Statechart

open StateNode

namespace MachineDefinition

variable {M : Model} (definition : MachineDefinition M) (settings : Settings)

theorem initOnlyFromCompound_eq_nil_iff :
    (definition.context settings).initOnlyFromCompound = [] ↔
      ∀ row ∈ definition.rows, row.event = some initEvent → row.origin ≠ rootName →
        definition.indices.hierarchy.isCompound row.origin = true := by
  rw [ContractContext.initOnlyFromCompound, List.map_eq_nil_iff, List.filter_eq_nil_iff]
  simp only [decide_eq_true_eq, not_and, Bool.not_eq_true, Bool.not_eq_false']
  exact forall_rows_iff definition settings
    (fun shape => shape.event = some initEvent → shape.origin ≠ rootName →
    definition.indices.hierarchy.isCompound shape.origin = true)

theorem noEventlessAtomicSelfLoop_eq_nil_iff :
    (definition.context settings).noEventlessAtomicSelfLoop = [] ↔
      ∀ row ∈ definition.rows, ∀ guarded ∈ row.targets, row.event = none →
        guarded.target = .state row.origin →
        definition.indices.hierarchy.isCompound row.origin = true := by
  rw [ContractContext.noEventlessAtomicSelfLoop, List.map_eq_nil_iff, List.filter_eq_nil_iff,
    ← forall_flat_iff definition settings
      (fun origin event target => event = none → target = .state origin →
      definition.indices.hierarchy.isCompound origin = true)]
  refine forall_congr' (fun flat => imp_congr_right (fun _ => ?_))
  have hierarchy : (definition.context settings).indices.hierarchy = definition.indices.hierarchy :=
    rfl
  rw [hierarchy]
  cases flat.target with
  | state name => simp [Target.isHistory, Target.stateName]
  | history reference => simp [Target.isHistory]

theorem noMixedEventless_eq_nil_iff :
    (definition.context settings).noMixedEventless = [] ↔
      ∀ row ∈ definition.rows, ∀ other ∈ definition.rows, row.origin ≠ rootName →
        other.origin = row.origin →
        row.eventKey = eventlessKey → other.eventKey = eventlessKey := by
  constructor
  · intro passed row listed other otherListed notRoot same eventless
    exact eventKey_of_noMixedEventless definition settings passed listed otherListed notRoot same
      eventless
  · intro uniform
    rw [ContractContext.noMixedEventless, List.map_eq_nil_iff, List.filter_eq_nil_iff]
    intro entry member mixed
    obtain ⟨eventless, several⟩ := of_decide_eq_true mixed
    have found : (RowTables.ofRows definition.rows).byOrigin.find? entry.1 = some entry.2 :=
      (Table.mem_entries_iff _ _ _).mp member
    have key : eventlessKey ∈ entry.2.keys :=
      (Table.mem_keys_iff _ _).mpr (Option.isSome_iff_exists.mp eventless)
    obtain ⟨event, inKeys, isEvent⟩ := Table.exists_key_ne several eventlessKey
    obtain ⟨row, listed, notRoot, origin, rowKey⟩ :=
      (RowTables.byOrigin_key_iff definition.rows entry.1 eventlessKey).mp ⟨entry.2, found, key⟩
    obtain ⟨other, otherListed, _, otherOrigin, otherKey⟩ :=
      (RowTables.byOrigin_key_iff definition.rows entry.1 event).mp ⟨entry.2, found, inKeys⟩
    exact isEvent (otherKey.symm.trans
      (uniform row listed other otherListed notRoot (otherOrigin.trans origin.symm) rowKey))

theorem noAncestorConflicts_eq_nil_iff :
    (definition.context settings).noAncestorConflicts = [] ↔
      ∀ row ∈ definition.rows, ∀ other ∈ definition.rows, row.origin ≠ rootName →
        other.origin ≠ rootName → row.eventKey ≠ initEvent → other.eventKey = row.eventKey →
          ¬ definition.indices.hierarchy.isStrictAncestor row.origin other.origin = true := by
  simp only [ContractContext.noAncestorConflicts, List.flatMap_eq_nil_iff, List.map_eq_nil_iff,
    List.filter_eq_nil_iff, List.mem_filter, decide_eq_true_eq, and_imp]
  constructor
  · intro apart row listed other otherListed notRoot otherNotRoot notInit same
    obtain ⟨origins, found, member⟩ :=
      (RowTables.byEvent_key_iff definition.rows row.eventKey row.origin).mpr
      ⟨row, listed, notRoot, rfl, rfl⟩
    obtain ⟨others, otherFound, otherMember⟩ :=
      (RowTables.byEvent_key_iff definition.rows row.eventKey other.origin).mpr
        ⟨other, otherListed, otherNotRoot, rfl, same⟩
    cases found.symm.trans otherFound
    exact apart (row.eventKey, origins) ((Table.mem_entries_iff _ _ _).mpr found) notInit row.origin
      member other.origin otherMember
  · intro apart entry member notInit ancestor isKey state isOtherKey
    have found : (RowTables.ofRows definition.rows).byEvent.find? entry.1 = some entry.2 :=
      (Table.mem_entries_iff _ _ _).mp member
    obtain ⟨row, listed, notRoot, rfl, rowKey⟩ :=
      (RowTables.byEvent_key_iff definition.rows entry.1 ancestor).mp ⟨entry.2, found, isKey⟩
    obtain ⟨other, otherListed, otherNotRoot, rfl, otherKey⟩ :=
      (RowTables.byEvent_key_iff definition.rows entry.1 state).mp ⟨entry.2, found, isOtherKey⟩
    exact apart row listed other otherListed notRoot otherNotRoot (rowKey ▸ notInit)
      (otherKey.trans rowKey.symm)

theorem initRowFindings_eq_nil {state inner : String} {position : Nat} {row : Transition M}
    {guarded : GuardedTarget M} (listed : definition.rows[position]? = some row)
    (targets : row.targets = [guarded]) (unguarded : guarded.guard = none)
    (goal : guarded.target = .state inner)
    (inside : definition.indices.hierarchy.isStrictAncestor state inner = true) :
    (definition.context settings).initRowFindings state position = [] := by
  have shape : (definition.context settings).indices.tables.shapes[position]? =
      some (RowTables.shapeOf row) := by
    show (definition.rows.map RowTables.shapeOf)[position]? = _
    rw [List.getElem?_map, listed]
    rfl
  have single : ¬ ((RowTables.shapeOf row).targets ≠ 1 ∨
      (RowTables.shapeOf row).unguarded ≠ 1) := by
    simp [RowTables.shapeOf, targets, unguarded]
  obtain ⟨flat, first, target⟩ := RowTables.find?_flat_of_single listed targets
  have found : (definition.context settings).flat.find? (fun flat => flat.row = position) =
    some flat := first
  have nested : (definition.context settings).indices.hierarchy.isStrictAncestor state
      flat.target.stateName = true := by
    rw [target, goal]
    exact inside
  unfold ContractContext.initRowFindings
  rw [shape]
  dsimp only
  rw [if_neg single, found]
  dsimp only
  rw [target, goal] at nested ⊢
  rw [nested]
  rfl

theorem compoundInitValid_eq_nil_iff :
    (definition.context settings).compoundInitValid = [] ↔
      ∀ state, definition.indices.hierarchy.isCompound state = true → state ≠ rootName →
        ∃ position row guarded inner, definition.indices.tables.rowsOn state initEvent =
          [position] ∧
          definition.rows[position]? = some row ∧ row.targets = [guarded] ∧ guarded.guard = none ∧
            guarded.target = .state inner ∧
            definition.indices.hierarchy.isStrictAncestor state inner = true := by
  constructor
  · intro passed state compound notRoot
    obtain ⟨position, filed, valid⟩ :=
      rowsOn_init_of_compoundInitValid definition settings passed compound notRoot
    have member : position ∈ (RowTables.ofRows definition.rows).rowsOn state initEvent :=
      filed ▸ List.mem_singleton_self position
    obtain ⟨row, found, _⟩ := (RowTables.mem_rowsOn_iff definition.rows _ _ _).mp member
    obtain ⟨guarded, inner, facts⟩ := init_target_of_initRowFindings definition settings valid found
    exact ⟨position, row, guarded, inner, filed, found, facts⟩
  · intro valid
    rw [ContractContext.compoundInitValid, List.flatMap_eq_nil_iff]
    intro state member
    obtain ⟨compound, notRoot⟩ := (ContractContext.mem_compoundStates_iff _ state).mp member
    obtain ⟨position, row, guarded, inner, filed, found, targets, unguarded, goal, inside⟩ :=
      valid state compound notRoot
    rw [show (definition.context settings).indices.tables.rowsOn state initEvent = [position] from
      filed]
    exact initRowFindings_eq_nil definition settings found targets unguarded goal inside

end MachineDefinition

end Statechart
