import Statechart.Machine.Definition
import Statechart.Proofs.Contract.Accepted
import Statechart.Proofs.Indices.Exact
import Statechart.Proofs.Json.Form

set_option autoImplicit false

namespace Statechart

namespace ContractContext

/-- The origins and rows of some flat positions, in order. -/
def placesOf (context : ContractContext) (positions : List Nat) : List (String × Nat) :=
  (positions.filterMap (fun position => context.flat[position]?)).map
    (fun flat => (flat.origin, flat.row))

theorem exists_positions_of_mem {context : ContractContext} {finding : Finding}
    (found : finding ∈ context.historyTargetsValid) :
    ∃ state positions, context.indices.tables.historyTargets.find? state = some positions ∧
      finding.data = .object [("state", .string state),
        ("origins", .ofTable Json.nat (context.originsOf positions))] := by
  obtain ⟨entry, filed, reported⟩ := List.mem_flatMap.mp found
  refine ⟨entry.1, entry.2, (Table.mem_entries_iff _ _ _).mp filed, ?_⟩
  split at reported
  · rw [List.mem_singleton.mp reported]
    rfl
  · split at reported
    · rw [List.mem_singleton.mp reported]
      rfl
    · cases reported

end ContractContext

namespace MachineDefinition

variable {M : Model} (definition : MachineDefinition M) (settings : Settings)

section

variable {definition} {state : String} {positions : List Nat}
  (filed : definition.indices.tables.historyTargets.find? state = some positions)

include filed

theorem ascending_positions : Ascending positions (definition.indices.tables.NamesHistory state) :=
  ((RowTables.find?_historyTargets_iff definition.rows state positions).mp filed).2

theorem mem_placesOf_iff (origin : String) (row : Nat) :
    (origin, row) ∈ (definition.context settings).placesOf positions ↔
    definition.RefersTo state origin row := by
  have chosen := (ascending_positions filed).mem_iff
  simp only [ContractContext.placesOf, List.mem_map, List.mem_filterMap, chosen]
  constructor
  · rintro ⟨flat, ⟨index, ⟨entry, listed, history, names⟩, found⟩, same⟩
    cases same
    cases listed.symm.trans found
    obtain ⟨place, transition, position, guarded, inRows, inRow, rfl⟩ :=
      (RowTables.mem_flatOf_iff definition.rows flat).mp (List.mem_of_getElem? listed)
    exact ⟨transition, inRows, rfl, guarded, List.mem_of_getElem? inRow, history, names⟩
  · rintro ⟨transition, inRows, rfl, guarded, member, history, names⟩
    obtain ⟨position, inRow⟩ := List.mem_iff_getElem?.mp member
    have flat := (RowTables.mem_flatOf_iff definition.rows _).mpr
      ⟨row, transition, position, guarded, inRows, inRow, rfl⟩
    obtain ⟨index, listed⟩ := List.mem_iff_getElem?.mp flat
    exact ⟨_, ⟨index, ⟨_, listed, history, names⟩, listed⟩, rfl⟩

theorem placesOf_ascending :
    ((definition.context settings).placesOf positions).Pairwise
      (fun first second => first.2 ≤ second.2) := by
  rw [ContractContext.placesOf, List.pairwise_map, List.pairwise_filterMap]
  apply (ascending_positions filed).ordered.imp
  intro index other less entry found later otherFound
  obtain ⟨inRange, rfl⟩ := List.getElem?_eq_some_iff.mp found
  obtain ⟨otherInRange, rfl⟩ := List.getElem?_eq_some_iff.mp otherFound
  rcases List.pairwise_iff_getElem.mp (RowTables.flatOf_pairwise definition.rows) index other
      inRange otherInRange less with
    before | ⟨same, _⟩
  · exact before.le
  · exact same.le

theorem find?_originsOf_iff (origin : String) (row : Nat) :
    ((definition.context settings).originsOf positions).find? origin = some row ↔
    definition.RefersLast state origin row := by
  show (Table.ofList ((definition.context settings).placesOf positions)).find? origin = some row ↔ _
  rw [Table.find?_ofList_iff_greatest (placesOf_ascending settings filed)]
  simp only [mem_placesOf_iff settings filed]
  rfl

theorem exists_refersLast {origin : String} {row : Nat}
    (refers : definition.RefersTo state origin row) :
    ∃ last, definition.RefersLast state origin last := by
  have bound := (Table.contains_ofList ((definition.context {}).placesOf positions) origin).mpr
    ⟨row, (mem_placesOf_iff {} filed origin row).mpr refers⟩
  obtain ⟨last, found⟩ := Option.isSome_iff_exists.mp bound
  exact ⟨last, (find?_originsOf_iff {} filed origin last).mp found⟩

end

end MachineDefinition

namespace Violation

variable {violation : Violation} {state : String} {origins : Table Nat}

theorem reports_iff (data : violation.data =
    .object [("state", .string state), ("origins", .ofTable Json.nat origins)])
    (other : String) : violation.Reports other ↔ other = state := by
  have field : violation.data.field? "state" = some (.string state) := by
    simp [data, Json.field?, Table.find?_ofList]
  rw [Reports, field, Option.some.injEq, Json.string.injEq, eq_comm]

theorem records_iff (data : violation.data =
    .object [("state", .string state), ("origins", .ofTable Json.nat origins)])
    (origin : String) (row : Nat) : violation.Records origin row ↔
    origins.find? origin = some row := by
  have field : violation.data.field? "origins" = some (.ofTable Json.nat origins) := by
    simp [data, Json.field?, Table.find?_ofList]
  rw [Records, field]
  simp only [Option.some.injEq, exists_eq_left', Json.field?_ofTable, Option.map_eq_some_iff]
  constructor
  · rintro ⟨other, found, same⟩
    exact Json.nat_injective same ▸ found
  · exact fun found => ⟨row, found, rfl⟩

end Violation

theorem Contract.check_eq_historyTargetsValid {contract : Contract} (inBattery : contract ∈ battery)
    (named : contract.name = "history_targets_valid") (context : ContractContext) :
    contract.check context = context.historyTargetsValid.map
      (Finding.violation "history_targets_valid") := by
  have only : ∀ other ∈ battery, other.name = "history_targets_valid" →
      other.check = fun context =>
        context.historyTargetsValid.map (Finding.violation "history_targets_valid") := by
    simp [battery, ofRule]
  rw [only contract inBattery named]

namespace MachineDefinition

variable {M : Model}

/-- What is reported with a history is the last row of each origin that refers to it. Every
origin is named, and no row is lost exactly if each origin has one such row. -/
theorem history_report_names_last_rows (definition : MachineDefinition M) (settings : Settings)
    {contract : Contract} (inBattery : contract ∈ Contract.battery)
    (named : contract.name = "history_targets_valid") {violation : Violation}
    (found : violation ∈ contract.check (definition.context settings)) {state : String}
    (reports : violation.Reports state) :
    (∀ origin row, violation.Records origin row ↔ definition.RefersLast state origin row) ∧
      (∀ origin row, definition.RefersTo state origin row →
        ∃ last, row ≤ last ∧ violation.Records origin last) ∧
      ((∀ origin row, definition.RefersTo state origin row → violation.Records origin row) ↔
        ∀ origin row other, definition.RefersTo state origin row →
        definition.RefersTo state origin other → row = other) := by
  rw [Contract.check_eq_historyTargetsValid inBattery named] at found
  obtain ⟨finding, isFound, rfl⟩ := List.mem_map.mp found
  obtain ⟨own, positions, filed, data⟩ := ContractContext.exists_positions_of_mem isFound
  change (finding.violation "history_targets_valid").data = _ at data
  cases (Violation.reports_iff data state).mp reports
  have records (origin : String) (row : Nat) := (Violation.records_iff data origin row).trans
    (find?_originsOf_iff settings filed origin row)
  refine ⟨records, ?_, ?_, ?_⟩
  · intro origin row refers
    obtain ⟨last, isLast⟩ := exists_refersLast filed refers
    exact ⟨last, isLast.2 row refers, (records origin last).mpr isLast⟩
  · intro complete origin row other refers otherRefers
    have isLast := (records origin row).mp (complete origin row refers)
    have otherIsLast := (records origin other).mp (complete origin other otherRefers)
    exact Nat.le_antisymm (otherIsLast.2 row refers) (isLast.2 other otherRefers)
  · intro single origin row refers
    exact (records origin row).mpr
      ⟨refers, fun other otherRefers => (single origin other row otherRefers refers).le⟩

end MachineDefinition

namespace Player

/-- The player with two rows that go back from the pause to the history of a state without
states inside it. -/
def wistful : MachineDefinition model :=
  { definition with transitions := [
      .plain "Paused" "rewind" (.history ⟨.shallow, "Slow"⟩),
      .plain "Paused" "replay" (.history ⟨.deep, "Slow"⟩)] }

def wistfulReport : Violation :=
  Finding.violation "history_targets_valid" (.atomicHistory "Slow" (.ofList [("Paused", 1)]))

theorem wistful_reported : ∃ contract ∈ Contract.battery, contract.name = "history_targets_valid" ∧
    wistfulReport ∈ contract.check (wistful.context {}) := by
  refine ⟨.ofRule "history_targets_valid" "history targets name declared compound states"
    ContractContext.historyTargetsValid, by simp [Contract.battery], rfl, ?_⟩
  decide +kernel

theorem wistfulReport_reports : wistfulReport.Reports "Slow" := rfl

theorem wistfulReport_records_iff (origin : String) (row : Nat) :
    wistfulReport.Records origin row ↔ (Table.ofList [("Paused", 1)]).find? origin = some row :=
  have data : wistfulReport.data
      = .object [("state", .string "Slow"),
        ("origins", .ofTable Json.nat (.ofList [("Paused", 1)]))] := rfl
  Violation.records_iff data origin row

theorem wistful_refersTo : wistful.RefersTo "Slow" "Paused" 0 ∧
    wistful.RefersTo "Slow" "Paused" 1 :=
  ⟨⟨_, rfl, rfl, _, List.mem_singleton_self _, rfl, rfl⟩,
    ⟨_, rfl, rfl, _, List.mem_singleton_self _, rfl, rfl⟩⟩

end Player

namespace MachineDefinition

/-- The second of the two rows is reported, and the first is lost. -/
theorem wistful_loses_first : Player.wistfulReport.Records "Paused" 1 ∧
    ¬ Player.wistfulReport.Records "Paused" 0 := by
  obtain ⟨contract, inBattery, named, found⟩ := Player.wistful_reported
  obtain ⟨records, _, _⟩ :=
    history_report_names_last_rows Player.wistful
      {} inBattery named found Player.wistfulReport_reports
  obtain ⟨first, second⟩ := Player.wistful_refersTo
  refine ⟨?_, ?_⟩
  · exact (Player.wistfulReport_records_iff _ _).mpr (by decide)
  · intro recorded
    exact absurd (((records _ _).mp recorded).2 1 second) (by decide)

/-- A row that refers to an invalid history need not be reported. -/
theorem not_forall_history_report_complete :
    ¬ ∀ (definition : MachineDefinition Player.model) (settings : Settings),
    ∀ contract ∈ Contract.battery, contract.name = "history_targets_valid" →
      ∀ violation ∈ contract.check (definition.context settings), ∀ state, violation.Reports state →
        ∀ origin row, definition.RefersTo state origin row → violation.Records origin row := by
  intro always
  obtain ⟨contract, inBattery, named, found⟩ := Player.wistful_reported
  have first := always Player.wistful {} contract inBattery named _ found "Slow"
    Player.wistfulReport_reports "Paused" 0 Player.wistful_refersTo.1
  have kept := (Player.wistfulReport_records_iff _ _).mp first
  exact absurd kept (by decide)

end MachineDefinition

end Statechart
