import Statechart.Machine.Lookup
import Statechart.Proofs.Contract.WellFormed
import Statechart.Proofs.Indices.Lineage
import Statechart.Proofs.Machine.Protocol

set_option autoImplicit false

namespace Statechart

open StateNode

variable {M : Model} {definition : MachineDefinition M} {settings : Settings} {machine : Machine M}

/-- The first position at which a list has a wanted item is that of the first wanted item. -/
theorem find?_eq_getElem?_of_head? {α : Type} {items : List α} {wanted : α → Bool} {position : Nat}
    (first : ((items.zipIdx.filter (fun item => wanted item.1)).map Prod.snd).head? =
      some position) :
    items.find? wanted = items[position]? := by
  rw [List.head?_map, List.head?_filter] at first
  obtain ⟨⟨item, place⟩, found, same⟩ := Option.map_eq_some_iff.mp first
  cases same
  have listed := List.mem_zipIdx_iff_getElem?.mp (List.mem_of_find?_eq_some found)
  have items_eq : items.find? wanted =
      (items.zipIdx.find? (fun item => wanted item.1)).map Prod.fst := by
    rw [← Function.comp_def wanted Prod.fst, ← List.find?_map, List.zipIdx_map_fst]
  rw [items_eq, found, listed]
  rfl

namespace RowTables

/-- The row that is looked up of a state is the first one on the event. -/
theorem ownHandler_ofRows (rows : List (Transition M)) {origin : String}
    (notRoot : origin ≠ rootName) (event : String) : (ofRows rows).ownHandler origin event
      = rows.findIdx? (fun row => row.origin = origin ∧ row.eventKey = event) := by
  rw [ownHandler, rowsOn_ofRows, List.filter_filter, List.head?_map, List.head?_filter,
    List.findIdx?_eq_fst_find?_zipIdx]
  congr 2
  funext item
  by_cases isOrigin : item.1.origin = origin
  · simp [isOrigin, notRoot]
  · simp [isOrigin]

theorem find?_of_ownHandler {rows : List (Transition M)} {origin event : String} {position : Nat}
    (own : (ofRows rows).ownHandler origin event = some position) :
    rows.find? (fun row => row.origin = origin ∧ row.eventKey = event) = rows[position]? := by
  obtain ⟨_, _, notRoot, rfl, _⟩ := ownHandler_eq_some own
  rw [ownHandler_ofRows rows notRoot] at own
  rw [List.find?_eq_bind_findIdx?_getElem?, own]
  rfl

theorem find?_of_startRows {rows : List (Transition M)} {position : Nat}
    (first : (ofRows rows).startRows.head? = some position) :
    rows.find? (fun row => row.origin = rootName ∧ row.eventKey = initEvent) = rows[position]? := by
  apply find?_eq_getElem?_of_head?
  rw [← first]
  show _ = (startRowsOf rows).head?
  rw [startRowsOf]
  congr 2
  apply List.filter_congr
  intro item _
  have key : item.1.eventKey = initEvent ↔ item.1.event = some initEvent :=
    Transition.eventKey_eq_iff (by decide)
  simp only [Transition.isStart, key, Bool.and_eq_decide, decide_eq_true_eq]

end RowTables

namespace MachineDefinition

variable (distinct : DistinctNames definition.states)

include distinct

theorem HandledBy.unique {control event handler other : String} {external : Bool}
    {row otherRow : Transition M}
    (handled : definition.HandledBy control event external handler row)
    (otherHandled : definition.HandledBy control event external other otherRow) :
    handler = other ∧ row = otherRow := by
  have handles := (definition.handles_iff_firstRow? handler event).mpr ⟨row, handled.first⟩
  have otherHandles := (definition.handles_iff_firstRow? other event).mpr
    ⟨otherRow, otherHandled.first⟩
  have same : handler = other := by
    rcases handled.innermost other otherHandled.around otherHandles with same | outside
    · exact same.symm
    · rcases otherHandled.innermost handler handled.around handles with same | inside
      · exact same
      · have circular := Hierarchy.encloses_trans distinct outside inside
        exact absurd circular (Hierarchy.not_encloses_self distinct other)
  subst same
  exact ⟨rfl, Option.some.inj (handled.first.symm.trans otherHandled.first)⟩

end MachineDefinition

namespace Machine.MadeFrom

variable (made : machine.MadeFrom definition settings)

include made

theorem firstRow?_of_ownHandler {state event : String} {position : Nat}
    (own : machine.indices.tables.ownHandler state event = some position) :
    ∃ row, definition.firstRow? state event = some row ∧
    machine.targetsOf position = row.targets := by
  obtain ⟨row, placed, _⟩ := made.row_of_ownHandler own
  rw [made.indices] at own
  refine ⟨row, ?_, made.targetsOf_eq placed⟩
  rw [MachineDefinition.firstRow?, RowTables.find?_of_ownHandler own, placed]

variable (distinct : DistinctNames definition.states)

include distinct

/-- The first state of a lineage that has a row on an event is the innermost. -/
theorem handledBy_of_lineage {control event handler : String} {position : Nat} (external : Bool)
    (notRoot : control ≠ rootName) (heard : MachineDefinition.Heard control event external)
    (found : (machine.indices.hierarchy.lineage control).findSome? (fun state =>
      (machine.indices.tables.ownHandler state event).map (fun row => (state, row))) =
        some (handler, position)) :
    ∃ row, definition.HandledBy control event external handler row ∧
    machine.targetsOf position = row.targets := by
  obtain ⟨before, state, above, split, answers, silent⟩ := List.findSome?_eq_some_iff.mp found
  obtain ⟨place, own, same⟩ := Option.map_eq_some_iff.mp answers
  cases same
  obtain ⟨row, first, targets⟩ := made.firstRow?_of_ownHandler own
  obtain ⟨_, _, handlerNotRoot, rfl, _⟩ := made.row_of_ownHandler own
  rw [made.indices] at split
  have lineage : (Hierarchy.ofStates definition.states).lineage control = _ := split
  refine ⟨row, ⟨heard, ?_, first, ?_⟩, targets⟩
  · have inLineage := lineage ▸ List.mem_append_right before List.mem_cons_self
    rcases Hierarchy.encloses_of_mem_lineage distinct inLineage with here | encloses | isRoot
    · exact Or.inl here
    · exact Or.inr encloses
    · exact absurd isRoot handlerNotRoot
  · intro other around handles
    have otherNotRoot := Hierarchy.ne_root_of_around distinct around notRoot
    have inLineage := Hierarchy.mem_lineage_of_around distinct around
    have ordered := Hierarchy.lineage_pairwise distinct control
    rw [lineage] at ordered inLineage
    rcases List.mem_append.mp inLineage with inner | outer
    · -- The states before the handler have no row on the event.
      have none := Option.map_eq_none_iff.mp (silent other inner)
      have own := (made.handles_iff otherNotRoot event).mpr handles
      rw [none] at own
      cases own
    · rcases List.mem_cons.mp outer with here | further
      · exact Or.inl here
      · have after := (List.pairwise_cons.mp (List.pairwise_append.mp ordered).2.1).1 other further
        exact Or.inr (after.resolve_right otherNotRoot)

/-- What is looked up in the tables is what handles the event. -/
theorem handledBy_of_findHandler {control event handler : String} {external : Bool} {position : Nat}
    (found : machine.findHandler control event external = some (handler, position)) :
    ∃ row, definition.HandledBy control event external handler row ∧
    machine.targetsOf position = row.targets := by
  by_cases inRoot : control = rootName
  · subst inRoot
    obtain ⟨row, placed, _⟩ := made.row_of_findHandler_root found
    obtain ⟨rfl, rfl, first⟩ := findHandler_root_eq_some_iff.mp found
    rw [made.indices] at first
    refine ⟨row, ⟨by rw [MachineDefinition.Heard, if_pos rfl], Or.inl rfl, ?_, ?_⟩,
      made.targetsOf_eq placed⟩
    · rw [MachineDefinition.firstRow?, RowTables.find?_of_startRows first, placed]
    · exact fun other around _ => around
  · rw [findHandler, if_neg inRoot] at found
    split at found
    · cases found
    · rename_i heard
      apply made.handledBy_of_lineage distinct external inRoot _ found
      rw [MachineDefinition.Heard, if_neg inRoot]
      exact heard

/-- What handles an event is found in the tables. -/
theorem findHandler_of_handledBy {control event handler : String} {external : Bool}
    {row : Transition M} (handled : definition.HandledBy control event external handler row) :
    ∃ position, machine.findHandler control event external = some (handler, position) ∧
      machine.targetsOf position = row.targets := by
  cases found : machine.findHandler control event external with
  | some place =>
    obtain ⟨other, position⟩ := place
    obtain ⟨otherRow, otherHandled, targets⟩ := made.handledBy_of_findHandler distinct found
    obtain ⟨rfl, rfl⟩ := handled.unique distinct otherHandled
    exact ⟨position, rfl, targets⟩
  | none =>
    have handles := (definition.handles_iff_firstRow? handler event).mpr ⟨row, handled.first⟩
    have heard := handled.heard
    by_cases inRoot : control = rootName
    · subst inRoot
      rw [MachineDefinition.Heard, if_pos rfl] at heard
      subst heard
      have here : handler = rootName := by
        rcases handled.around with here | encloses
        · exact here
        · exact absurd rfl (Hierarchy.ne_root_of_declared distinct (declared_of_encloses encloses))
      subst here
      obtain ⟨start, listed, origin, key⟩ := handles
      have isStart : start.isStart = true := by
        rw [Transition.isStart, origin, (Transition.eventKey_eq_iff (by decide)).mp key]
        rfl
      obtain ⟨position, placed⟩ := List.mem_iff_getElem?.mp listed
      have filed := (RowTables.mem_startRows_iff definition.rows position).mpr
        ⟨start, placed, isStart⟩
      have starts : machine.indices.tables.startRows ≠ [] := by
        rw [made.indices]
        exact List.ne_nil_of_mem filed
      exact absurd found (findHandler_root_ne_none external starts)
    · rw [MachineDefinition.Heard, if_neg inRoot] at heard
      rw [findHandler, if_neg inRoot, if_neg heard, List.findSome?_eq_none_iff] at found
      rw [made.indices] at found
      have inLineage := Hierarchy.mem_lineage_of_around distinct handled.around
      have none := Option.map_eq_none_iff.mp (found handler inLineage)
      have notRoot := Hierarchy.ne_root_of_around distinct handled.around inRoot
      have own := (made.handles_iff notRoot event).mpr handles
      rw [made.indices] at own
      rw [none] at own
      cases own

theorem findHandler_eq_none_iff (control event : String) (external : Bool) :
    machine.findHandler control event external = none ↔
      ∀ handler row, ¬ definition.HandledBy control event external handler row := by
  constructor
  · intro none handler row handled
    obtain ⟨_, found, _⟩ := made.findHandler_of_handledBy distinct handled
    cases none.symm.trans found
  · intro unhandled
    cases found : machine.findHandler control event external with
    | none => rfl
    | some place =>
      obtain ⟨row, handled, _⟩ := made.handledBy_of_findHandler distinct found
      exact absurd handled (unhandled place.1 row)

end Machine.MadeFrom

end Statechart
