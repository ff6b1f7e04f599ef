import Statechart.Proofs.Machine.Run

set_option autoImplicit false

namespace Statechart

open StateNode

variable {M : Model} {definition : MachineDefinition M} {settings : Settings} {machine : Machine M}

theorem Transition.eventKey_of_eventless {row : Transition M} (eventless : row.event = none) :
    row.eventKey = eventlessKey := by
  rw [eventKey, eventless]
  rfl

namespace Machine

theorem findHandler_root_ne_none (external : Bool)
    (starts : machine.indices.tables.startRows ≠ []) :
    machine.findHandler rootName initEvent external ≠ none := by
  intro missing
  rw [findHandler, if_pos rfl, if_pos rfl, Option.map_eq_none_iff, List.head?_eq_none_iff]
    at missing
  exact starts missing

/-- In the root only init is handled, and by the first row that starts the machine. -/
theorem findHandler_root_eq_some_iff {event handler : String} {external : Bool} {position : Nat} :
    machine.findHandler rootName event external = some (handler, position) ↔
      event = initEvent ∧ handler = rootName ∧
      machine.indices.tables.startRows.head? = some position := by
  rw [findHandler, if_pos rfl]
  by_cases init : event = initEvent
  · rw [if_pos init, Option.map_eq_some_iff]
    constructor
    · rintro ⟨first, isFirst, same⟩
      cases same
      exact ⟨init, rfl, isFirst⟩
    · rintro ⟨_, rfl, isFirst⟩
      exact ⟨position, isFirst, rfl⟩
  · rw [if_neg init]
    exact iff_of_false nofun (fun handled => init handled.1)

/-- Init that is dispatched is handled nowhere but in the root. -/
theorem findHandler_dispatched_init {control : String} (notRoot : control ≠ rootName) :
    machine.findHandler control initEvent true = none := by
  rw [findHandler, if_neg notRoot, if_pos ⟨rfl, rfl⟩]

theorem findHandler_of_ownHandler {control event : String} {position : Nat}
    (notRoot : control ≠ rootName)
    (own : machine.indices.tables.ownHandler control event = some position) :
    machine.findHandler control event false = some (control, position) := by
  obtain ⟨above, lineage⟩ := machine.indices.hierarchy.lineage_eq_cons control
  rw [findHandler, if_neg notRoot, if_neg (fun external => Bool.false_ne_true external.1), lineage,
    List.findSome?_cons_of_isSome]
  · rw [own]
    rfl
  · rw [own]
    rfl

/-- What entering a state raises is handled by a row of the state itself. -/
theorem findHandler_of_cascadeEvent {control raised : String} (notRoot : control ≠ rootName)
    (raises : machine.cascadeEvent control = some raised) :
    ∃ position, machine.indices.tables.ownHandler control raised = some position ∧
      machine.findHandler control raised false = some (control, position) := by
  obtain ⟨position, own⟩ := Option.isSome_iff_exists.mp (ownHandler_of_cascadeEvent raises).1
  exact ⟨position, own, findHandler_of_ownHandler notRoot own⟩

namespace MadeFrom

variable (made : machine.MadeFrom definition settings)

include made

theorem mem_targetsOf {position : Nat} {guarded : GuardedTarget M}
    (inRow : guarded ∈ machine.targetsOf position) :
    ∃ row ∈ definition.rows, guarded ∈ row.targets := by
  rw [targetsOf, made.transitions] at inRow
  cases found : definition.rows[position]? with
  | none =>
    rw [found] at inRow
    cases inRow
  | some row =>
    rw [found] at inRow
    exact ⟨row, List.mem_of_getElem? found, inRow⟩

theorem targetsOf_eq {position : Nat} {row : Transition M}
    (found : definition.rows[position]? = some row) : machine.targetsOf position = row.targets := by
  rw [targetsOf, made.transitions, found]

theorem ownHandler_isSome {row : Transition M} (listed : row ∈ definition.rows)
    (notRoot : row.origin ≠ rootName) :
    (machine.indices.tables.ownHandler row.origin row.eventKey).isSome = true := by
  rw [made.indices]
  exact RowTables.ownHandler_isSome listed notRoot

theorem row_of_ownHandler {origin event : String} {position : Nat}
    (own : machine.indices.tables.ownHandler origin event = some position) :
    ∃ row, definition.rows[position]? = some row ∧ row.origin ≠ rootName ∧ row.origin = origin ∧
      row.eventKey = event := by
  rw [made.indices] at own
  exact RowTables.ownHandler_eq_some own

theorem row_of_findHandler_root {event handler : String} {external : Bool} {position : Nat}
    (found : machine.findHandler rootName event external = some (handler, position)) :
    ∃ row, definition.rows[position]? = some row ∧ row.isStart = true := by
  obtain ⟨_, _, first⟩ := findHandler_root_eq_some_iff.mp found
  rw [made.indices] at first
  exact (RowTables.mem_startRows_iff definition.rows position).mp (List.mem_of_head? first)

theorem declared_of_contains {name : String} (notRoot : name ≠ rootName)
    (known : machine.indices.hierarchy.contains name = true) : Declared definition.states name := by
  rw [made.indices] at known
  rcases (Hierarchy.contains_iff name).mp known with root | declared
  · exact absurd root notRoot
  · exact declared

theorem quiescent_of_silent {runtime : Runtime M} (data : M.Data)
    (notRoot : runtime.control ≠ rootName)
    (silent : machine.indices.tables.ownHandler runtime.control eventlessKey = none) :
    Quiescent { machine with runtime := runtime } data := by
  intro row listed origin eventless
  have own := made.ownHandler_isSome (made.transitions ▸ listed) (origin ▸ notRoot)
  rw [origin, Transition.eventKey_of_eventless eventless, silent] at own
  cases own

end MadeFrom

end Machine

end Statechart
