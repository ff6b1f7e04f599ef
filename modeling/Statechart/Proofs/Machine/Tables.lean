import Statechart.Proofs.Indices.TablePass
import Statechart.Proofs.Machine.Handler

set_option autoImplicit false

namespace Statechart

variable {M : Model} {definition : MachineDefinition M} {settings : Settings} {machine : Machine M}

namespace Machine.MadeFrom

variable (made : machine.MadeFrom definition settings)

include made

theorem exists_row_of_findHandler {control event handler : String} {external : Bool} {row : Nat}
    (handled : machine.findHandler control event external = some (handler, row)) :
    ∃ found, machine.transitions[row]? = some found ∧ machine.targetsOf row = found.targets := by
  have placed : ∃ found, definition.rows[row]? = some found := by
    by_cases atRoot : control = rootName
    · subst atRoot
      obtain ⟨found, placed, _⟩ := made.row_of_findHandler_root handled
      exact ⟨found, placed⟩
    · rw [findHandler, if_neg atRoot] at handled
      split at handled
      · cases handled
      · obtain ⟨state, _, looked⟩ := List.exists_of_findSome?_eq_some handled
        obtain ⟨position, own, same⟩ := Option.map_eq_some_iff.mp looked
        obtain ⟨found, placed, _⟩ := made.row_of_ownHandler own
        cases same
        exact ⟨found, placed⟩
  obtain ⟨found, placed⟩ := placed
  exact ⟨found, by rw [made.transitions, placed], made.targetsOf_eq placed⟩

end Machine.MadeFrom

namespace RowTables

/-- The tables of any list of rows are exact, and one pass over the rows fills them. All they
refer to is there, so machines and rules that look rows up by them find these rows, whatever the
settings. -/
theorem tables_exact (rows : List (Transition M)) :
    (ofRows rows).Exact rows ∧ (ofRows rows).InRange rows.length ∧
      TablePass.ofRows rows = ⟨ofRows rows, (ofRows rows).firstByOrigin⟩ ∧
      ∀ (definition : MachineDefinition M) (settings : Settings), definition.rows = rows →
        (∀ machine : Machine M, machine.MadeFrom definition settings →
          ∀ control event external handler row,
          machine.findHandler control event external = some (handler, row) →
            ∃ found, machine.transitions[row]? = some found ∧
            machine.targetsOf row = found.targets) ∧
        ∀ state event row, row ∈ (definition.context settings).indices.tables.rowsOn state event →
          ∃ shape, (definition.context settings).indices.tables.shapes[row]? = some shape := by
  refine ⟨exact_ofRows rows, (exact_ofRows rows).inRange, TablePass.ofRows_eq rows, ?_⟩
  rintro definition settings rfl
  refine ⟨fun machine made _ _ _ _ _ => made.exists_row_of_findHandler, ?_⟩
  intro state event row member
  obtain ⟨found, placed, _⟩ := (mem_rowsOn_iff definition.rows state event row).mp member
  refine ⟨shapeOf found, ?_⟩
  show (definition.rows.map shapeOf)[row]? = _
  rw [List.getElem?_map, placed, Option.map_some]

/-- Playing slowly, the player is switched off by the row at position 3, that of a state further
out; the row at position 0 is on init of that state. -/
theorem player_tables_exact :
    (ofRows Player.definition.rows).Exact Player.definition.rows ∧
      (∃ found, (Player.machine.after [Player.press "on"]).transitions[3]? = some found ∧
        (Player.machine.after [Player.press "on"]).targetsOf 3 = found.targets) ∧
      ∃ shape, (Player.definition.context {}).indices.tables.shapes[0]? = some shape := by
  have made := (Machine.MadeFrom.created Player.created).after [Player.press "on"]
  obtain ⟨isExact, _, _, present⟩ := tables_exact Player.definition.rows
  obtain ⟨machines, rules⟩ := present Player.definition {} rfl
  have found : (Player.machine.after [Player.press "on"]).findHandler "Slow" "off" true =
      some ("On", 3) := by
    decide +kernel
  exact ⟨isExact, machines _ made "Slow" "off" true "On" 3 found,
    rules "On" initEvent 0 (by decide +kernel)⟩

end RowTables

end Statechart
