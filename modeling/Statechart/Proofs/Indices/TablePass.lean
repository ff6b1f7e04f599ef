import Statechart.Proofs.Indices.Exact

set_option autoImplicit false

namespace Statechart

namespace TablePass

variable {β : Type}

theorem group_concat (items : List (String × β)) (item : String × β) :
    Table.group (items ++ [item]) = push (Table.group items) item.1 item.2 := by
  rw [Table.group, List.foldl_append]
  rfl

theorem find?_push (table : Table (List β)) (name wanted : String) (value : β) :
    (push table name value).find? wanted
      = if wanted = name then some ((table.find? name).getD [] ++ [value])
        else table.find? wanted :=
  Table.find?_alter table name wanted _

theorem map_group_push (table : Table (List (String × β))) (outer inner : String) (value : β) :
    (push table outer (inner, value)).map Table.group =
      pushNested (table.map Table.group) outer inner value := by
  apply Table.ext_find?
  intro wanted
  rw [Table.find?_map, find?_push, pushNested, Table.find?_alter]
  by_cases same : wanted = outer
  · rw [if_pos same, if_pos same, Option.map_some, group_concat, Table.find?_map]
    cases table.find? outer <;> rfl
  · rw [if_neg same, if_neg same, Table.find?_map]

theorem map_group_concat (items : List (String × String × β)) (outer inner : String) (value : β) :
    (Table.group (items ++ [(outer, inner, value)])).map Table.group
      = pushNested ((Table.group items).map Table.group) outer inner value := by
  rw [group_concat, map_group_push]

/-- Where no kept list is empty, appending to a list leaves its first value, unless there was
none. -/
theorem map_headD_push (table : Table (List Nat)) (name : String) (value : Nat)
    (filled : table.find? name ≠ some []) :
    (push table name value).map (fun listed => listed.headD 0)
      = (table.map (fun listed => listed.headD 0)).alter name (fun kept => kept.getD value) := by
  apply Table.ext_find?
  intro wanted
  rw [Table.find?_map, find?_push, Table.find?_alter, Table.find?_map, Table.find?_map]
  by_cases same : wanted = name
  · rw [if_pos same, if_pos same]
    match kept : table.find? name with
    | none => rfl
    | some [] => exact absurd kept filled
    | some (_ :: _) => rfl
  · rw [if_neg same, if_neg same]

theorem firstByOrigin_pushNested (table : Table (Table (List Nat))) (outer inner : String)
    (value : Nat) (filled : table.findNested? outer inner ≠ some []) :
    (pushNested table outer inner value).map
      (fun events => events.map (fun listed => listed.headD 0))
      = keepFirst (table.map (fun events => events.map (fun listed => listed.headD 0))) outer inner
        value := by
  apply Table.ext_find?
  intro wanted
  rw [Table.find?_map, pushNested, keepFirst, Table.find?_alter, Table.find?_alter, Table.find?_map,
    Table.find?_map]
  by_cases same : wanted = outer
  · rw [if_pos same, if_pos same, Option.map_some]
    rw [Table.findNested?] at filled
    cases kept : table.find? outer with
    | none => exact congrArg some (map_headD_push .empty inner value (Option.some_ne_none []).symm)
    | some events =>
      rw [kept] at filled
      exact congrArg some (map_headD_push events inner value filled)
  · rw [if_neg same, if_neg same]

end TablePass

namespace RowTables

open TablePass

variable {M : Model}

theorem targetsOf_concat (flats : List FlatTransition) (entry : FlatTransition) :
    targetsOf (flats ++ [entry]) = push (targetsOf flats) entry.target.stateName flats.length := by
  rw [targetsOf, List.zipIdx_append, List.map_append, Nat.zero_add]
  exact group_concat _ _

theorem filter_zipIdx_concat {α : Type} (items : List α) (item : α) (kept : α → Bool) :
    (items ++ [item]).zipIdx.filter (fun entry => kept entry.1)
      = if kept item then items.zipIdx.filter (fun entry => kept entry.1) ++ [(item, items.length)]
        else items.zipIdx.filter (fun entry => kept entry.1) := by
  rw [List.zipIdx_append, List.filter_append, Nat.zero_add, List.zipIdx_singleton,
    List.filter_singleton]
  by_cases isKept : kept item = true
  · simp only [isKept, cond_true, if_pos]
  · simp only [isKept, cond_false, Bool.false_eq_true, if_false, List.append_nil]

theorem historyTargetsOf_concat (flats : List FlatTransition) (entry : FlatTransition) :
    historyTargetsOf (flats ++ [entry])
      = if entry.target.isHistory then
        push (historyTargetsOf flats) entry.target.stateName flats.length
        else historyTargetsOf flats := by
  rw [historyTargetsOf, filter_zipIdx_concat flats entry (fun entry => entry.target.isHistory)]
  by_cases history : entry.target.isHistory = true
  · rw [if_pos history, if_pos history, List.map_append]
    exact group_concat _ _
  · rw [if_neg history, if_neg history]
    rfl

/-- Adding targets one by one keeps what is filed of the flat list in step with it. -/
theorem foldl_addFlat (tables : RowTables) (flats more : List FlatTransition) :
    more.foldl addFlat
        { tables with
          flat := flats
          targets := targetsOf flats
          historyTargets := historyTargetsOf flats }
      = { tables with
          flat := flats ++ more
          targets := targetsOf (flats ++ more)
          historyTargets := historyTargetsOf (flats ++ more) } := by
  induction more generalizing flats with
  | nil => rw [List.append_nil, List.foldl_nil]
  | cons entry rest ih =>
    rw [List.foldl_cons, List.append_cons flats entry rest, ← ih (flats ++ [entry]),
      targetsOf_concat, historyTargetsOf_concat]
    rfl

variable (rows : List (Transition M)) (row : Transition M)

theorem flatOf_concat : flatOf (rows ++ [row]) = flatOf rows ++ flatten row rows.length := by
  rw [flatOf, List.zipIdx_append, List.flatMap_append, Nat.zero_add, List.zipIdx_singleton,
    List.flatMap_singleton]
  rfl

theorem filed_concat :
    filed (rows ++ [row])
      = if row.origin = rootName then filed rows
        else filed rows ++ [(row.origin, row.eventKey, rows.length)] := by
  rw [filed, filter_zipIdx_concat rows row (fun row => row.origin ≠ rootName)]
  by_cases fromRoot : row.origin = rootName
  · rw [if_neg (by simpa using fromRoot), if_pos fromRoot]
    rfl
  · rw [if_pos (by simpa using fromRoot), if_neg fromRoot, List.map_append]
    rfl

/-- However what is filed of a row is arranged, a row from the root leaves a table of tables as
it is, and any other comes last where it belongs. -/
theorem group_filed_concat (arrange : String × String × Nat → String × String × Nat) :
    (Table.group ((filed (rows ++ [row])).map arrange)).map Table.group
      = if row.origin = rootName then (Table.group ((filed rows).map arrange)).map Table.group
        else
          let (outer, inner, position) := arrange (row.origin, row.eventKey, rows.length)
          pushNested ((Table.group ((filed rows).map arrange)).map Table.group) outer inner
              position := by
  rw [filed_concat]
  by_cases fromRoot : row.origin = rootName
  · rw [if_pos fromRoot, if_pos fromRoot]
  · rw [if_neg fromRoot, if_neg fromRoot, List.map_append]
    exact map_group_concat _ _ _ _

theorem byOriginOf_concat :
    byOriginOf (rows ++ [row])
      = if row.origin = rootName then byOriginOf rows
        else pushNested (byOriginOf rows) row.origin row.eventKey rows.length :=
  group_filed_concat rows row (fun item => (item.1, item.2.1, item.2.2))

theorem byEventOf_concat :
    byEventOf (rows ++ [row])
      = if row.origin = rootName then byEventOf rows
        else pushNested (byEventOf rows) row.eventKey row.origin rows.length :=
  group_filed_concat rows row (fun item => (item.2.1, item.1, item.2.2))

theorem startRowsOf_concat :
    startRowsOf (rows ++ [row]) = if row.isStart then startRowsOf rows ++ [rows.length]
      else startRowsOf rows := by
  rw [startRowsOf, filter_zipIdx_concat rows row Transition.isStart]
  by_cases starts : row.isStart = true
  · rw [if_pos starts, if_pos starts, List.map_append]
    rfl
  · rw [if_neg starts, if_neg starts]
    rfl

end RowTables

namespace Transition

variable {M : Model}

theorem isStart_of_root {row : Transition M} (fromRoot : row.origin = rootName) :
    row.isStart = decide (row.eventKey = initEvent) := by
  rw [isStart, eventKey, decide_eq_true fromRoot, Bool.true_and, decide_eq_decide]
  cases row.event with
  | none => exact iff_of_false (Option.some_ne_none initEvent).symm (by decide)
  | some event => rw [Option.some_inj, Option.getD_some]

end Transition

namespace TablePass

open RowTables

variable {M : Model}

variable (rows : List (Transition M)) (row : Transition M)

theorem addTargets_ofRows :
    addTargets (RowTables.ofRows rows) row rows.length
      = ⟨(rows ++ [row]).map shapeOf, flatOf (rows ++ [row]), byOriginOf rows, byEventOf rows,
          historyTargetsOf (flatOf (rows ++ [row])), targetsOf (flatOf (rows ++ [row])),
          startRowsOf rows⟩ := by
  rw [flatOf_concat, List.map_append]
  exact foldl_addFlat { RowTables.ofRows rows with shapes := rows.map shapeOf ++ [shapeOf row] }
    (flatOf rows) _

/-- Adding a row to the tables of the rows before it makes the tables of them all. -/
theorem addRow_ofRows :
    addRow ⟨RowTables.ofRows rows, (RowTables.ofRows rows).firstByOrigin⟩ (row, rows.length)
      = ⟨RowTables.ofRows (rows ++ [row]), (RowTables.ofRows (rows ++ [row])).firstByOrigin⟩ := by
  have origins := byOriginOf_concat rows row
  have events := byEventOf_concat rows row
  have starts := startRowsOf_concat rows row
  rw [addRow, addTargets_ofRows, fileRow]
  by_cases fromRoot : row.origin = rootName
  · rw [if_pos fromRoot] at origins events
    rw [Transition.isStart_of_root fromRoot] at starts
    simp only [fromRoot, if_true, RowTables.ofRows, firstByOrigin, origins, events]
    by_cases isInit : row.eventKey = initEvent
    · simp only [isInit, if_true, starts, decide_true]
    · simp only [isInit, if_false, starts, decide_false, Bool.false_eq_true]
  · rw [if_neg fromRoot] at origins events
    have unstarting : row.isStart = false := by
      rw [Transition.isStart, decide_eq_false fromRoot, Bool.false_and]
    rw [unstarting, if_neg Bool.false_ne_true] at starts
    have filled : (byOriginOf rows).findNested? row.origin row.eventKey ≠ some [] :=
      fun none => ((findNested?_byOrigin_iff rows row.origin row.eventKey []).mp none).1 rfl
    have first := firstByOrigin_pushNested _ _ _ rows.length filled
    simp only [fromRoot, if_false, RowTables.ofRows, firstByOrigin, origins, events, starts, first]

/-- One pass over the rows comes to their tables. -/
theorem ofRows_eq :
    ofRows rows = ⟨RowTables.ofRows rows, (RowTables.ofRows rows).firstByOrigin⟩ := by
  induction rows using List.reverseRecOn with
  | nil => rfl
  | append_singleton rows row ih =>
    rw [← addRow_ofRows, ← ih, ofRows, List.zipIdx_append, List.foldl_append, Nat.zero_add]
    rfl

end TablePass

end Statechart
