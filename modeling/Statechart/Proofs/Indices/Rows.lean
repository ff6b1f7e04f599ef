import Statechart.Indices.Indices
import Statechart.Proofs.Table

set_option autoImplicit false

namespace Statechart

theorem Table.getD_find?_group {β : Type} (listed : List (String × β)) (name : String) :
    ((Table.group listed).find? name).getD [] =
      (listed.filter (fun item => item.1 = name)).map Prod.snd := by
  rw [Table.find?_group]
  by_cases some : listed.any (fun item => item.1 = name)
  · rw [if_pos some]
    rfl
  · rw [if_neg some, List.filter_eq_nil_iff.mpr]
    · rfl
    · intro item member same
      exact some (List.any_eq_true.mpr ⟨item, member, same⟩)

theorem Table.exists_find?_group {β : Type} {listed : List (String × β)} {item : String × β}
    (member : item ∈ listed) :
    ∃ values, (Table.group listed).find? item.1 = some values ∧ item.2 ∈ values := by
  have listedUnder : listed.any (fun other => other.1 = item.1) = true :=
    List.any_eq_true.mpr ⟨item, member, decide_eq_true rfl⟩
  refine ⟨_, by rw [Table.find?_group, if_pos listedUnder], ?_⟩
  exact List.mem_map.mpr ⟨item, List.mem_filter.mpr ⟨member, decide_eq_true rfl⟩, rfl⟩

theorem Table.exists_of_find?_group {β : Type} {listed : List (String × β)} {name : String}
    {values : List β}
    (found : (Table.group listed).find? name = some values) : ∃ item ∈ listed, item.1 = name := by
  rw [Table.find?_group] at found
  by_cases some : listed.any (fun item => item.1 = name)
  · obtain ⟨item, member, same⟩ := List.any_eq_true.mp some
    exact ⟨item, member, of_decide_eq_true same⟩
  · rw [if_neg some] at found
    cases found

theorem Table.mem_keys_group {β : Type} (listed : List (String × β)) (name : String) :
    name ∈ (group listed).keys ↔ ∃ value, (name, value) ∈ listed := by
  rw [mem_keys_iff]
  constructor
  · rintro ⟨values, found⟩
    obtain ⟨item, member, rfl⟩ := exists_of_find?_group found
    exact ⟨item.2, member⟩
  · rintro ⟨value, member⟩
    obtain ⟨values, found, _⟩ := exists_find?_group member
    exact ⟨values, found⟩

/-- In a table grouped twice a name stands under another exactly if they are listed together. -/
theorem Table.exists_key_of_nested {β : Type} (listed : List (String × String × β))
    (outer inner : String) :
    (∃ table, ((group listed).map group).find? outer = some table ∧ inner ∈ table.keys) ↔
      ∃ value, (outer, inner, value) ∈ listed := by
  rw [find?_map]
  constructor
  · rintro ⟨table, found, member⟩
    obtain ⟨items, grouped, rfl⟩ := Option.map_eq_some_iff.mp found
    obtain ⟨value, inItems⟩ := (mem_keys_group items inner).mp member
    have listedItems : items = (listed.filter (fun item => item.1 = outer)).map Prod.snd := by
      rw [← getD_find?_group, grouped, Option.getD_some]
    rw [listedItems] at inItems
    obtain ⟨item, kept, same⟩ := List.mem_map.mp inItems
    obtain ⟨isListed, under⟩ := List.mem_filter.mp kept
    obtain ⟨name, rest⟩ := item
    cases same
    exact ⟨value, of_decide_eq_true under ▸ isListed⟩
  · rintro ⟨value, member⟩
    obtain ⟨items, grouped, inItems⟩ := exists_find?_group member
    exact ⟨group items, by rw [grouped]; rfl, (mem_keys_group items inner).mpr ⟨value, inItems⟩⟩

namespace RowTables

variable {M : Model}

theorem find?_of_mem_rowsOn {tables : RowTables} {origin event : String} {row : Nat}
    (member : row ∈ tables.rowsOn origin event) :
    ∃ events, tables.byOrigin.find? origin = some events ∧
    events.find? event = some (tables.rowsOn origin event) := by
  unfold rowsOn at member ⊢
  cases outer : tables.byOrigin.find? origin with
  | none =>
    rw [outer] at member
    cases member
  | some events =>
    refine ⟨events, rfl, ?_⟩
    rw [outer] at member
    cases inner : events.find? event with
    | none =>
      simp only [Option.bind_some, inner] at member
      cases member
    | some rows => simp only [Option.bind_some, inner, Option.getD_some]

theorem rowsOn_ofRows (rows : List (Transition M)) (origin event : String) :
    (ofRows rows).rowsOn origin event
      = ((rows.zipIdx.filter (fun item => item.1.origin ≠ rootName)).filter
          (fun item => item.1.origin = origin ∧ item.1.eventKey = event)).map Prod.snd := by
  have nested : (ofRows rows).rowsOn origin event
      = ((((filed rows).filter (fun item => item.1 = origin)).map Prod.snd).filter
          (fun item => item.1 = event)).map Prod.snd := by
    rw [← Table.getD_find?_group, ← Table.getD_find?_group (filed rows)]
    show (((byOriginOf rows).find? origin).bind _).getD [] = _
    rw [byOriginOf, Table.find?_map, List.map_id']
    cases (Table.group (filed rows)).find? origin <;> rfl
  rw [nested, filed]
  simp only [List.filter_map, List.map_map, List.filter_filter]
  congr 1
  refine List.filter_congr (fun item _ => ?_)
  simp [Bool.and_comm, Bool.and_left_comm, Bool.and_assoc]

theorem mem_rowsOn_iff (rows : List (Transition M)) (origin event : String) (position : Nat) :
    position ∈ (ofRows rows).rowsOn origin event ↔
      ∃ row, rows[position]? = some row ∧ row.origin ≠ rootName ∧ row.origin = origin ∧
      row.eventKey = event := by
  rw [rowsOn_ofRows, List.mem_map]
  constructor
  · rintro ⟨item, member, rfl⟩
    obtain ⟨inner, named⟩ := List.mem_filter.mp member
    obtain ⟨listed, filedRow⟩ := List.mem_filter.mp inner
    exact ⟨item.1, List.mem_zipIdx_iff_getElem?.mp listed, of_decide_eq_true filedRow,
      of_decide_eq_true named⟩
  · rintro ⟨row, found, notRoot, named⟩
    refine ⟨(row, position), ?_, rfl⟩
    exact List.mem_filter.mpr
      ⟨List.mem_filter.mpr ⟨List.mem_zipIdx_iff_getElem?.mpr found, decide_eq_true notRoot⟩,
      decide_eq_true named⟩

theorem mem_startRows_iff (rows : List (Transition M)) (position : Nat) :
    position ∈ (ofRows rows).startRows ↔
    ∃ row, rows[position]? = some row ∧ row.isStart = true := by
  show position ∈ startRowsOf rows ↔ _
  rw [startRowsOf, List.mem_map]
  constructor
  · rintro ⟨item, member, rfl⟩
    obtain ⟨listed, starts⟩ := List.mem_filter.mp member
    exact ⟨item.1, List.mem_zipIdx_iff_getElem?.mp listed, starts⟩
  · rintro ⟨row, found, starts⟩
    exact ⟨(row, position), List.mem_filter.mpr ⟨List.mem_zipIdx_iff_getElem?.mpr found, starts⟩,
      rfl⟩

theorem ownHandler_eq_some {rows : List (Transition M)} {origin event : String} {position : Nat}
    (own : (ofRows rows).ownHandler origin event = some position) :
    ∃ row, rows[position]? = some row ∧ row.origin ≠ rootName ∧ row.origin = origin ∧
    row.eventKey = event :=
  (mem_rowsOn_iff rows origin event position).mp (List.mem_of_head? own)

theorem ownHandler_isSome {rows : List (Transition M)} {row : Transition M} (listed : row ∈ rows)
    (notRoot : row.origin ≠ rootName) :
    ((ofRows rows).ownHandler row.origin row.eventKey).isSome = true := by
  obtain ⟨position, found⟩ := List.mem_iff_getElem?.mp listed
  have member := (mem_rowsOn_iff rows row.origin row.eventKey position).mpr
    ⟨row, found, notRoot, rfl, rfl⟩
  rw [ownHandler, List.isSome_head?]
  exact List.ne_nil_of_mem member

theorem mem_filed_iff (rows : List (Transition M)) (origin event : String) (position : Nat) :
    (origin, event, position) ∈ filed rows ↔
      ∃ row, rows[position]? = some row ∧ row.origin ≠ rootName ∧
      row.origin = origin ∧ row.eventKey = event := by
  rw [filed, List.mem_map]
  constructor
  · rintro ⟨item, kept, same⟩
    obtain ⟨listed, notRoot⟩ := List.mem_filter.mp kept
    cases same
    exact ⟨item.1, List.mem_zipIdx_iff_getElem?.mp listed, of_decide_eq_true notRoot, rfl, rfl⟩
  · rintro ⟨row, found, notRoot, rfl, rfl⟩
    exact ⟨(row, position), List.mem_filter.mpr
      ⟨List.mem_zipIdx_iff_getElem?.mpr found, decide_eq_true notRoot⟩, rfl⟩

theorem byOrigin_key_iff (rows : List (Transition M)) (origin event : String) :
    (∃ events, (ofRows rows).byOrigin.find? origin = some events ∧ event ∈ events.keys) ↔
      ∃ row ∈ rows, row.origin ≠ rootName ∧ row.origin = origin ∧ row.eventKey = event := by
  show (∃ events, (byOriginOf rows).find? origin = some events ∧ event ∈ events.keys) ↔ _
  rw [byOriginOf, Table.exists_key_of_nested]
  simp only [List.map_id', mem_filed_iff]
  constructor
  · rintro ⟨position, row, found, rest⟩
    exact ⟨row, List.mem_of_getElem? found, rest⟩
  · rintro ⟨row, listed, rest⟩
    obtain ⟨position, found⟩ := List.mem_iff_getElem?.mp listed
    exact ⟨position, row, found, rest⟩

theorem byEvent_key_iff (rows : List (Transition M)) (event origin : String) :
    (∃ origins, (ofRows rows).byEvent.find? event = some origins ∧ origin ∈ origins.keys) ↔
      ∃ row ∈ rows, row.origin ≠ rootName ∧ row.origin = origin ∧ row.eventKey = event := by
  show (∃ origins, (byEventOf rows).find? event = some origins ∧ origin ∈ origins.keys) ↔ _
  rw [byEventOf, Table.exists_key_of_nested]
  simp only [List.mem_map, Prod.mk.injEq, Prod.exists]
  constructor
  · rintro ⟨position, listedOrigin, listedEvent, place, listed, rfl, rfl, rfl⟩
    obtain ⟨row, found, rest⟩ := (mem_filed_iff rows _ _ _).mp listed
    exact ⟨row, List.mem_of_getElem? found, rest⟩
  · rintro ⟨row, listed, rest⟩
    obtain ⟨position, found⟩ := List.mem_iff_getElem?.mp listed
    exact ⟨position, origin, event, position, (mem_filed_iff rows _ _ _).mpr ⟨row, found, rest⟩,
      rfl, rfl, rfl⟩

/-- No two rows are filed under the same origin and event. -/
theorem rowsOn_length_le_one_iff (rows : List (Transition M)) :
    (∀ origin event, ((ofRows rows).rowsOn origin event).length ≤ 1) ↔
      rows.Pairwise (fun row other => row.origin ≠ rootName →
        ¬ (row.origin = other.origin ∧ row.eventKey = other.eventKey)) := by
  constructor
  · intro short
    rw [List.pairwise_iff_getElem]
    intro position place inRange placeInRange before notRoot same
    have filed := (mem_rowsOn_iff rows _ _ position).mpr
      ⟨rows[position], List.getElem?_eq_getElem inRange, notRoot, rfl, rfl⟩
    have otherFiled := (mem_rowsOn_iff rows _ _ place).mpr
      ⟨rows[place], List.getElem?_eq_getElem placeInRange, same.1 ▸ notRoot, same.1.symm,
        same.2.symm⟩
    have alone := short rows[position].origin rows[position].eventKey
    match listed : (ofRows rows).rowsOn rows[position].origin rows[position].eventKey with
    | [] =>
      rw [listed] at filed
      cases filed
    | [single] =>
      rw [listed] at filed otherFiled
      cases List.mem_singleton.mp filed
      cases List.mem_singleton.mp otherFiled
      exact Nat.lt_irrefl _ before
    | _ :: _ :: _ =>
      rw [listed] at alone
      simp at alone
  · intro apart origin event
    have different : ((ofRows rows).rowsOn origin event).Nodup := by
      rw [rowsOn_ofRows, List.filter_filter]
      exact (List.nodup_range' (s := 0) (n := rows.length)).sublist
        (List.zipIdx_map_snd 0 rows ▸ (List.filter_sublist).map Prod.snd)
    match listed : (ofRows rows).rowsOn origin event with
    | [] => exact Nat.zero_le 1
    | [_] => exact Nat.le_refl 1
    | position :: place :: rest =>
      have first : position ∈ (ofRows rows).rowsOn origin event := by
        rw [listed]
        exact List.mem_cons_self
      have second : place ∈ (ofRows rows).rowsOn origin event := by
        rw [listed]
        exact List.mem_cons_of_mem _ List.mem_cons_self
      obtain ⟨row, found, notRoot, rfl, rfl⟩ := (mem_rowsOn_iff rows origin event position).mp first
      obtain ⟨other, otherFound, otherNotRoot, origins, events⟩ :=
        (mem_rowsOn_iff rows _ _ place).mp second
      rw [listed] at different
      have distinct : position ≠ place := fun same =>
        (List.nodup_cons.mp different).1 (same ▸ List.mem_cons_self)
      obtain ⟨inRange, rfl⟩ := List.getElem?_eq_some_iff.mp found
      obtain ⟨placeInRange, rfl⟩ := List.getElem?_eq_some_iff.mp otherFound
      rw [List.pairwise_iff_getElem] at apart
      rcases Nat.lt_or_gt_of_ne distinct with before | after
      · exact absurd ⟨origins.symm, events.symm⟩
          (apart position place inRange placeInRange before notRoot)
      · exact absurd ⟨origins, events⟩
          (apart place position placeInRange inRange after otherNotRoot)

theorem mem_flatOf_iff (rows : List (Transition M)) (flat : FlatTransition) :
    flat ∈ flatOf rows ↔
      ∃ (index : Nat) (row : Transition M) (position : Nat) (guarded : GuardedTarget M),
      rows[index]? = some row ∧ row.targets[position]? = some guarded ∧
        flat = ⟨index, position, row.origin, row.event, guarded.guard.map Guard.name,
          guarded.target, guarded.action.name⟩ := by
  rw [flatOf, List.mem_flatMap]
  constructor
  · rintro ⟨item, listed, member⟩
    obtain ⟨place, inRow, rfl⟩ := List.mem_map.mp member
    exact ⟨item.2, item.1, place.2, place.1, List.mem_zipIdx_iff_getElem?.mp listed,
      List.mem_zipIdx_iff_getElem?.mp inRow, rfl⟩
  · rintro ⟨index, row, position, guarded, found, inRow, rfl⟩
    refine ⟨(row, index), List.mem_zipIdx_iff_getElem?.mpr found, ?_⟩
    exact List.mem_map.mpr ⟨(guarded, position), List.mem_zipIdx_iff_getElem?.mpr inRow, rfl⟩

theorem exists_flat {rows : List (Transition M)} {row : Transition M} {guarded : GuardedTarget M}
    (listed : row ∈ rows) (inRow : guarded ∈ row.targets) :
    ∃ flat ∈ flatOf rows, flat.origin = row.origin ∧ flat.event = row.event ∧
    flat.target = guarded.target := by
  obtain ⟨index, found⟩ := List.mem_iff_getElem?.mp listed
  obtain ⟨position, place⟩ := List.mem_iff_getElem?.mp inRow
  exact ⟨_, (mem_flatOf_iff rows _).mpr ⟨index, row, position, guarded, found, place, rfl⟩,
    rfl, rfl, rfl⟩

theorem length_flatOf (rows : List (Transition M)) :
    (flatOf rows).length = (rows.flatMap Transition.targets).length := by
  have positions : ∀ start, ((rows.zipIdx start).flatMap (fun item => flatten item.1 item.2)).length
      = (rows.flatMap Transition.targets).length := by
    induction rows with
    | nil => exact fun _ => rfl
    | cons row rest ih =>
      intro start
      rw [List.zipIdx_cons, List.flatMap_cons, List.flatMap_cons, List.length_append,
        List.length_append, ih, flatten, List.length_map, List.length_zipIdx]
  exact positions 0

/-- Of a row with one target the first flat entry is that of the target. -/
theorem find?_flat_of_single {rows : List (Transition M)} {position : Nat} {row : Transition M}
    {guarded : GuardedTarget M} (listed : rows[position]? = some row)
    (targets : row.targets = [guarded]) :
    ∃ flat, (flatOf rows).find? (fun flat => flat.row = position) = some flat ∧
    flat.target = guarded.target := by
  have placed := (mem_flatOf_iff rows _).mpr
    ⟨position, row, 0, guarded, listed, by rw [targets]; rfl, rfl⟩
  have some_found : ((flatOf rows).find? (fun flat => flat.row = position)).isSome = true :=
    List.find?_isSome.mpr ⟨_, placed, decide_eq_true rfl⟩
  obtain ⟨flat, first⟩ := Option.isSome_iff_exists.mp some_found
  refine ⟨flat, first, ?_⟩
  have sameRow : flat.row = position := by simpa using List.find?_some first
  obtain ⟨index, other, place, target, otherListed, inRow, rfl⟩ :=
    (mem_flatOf_iff rows flat).mp (List.mem_of_find?_eq_some first)
  subst sameRow
  cases listed.symm.trans otherListed
  have inTargets := List.mem_of_getElem? inRow
  rw [targets] at inTargets
  exact congrArg GuardedTarget.target (List.mem_singleton.mp inTargets)

theorem exists_historyTargets {flats : List FlatTransition} {flat : FlatTransition}
    (listed : flat ∈ flats) (history : flat.target.isHistory = true) :
    ∃ positions, (historyTargetsOf flats).find? flat.target.stateName = some positions := by
  obtain ⟨position, found⟩ := List.mem_iff_getElem?.mp listed
  have item : (flat.target.stateName, position) ∈
      (flats.zipIdx.filter (fun item => item.1.target.isHistory)).map
        (fun item => (item.1.target.stateName, item.2)) :=
    List.mem_map.mpr ⟨(flat, position),
      List.mem_filter.mpr ⟨List.mem_zipIdx_iff_getElem?.mpr found, history⟩, rfl⟩
  obtain ⟨positions, filed, _⟩ := Table.exists_find?_group item
  exact ⟨positions, filed⟩

theorem exists_flat_of_historyTargets {flats : List FlatTransition} {state : String}
    {positions : List Nat} (filed : (historyTargetsOf flats).find? state = some positions) :
    ∃ flat ∈ flats, flat.target.isHistory = true ∧ flat.target.stateName = state := by
  obtain ⟨item, member, named⟩ := Table.exists_of_find?_group filed
  obtain ⟨place, kept, rfl⟩ := List.mem_map.mp member
  obtain ⟨listed, history⟩ := List.mem_filter.mp kept
  exact ⟨place.1, List.mem_of_getElem? (List.mem_zipIdx_iff_getElem?.mp listed), history, named⟩

end RowTables

end Statechart
