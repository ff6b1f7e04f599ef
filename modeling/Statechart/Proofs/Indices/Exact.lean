import Mathlib.Data.List.Sort
import Statechart.Indices.Exact
import Statechart.Proofs.Indices.Rows

set_option autoImplicit false

namespace Statechart

theorem Ascending.unique {first second : List Nat} {chosen : Nat → Prop}
    (one : Ascending first chosen) (other : Ascending second chosen) : first = second := by
  apply one.ordered.eq_of_mem_iff other.ordered
  intro position
  rw [one.mem_iff, other.mem_iff]

theorem ascending_filter_zipIdx {α : Type} (items : List α) (kept : α → Bool) :
    Ascending ((items.zipIdx.filter (fun item => kept item.1)).map Prod.snd)
      (fun position => ∃ item, items[position]? = some item ∧ kept item = true) := by
  constructor
  · exact List.pairwise_map.mpr ((pairwise_zipIdx items).filter _)
  · intro position
    rw [List.mem_map]
    constructor
    · rintro ⟨item, member, rfl⟩
      obtain ⟨listed, isKept⟩ := List.mem_filter.mp member
      exact ⟨item.1, List.mem_zipIdx_iff_getElem?.mp listed, isKept⟩
    · rintro ⟨item, found, isKept⟩
      exact ⟨(item, position), List.mem_filter.mpr ⟨List.mem_zipIdx_iff_getElem?.mpr found, isKept⟩,
        rfl⟩

theorem Ascending.congr {positions : List Nat} {chosen other : Nat → Prop}
    (ascending : Ascending positions chosen)
    (same : ∀ position, chosen position ↔ other position) : Ascending positions other :=
  ⟨ascending.ordered, fun position => (ascending.mem_iff position).trans (same position)⟩

/-- What is filed if it is not empty is known by what it has in ascending order. -/
theorem Ascending.filed_iff {positions : List Nat} {chosen : Nat → Prop}
    (ascending : Ascending positions chosen)
    (listed : List Nat) : listed ≠ [] ∧ positions = listed ↔
    listed ≠ [] ∧ Ascending listed chosen :=
  and_congr_right (fun _ => ⟨fun same => same ▸ ascending, fun other => ascending.unique other⟩)

namespace Table

variable {β : Type}

theorem find?_group_iff (items : List (String × β)) (name : String) (values : List β) :
    (group items).find? name = some values ↔
      values ≠ [] ∧ (items.filter (fun item => item.1 = name)).map Prod.snd = values := by
  rw [find?_group]
  constructor
  · intro found
    split at found
    · rename_i listed
      obtain ⟨item, member, named⟩ := List.any_eq_true.mp listed
      cases found
      refine ⟨?_, rfl⟩
      exact List.ne_nil_of_mem (List.mem_map_of_mem (List.mem_filter.mpr ⟨member, named⟩))
    · cases found
  · rintro ⟨nonempty, rfl⟩
    rw [if_pos]
    obtain ⟨value, member⟩ := List.exists_mem_of_ne_nil _ nonempty
    obtain ⟨item, kept, _⟩ := List.mem_map.mp member
    exact List.any_eq_true.mpr ⟨item, List.mem_filter.mp kept⟩

theorem findNested?_eq_some_iff (table : Table (Table β)) (outer inner : String) (value : β) :
    table.findNested? outer inner = some value ↔
      ∃ nested, table.find? outer = some nested ∧ nested.find? inner = some value :=
  Option.bind_eq_some_iff

/-- A table grouped twice has the values listed under both names. -/
theorem findNested?_group_iff (items : List (String × String × β)) (outer inner : String)
    (values : List β) : ((group items).map group).findNested? outer inner = some values ↔
      values ≠ [] ∧ (items.filter (fun item => item.1 = outer ∧ item.2.1 = inner)).map
        (fun item => item.2.2) = values := by
  have both : ((items.filter (fun item => item.1 = outer)).map Prod.snd).filter
      (fun item => item.1 = inner)
      = (items.filter (fun item => item.1 = outer ∧ item.2.1 = inner)).map Prod.snd := by
    rw [List.filter_map, List.filter_filter]
    congr 1
    apply List.filter_congr
    intro item _
    simp [Bool.and_comm]
  simp only [findNested?_eq_some_iff, find?_map, Option.map_eq_some_iff, find?_group_iff]
  constructor
  · rintro ⟨_, ⟨grouped, ⟨_, rfl⟩, rfl⟩, found⟩
    rwa [find?_group_iff, both, List.map_map] at found
  · rintro ⟨nonempty, listed⟩
    refine ⟨_, ⟨_, ⟨?_, rfl⟩, rfl⟩, ?_⟩
    · intro none
      rw [none, List.filter_nil] at both
      have unlisted := congrArg (List.map Prod.snd) both
      rw [List.map_map] at unlisted
      exact nonempty (listed.symm.trans unlisted.symm)
    · rw [find?_group_iff, both, List.map_map]
      exact ⟨nonempty, listed⟩

theorem exists_of_find?_map_group {items : List (String × String × β)} {outer : String}
    {nested : Table (List β)} (found : ((group items).map group).find? outer = some nested) :
    ∃ inner values, nested.find? inner = some values := by
  rw [find?_map] at found
  obtain ⟨grouped, isGroup, rfl⟩ := Option.map_eq_some_iff.mp found
  obtain ⟨item, member⟩ := List.exists_mem_of_ne_nil grouped ((find?_group_iff _ _ _).mp isGroup).1
  obtain ⟨values, kept, _⟩ := exists_find?_group member
  exact ⟨item.1, values, kept⟩

end Table

namespace RowTables

variable {M : Model} (rows : List (Transition M))

theorem isStart_iff (row : Transition M) :
    row.isStart = true ↔ row.origin = rootName ∧ row.event = some initEvent := by
  rw [Transition.isStart, Bool.and_eq_true, decide_eq_true_eq, decide_eq_true_eq]

/-- The rows of an origin on an event, unless they are the root's. -/
theorem ascending_filed (origin key : String) :
    Ascending (((filed rows).filter (fun item => item.1 = origin ∧ item.2.1 = key)).map
      (fun item => item.2.2))
      (fun position => origin ≠ rootName ∧ Leaves rows origin key position) := by
  have kept := ascending_filter_zipIdx rows
    (fun row => decide (row.origin ≠ rootName) && decide (row.origin = origin ∧ row.eventKey = key))
  have same : ((filed rows).filter (fun item => item.1 = origin ∧ item.2.1 = key)).map
      (fun item => item.2.2) = (rows.zipIdx.filter (fun item => decide (item.1.origin ≠ rootName) &&
          decide (item.1.origin = origin ∧ item.1.eventKey = key))).map Prod.snd := by
    rw [filed, List.filter_map, List.map_map, List.filter_filter]
    congr 1
    apply List.filter_congr
    intro item _
    simp [Bool.and_comm]
  rw [same]
  apply kept.congr
  intro position
  simp only [Bool.and_eq_true, decide_eq_true_eq, Leaves]
  constructor
  · rintro ⟨row, found, notRoot, rfl, rfl⟩
    exact ⟨notRoot, row, found, rfl, rfl⟩
  · rintro ⟨notRoot, row, found, rfl, rfl⟩
    exact ⟨row, found, notRoot, rfl, rfl⟩

theorem findNested?_byOrigin_iff (origin key : String) (listed : List Nat) :
    (ofRows rows).byOrigin.findNested? origin key = some listed ↔
      listed ≠ [] ∧ Ascending listed
        (fun position => origin ≠ rootName ∧ Leaves rows origin key position) := by
  rw [← (ascending_filed rows origin key).filed_iff]
  show (byOriginOf rows).findNested? origin key = some listed ↔ _
  rw [byOriginOf, Table.findNested?_group_iff, List.map_id']

theorem findNested?_byEvent (origin key : String) :
    (ofRows rows).byEvent.findNested? key origin =
      (ofRows rows).byOrigin.findNested? origin key := by
  apply Option.ext
  intro listed
  rw [findNested?_byOrigin_iff, ← (ascending_filed rows origin key).filed_iff]
  show (byEventOf rows).findNested? key origin = some listed ↔ _
  rw [byEventOf, Table.findNested?_group_iff, List.filter_map, List.map_map]
  simp only [Function.comp_def, and_comm]

theorem findNested?_firstByOrigin (tables : RowTables) (origin key : String) :
    tables.firstByOrigin.findNested? origin key
      = (tables.byOrigin.findNested? origin key).map (fun listed => listed.headD 0) := by
  rw [firstByOrigin, Table.findNested?, Table.findNested?, Table.find?_map]
  cases tables.byOrigin.find? origin with
  | none => rfl
  | some events => exact Table.find?_map events _ key

/-- What is looked up is the first row kept, since none is kept where there is none. -/
theorem ownHandler_eq_findNested? (origin key : String) :
    (ofRows rows).ownHandler origin key = (ofRows rows).firstByOrigin.findNested? origin key := by
  rw [findNested?_firstByOrigin, ownHandler, rowsOn, ← Table.findNested?]
  cases kept : (ofRows rows).byOrigin.findNested? origin key with
  | none => rfl
  | some listed =>
    obtain ⟨first, rest, rfl⟩ :=
      List.exists_cons_of_ne_nil ((findNested?_byOrigin_iff rows origin key listed).mp kept).1
    rfl

theorem find?_byOrigin_root : (ofRows rows).byOrigin.find? rootName = none := by
  cases found : (ofRows rows).byOrigin.find? rootName with
  | none => rfl
  | some events =>
    obtain ⟨key, listed, kept⟩ := Table.exists_of_find?_map_group found
    have nested := (Table.findNested?_eq_some_iff _ _ _ _).mpr ⟨events, found, kept⟩
    obtain ⟨nonempty, ascending⟩ := (findNested?_byOrigin_iff rows rootName key listed).mp nested
    obtain ⟨position, member⟩ := List.exists_mem_of_ne_nil listed nonempty
    exact absurd rfl ((ascending.mem_iff position).mp member).1

theorem flatOf_pairwise : (flatOf rows).Pairwise FlatBefore := by
  rw [flatOf, List.pairwise_flatMap]
  constructor
  · intro item _
    rw [flatten, List.pairwise_map]
    exact (pairwise_zipIdx item.1.targets).imp (fun smaller => Or.inr ⟨rfl, smaller⟩)
  · apply (pairwise_zipIdx rows).imp
    intro first second smaller entry inFirst other inSecond
    obtain ⟨_, _, rfl⟩ := List.mem_map.mp inFirst
    obtain ⟨_, _, rfl⟩ := List.mem_map.mp inSecond
    exact Or.inl smaller

theorem ascending_startRows :
    Ascending (ofRows rows).startRows (fun position =>
      ∃ row, rows[position]? = some row ∧ row.origin = rootName ∧ row.event = some initEvent) := by
  apply (ascending_filter_zipIdx rows Transition.isStart).congr
  intro position
  simp only [isStart_iff]

theorem ascending_targets (flats : List FlatTransition) (state : String) :
    Ascending (((flats.zipIdx.map (fun item => (item.1.target.stateName, item.2))).filter
        (fun item => item.1 = state)).map Prod.snd)
      (fun index => ∃ entry, flats[index]? = some entry ∧ entry.target.stateName = state) := by
  have kept := ascending_filter_zipIdx flats (fun entry => decide (entry.target.stateName = state))
  simp only [decide_eq_true_eq] at kept
  rw [List.filter_map, List.map_map]
  exact kept

theorem ascending_historyTargets (flats : List FlatTransition) (state : String) :
    Ascending ((((flats.zipIdx.filter (fun item => item.1.target.isHistory)).map
        (fun item => (item.1.target.stateName, item.2))).filter (fun item =>
          item.1 = state)).map Prod.snd)
      (fun index => ∃ entry, flats[index]? = some entry ∧ entry.target.isHistory = true ∧
        entry.target.stateName = state) := by
  have kept := ascending_filter_zipIdx flats
    (fun entry => decide (entry.target.stateName = state) && entry.target.isHistory)
  simp only [Bool.and_eq_true, decide_eq_true_eq] at kept
  rw [List.filter_map, List.map_map, List.filter_filter]
  apply kept.congr
  intro index
  simp only [and_comm]

theorem find?_targets_iff (state : String) (listed : List Nat) :
    (ofRows rows).targets.find? state = some listed ↔
    listed ≠ [] ∧ Ascending listed ((ofRows rows).Names state) :=
  (Table.find?_group_iff _ state listed).trans
    ((ascending_targets (flatOf rows) state).filed_iff listed)

theorem find?_historyTargets_iff (state : String) (listed : List Nat) :
    (ofRows rows).historyTargets.find? state = some listed ↔
      listed ≠ [] ∧ Ascending listed ((ofRows rows).NamesHistory state) :=
  (Table.find?_group_iff _ state listed).trans
    ((ascending_historyTargets (flatOf rows) state).filed_iff listed)

theorem historyTargets_eq_filter (state : String) :
    ((ofRows rows).historyTargets.find? state).getD []
      = (((ofRows rows).targets.find? state).getD []).filter
          (fun index => (ofRows rows).flat[index]?.any (fun entry => entry.target.isHistory)) := by
  have histories : ((ofRows rows).historyTargets.find? state).getD [] = _ :=
    Table.getD_find?_group _ state
  have all : ((ofRows rows).targets.find? state).getD [] = _ := Table.getD_find?_group _ state
  rw [histories, all]
  apply (ascending_historyTargets (flatOf rows) state).unique
  have named := ascending_targets (flatOf rows) state
  refine ⟨named.ordered.filter _, ?_⟩
  intro index
  rw [List.mem_filter, named.mem_iff]
  show (_ ∧ (flatOf rows)[index]?.any _ = true) ↔ _
  constructor
  · rintro ⟨⟨entry, found, names⟩, history⟩
    rw [found] at history
    exact ⟨entry, found, history, names⟩
  · rintro ⟨entry, found, history, names⟩
    refine ⟨⟨entry, found, names⟩, ?_⟩
    rw [found]
    exact history

/-- Every flat position is filed under the state its target names, and there only. -/
theorem exists_unique_target {index : Nat} (inRange : index < (ofRows rows).flat.length) :
    ∃ state listed, (ofRows rows).targets.find? state = some listed ∧ index ∈ listed ∧
      ∀ other others, (ofRows rows).targets.find? other = some others → index ∈ others →
      other = state := by
  have found : (ofRows rows).flat[index]? = some (ofRows rows).flat[index] :=
    List.getElem?_eq_getElem inRange
  have item : ((ofRows rows).flat[index].target.stateName, index) ∈
      (ofRows rows).flat.zipIdx.map (fun item => (item.1.target.stateName, item.2)) :=
    List.mem_map.mpr ⟨((ofRows rows).flat[index], index),
      List.mem_zipIdx_iff_getElem?.mpr found, rfl⟩
  obtain ⟨listed, kept, member⟩ := Table.exists_find?_group item
  refine ⟨_, listed, kept, member, ?_⟩
  intro other others otherKept otherMember
  obtain ⟨_, ascending⟩ := (find?_targets_iff rows other others).mp otherKept
  obtain ⟨entry, otherFound, names⟩ := (ascending.mem_iff index).mp otherMember
  cases found.symm.trans otherFound
  exact names.symm

theorem exact_ofRows : (ofRows rows).Exact rows where
  shapes _ := List.getElem?_map
  flatOrder := flatOf_pairwise rows
  flat entry := by
    show entry ∈ flatOf rows ↔ _
    rw [mem_flatOf_iff]
    constructor
    · rintro ⟨index, row, position, guarded, found, placed, rfl⟩
      exact ⟨row, guarded, found, placed, rfl⟩
    · rintro ⟨row, guarded, found, placed, same⟩
      exact ⟨entry.row, row, entry.position, guarded, found, placed, same⟩
  byOrigin origin notRoot key listed := by
    rw [findNested?_byOrigin_iff]
    simp only [ne_eq, notRoot, not_false_eq_true, true_and]
  first origin key position := by
    rw [findNested?_firstByOrigin, Option.map_eq_some_iff]
    constructor
    · rintro ⟨listed, kept, rfl⟩
      obtain ⟨first, rest, rfl⟩ :=
        List.exists_cons_of_ne_nil ((findNested?_byOrigin_iff rows origin key listed).mp kept).1
      exact ⟨rest, kept⟩
    · rintro ⟨rest, kept⟩
      exact ⟨_, kept, rfl⟩
  lookup := ownHandler_eq_findNested? rows
  byEvent := findNested?_byEvent rows
  originFilled _ _ := Table.exists_of_find?_map_group
  firstFilled origin events found := by
    rw [firstByOrigin, Table.find?_map] at found
    obtain ⟨nested, kept, rfl⟩ := Option.map_eq_some_iff.mp found
    obtain ⟨key, listed, inner⟩ := Table.exists_of_find?_map_group kept
    exact ⟨key, _, by rw [Table.find?_map, inner, Option.map_some]⟩
  eventFilled _ _ := Table.exists_of_find?_map_group
  notFromRoot := by
    have root := find?_byOrigin_root rows
    refine ⟨root, ?_, ?_⟩
    · rw [firstByOrigin, Table.find?_map, root, Option.map_none]
    · intro key
      rw [findNested?_byEvent, Table.findNested?, root, Option.bind_none]
  starts := ascending_startRows rows
  targets := find?_targets_iff rows
  partition _ := exists_unique_target rows
  historyTargets := find?_historyTargets_iff rows
  restricted := historyTargets_eq_filter rows

theorem Exact.inRange {rows : List (Transition M)} {tables : RowTables}
    (exact : tables.Exact rows) : tables.InRange rows.length := by
  have row_lt {position : Nat} {row : Transition M} (found : rows[position]? = some row) :
      position < rows.length :=
    (List.getElem?_eq_some_iff.mp found).1
  have byOrigin : ∀ origin key listed, tables.byOrigin.findNested? origin key = some listed →
      ∀ row ∈ listed, row < rows.length := by
    intro origin key listed kept row member
    have notRoot : origin ≠ rootName := by
      rintro rfl
      rw [Table.findNested?, exact.notFromRoot.1] at kept
      cases kept
    obtain ⟨_, found, _⟩ :=
      (((exact.byOrigin origin notRoot key listed).mp kept).2.mem_iff row).mp member
    exact row_lt found
  refine ⟨?_, ?_, byOrigin, ?_, ?_, ?_, ?_, ?_⟩
  · have lists : tables.shapes = rows.map shapeOf := by
      apply List.ext_getElem?
      intro position
      rw [exact.shapes, List.getElem?_map]
    rw [lists, List.length_map]
  · intro entry listed
    obtain ⟨_, _, found, _⟩ := (exact.flat entry).mp listed
    exact row_lt found
  · intro origin key row kept
    obtain ⟨rest, all⟩ := (exact.first origin key row).mp kept
    exact byOrigin origin key _ all row List.mem_cons_self
  · intro key origin listed kept
    rw [exact.byEvent] at kept
    exact byOrigin origin key listed kept
  · intro row member
    obtain ⟨_, found, _⟩ := (exact.starts.mem_iff row).mp member
    exact row_lt found
  · intro state listed kept index member
    obtain ⟨_, found, _⟩ := (((exact.targets state listed).mp kept).2.mem_iff index).mp member
    exact (List.getElem?_eq_some_iff.mp found).1
  · intro state listed kept index member
    obtain ⟨_, found, _⟩ :=
      (((exact.historyTargets state listed).mp kept).2.mem_iff index).mp member
    exact (List.getElem?_eq_some_iff.mp found).1

end RowTables

end Statechart
