import Statechart.Machine.Definition
import Statechart.Proofs.Indices.Hierarchy
import Statechart.Proofs.Indices.Rows

set_option autoImplicit false

namespace Statechart

open StateNode

namespace ContractContext

theorem repeats_eq_nil_iff (seen names : List String) :
    repeats seen [] names = [] ↔ names.Nodup ∧ ∀ name ∈ names, name ∉ seen := by
  induction names generalizing seen with
  | nil => simp [repeats]
  | cons name rest ih =>
    rw [repeats]
    by_cases known : name ∈ seen
    · simp [known]
    · rw [if_neg (fun again => known again.1), ih, List.nodup_cons, List.forall_mem_cons]
      constructor
      · rintro ⟨nodup, fresh⟩
        refine ⟨⟨?_, nodup⟩, known, ?_⟩
        · exact fun member => fresh name member List.mem_cons_self
        · exact fun other member => fun earlier =>
            fresh other member (List.mem_cons_of_mem _ earlier)
      · rintro ⟨⟨absent, nodup⟩, _, fresh⟩
        refine ⟨nodup, fun other member earlier => ?_⟩
        rcases List.mem_cons.mp earlier with rfl | before
        · exact absent member
        · exact fresh other member before

theorem uniqueStateNames_eq_nil_iff (context : ContractContext) :
    context.uniqueStateNames = [] ↔ context.names.Nodup := by
  rw [uniqueStateNames, List.map_eq_nil_iff, repeats_eq_nil_iff]
  simp

theorem rootNameNotReused_eq_nil_iff (context : ContractContext) :
    context.rootNameNotReused = [] ↔ rootName ∉ context.names := by
  rw [rootNameNotReused]
  by_cases reused : rootName ∈ context.names <;> simp [reused]

theorem mem_compoundStates_iff (context : ContractContext) (state : String) :
    state ∈ context.compoundStates ↔ context.indices.hierarchy.isCompound state = true ∧
    state ≠ rootName := by
  have compound : context.indices.hierarchy.isCompound state = true ↔
      (state, true) ∈ context.indices.hierarchy.compound.entries := by
    rw [Hierarchy.isCompound, Table.mem_entries_iff]
    cases context.indices.hierarchy.compound.find? state <;> simp
  rw [compoundStates, List.mem_filter, List.mem_map, compound, decide_eq_true_iff]
  refine and_congr_left (fun _ => ⟨?_, ?_⟩)
  · rintro ⟨entry, member, rfl⟩
    obtain ⟨listed, flagged⟩ := List.mem_filter.mp member
    rw [← flagged]
    exact listed
  · exact fun listed => ⟨(state, true), List.mem_filter.mpr ⟨listed, rfl⟩, rfl⟩

end ContractContext

namespace MachineDefinition

variable {M : Model} (definition : MachineDefinition M) (settings : Settings)

theorem forall_rows_iff (holds : RowShape → Prop) :
    (∀ item ∈ (definition.context settings).rows, holds item.1) ↔
      ∀ row ∈ definition.rows, holds (RowTables.shapeOf row) := by
  show (∀ item ∈ (definition.rows.map RowTables.shapeOf).zipIdx, holds item.1) ↔ _
  rw [← List.forall_mem_map (f := Prod.fst), List.zipIdx_map_fst, List.forall_mem_map]

theorem forall_flat_iff (holds : String → Option String → Target → Prop) :
    (∀ flat ∈ (definition.context settings).flat, holds flat.origin flat.event flat.target) ↔
      ∀ row ∈ definition.rows, ∀ guarded ∈ row.targets,
      holds row.origin row.event guarded.target := by
  show (∀ flat ∈ RowTables.flatOf definition.rows, _) ↔ _
  constructor
  · intro all row listed guarded inRow
    obtain ⟨flat, member, origin, event, target⟩ := RowTables.exists_flat listed inRow
    rw [← origin, ← event, ← target]
    exact all flat member
  · intro all flat member
    obtain ⟨index, row, position, guarded, found, inRow, rfl⟩ :=
      (RowTables.mem_flatOf_iff definition.rows flat).mp member
    exact all row (List.mem_of_getElem? found) guarded (List.mem_of_getElem? inRow)

theorem noTransitionToRoot_eq_nil_iff :
    (definition.context settings).noTransitionToRoot = [] ↔
      ∀ row ∈ definition.rows, ∀ guarded ∈ row.targets, guarded.target.stateName ≠ rootName := by
  rw [ContractContext.noTransitionToRoot, List.map_eq_nil_iff, List.filter_eq_nil_iff]
  simp only [decide_eq_true_eq]
  exact forall_flat_iff definition settings (fun _ _ target => target.stateName ≠ rootName)

theorem transitionShape_eq_nil_iff :
    (definition.context settings).transitionShape = [] ↔
      ∀ row ∈ definition.rows, row.targets ≠ [] ∧
        ∀ guarded ∈ row.targets, guarded.guard = none → row.targets = [guarded] := by
  rw [ContractContext.transitionShape, List.filterMap_eq_nil_iff]
  have shapes : ∀ item : RowShape × Nat,
      (if item.1.targets = 0 then some (Finding.noTarget item.1.origin item.1.event item.2)
        else if 0 < item.1.unguarded ∧ 1 < item.1.targets then
          some (.mixedTargets item.1.origin item.1.event item.2 item.1.targets item.1.unguarded)
        else none) = none ↔ item.1.targets ≠ 0 ∧ ¬ (0 < item.1.unguarded ∧ 1 < item.1.targets) := by
    intro item
    by_cases empty : item.1.targets = 0
    · simp [empty]
    · simp [empty]
  simp only [shapes]
  rw [forall_rows_iff definition settings
    (fun shape => shape.targets ≠ 0 ∧ ¬ (0 < shape.unguarded ∧ 1 < shape.targets))]
  refine forall_congr' (fun row => imp_congr_right (fun _ => ?_))
  show row.targets.length ≠ 0 ∧
    ¬ (0 < (row.targets.filter (fun guarded => guarded.guard.isNone)).length ∧
    1 < row.targets.length) ↔ _
  rw [List.length_pos_iff_exists_mem, ne_eq, List.length_eq_zero_iff]
  refine and_congr_right (fun _ => ⟨?_, ?_⟩)
  · intro notMixed guarded member unguarded
    have short : ¬ 1 < row.targets.length := fun long =>
      notMixed ⟨⟨guarded, List.mem_filter.mpr ⟨member, by rw [unguarded]; rfl⟩⟩, long⟩
    have positive := List.length_pos_of_mem member
    obtain ⟨only, single⟩ := List.length_eq_one_iff.mp (show row.targets.length = 1 by omega)
    rw [single] at member ⊢
    rw [List.mem_singleton.mp member]
  · rintro alone ⟨⟨guarded, member⟩, long⟩
    obtain ⟨listed, unguarded⟩ := List.mem_filter.mp member
    rw [alone guarded listed (Option.isNone_iff_eq_none.mp unguarded)] at long
    exact Nat.lt_irrefl 1 long

theorem eventNamesValid_eq_nil_iff :
    (definition.context settings).eventNamesValid = [] ↔
      (∀ event ∈ definition.events, event ≠ "" ∧ event ≠ initEvent) ∧
        ∀ row ∈ definition.rows, row.event ≠ some eventlessKey := by
  rw [ContractContext.eventNamesValid, List.append_eq_nil_iff, List.filterMap_eq_nil_iff,
    List.map_eq_nil_iff, List.filter_eq_nil_iff]
  simp only [decide_eq_true_eq]
  refine and_congr (forall_congr' (fun event => imp_congr_right (fun _ => ?_)))
    (forall_rows_iff definition settings (fun shape => shape.event ≠ some eventlessKey))
  by_cases empty : event = ""
  · simp [empty]
  · simp [empty]

/-- Some row leaves the state of this name, or leads to it or to its history. -/
def Mentions (name : String) : Prop :=
  ∃ row ∈ definition.rows, row.origin = name ∨
    ∃ guarded ∈ row.targets, guarded.target.stateName = name

theorem mem_referencedStates_iff (name : String) :
    name ∈ (definition.context settings).referencedStates ↔
    name ≠ rootName ∧ definition.Mentions name := by
  have origins : name ∈ (definition.context settings).rows.map (fun row => row.1.origin) ↔
      ∃ row ∈ definition.rows, row.origin = name := by
    rw [List.mem_map, ← not_iff_not]
    simp only [not_exists, not_and]
    exact forall_rows_iff definition settings (fun shape => shape.origin ≠ name)
  have targets : name ∈ (definition.context settings).flat.map (fun flat => flat.target.stateName) ↔
      ∃ row ∈ definition.rows, ∃ guarded ∈ row.targets, guarded.target.stateName = name := by
    rw [List.mem_map, ← not_iff_not]
    simp only [not_exists, not_and]
    exact forall_flat_iff definition settings (fun _ _ target => target.stateName ≠ name)
  rw [ContractContext.referencedStates, Table.mem_distinct, List.mem_filter, List.mem_append,
    origins, targets, decide_eq_true_iff, and_comm, Mentions]
  refine and_congr_right (fun _ => ⟨?_, ?_⟩)
  · rintro (⟨row, listed, same⟩ | ⟨row, listed, target⟩)
    · exact ⟨row, listed, Or.inl same⟩
    · exact ⟨row, listed, Or.inr target⟩
  · rintro ⟨row, listed, same | target⟩
    · exact Or.inl ⟨row, listed, same⟩
    · exact Or.inr ⟨row, listed, target⟩

theorem mem_declaredStates_iff (name : String) :
    name ∈ (definition.context settings).declaredStates ↔ Declared definition.states name := by
  rw [ContractContext.declaredStates, Table.mem_distinct]
  exact Hierarchy.mem_names_iff name

theorem statesMatchTransitions_eq_nil_iff :
    (definition.context settings).statesMatchTransitions = [] ↔
      (∀ row ∈ definition.rows, row.origin = rootName → row.event = some initEvent) ∧
        ∀ name, Declared definition.states name ↔ name ≠ rootName ∧ definition.Mentions name := by
  have rootRows := forall_rows_iff definition settings
    (fun shape => ¬ (shape.origin = rootName ∧ shape.event ≠ some initEvent))
  simp only [ContractContext.statesMatchTransitions, List.append_eq_nil_iff, List.map_eq_nil_iff,
    List.filter_eq_nil_iff, decide_eq_true_eq, Decidable.not_not]
  simp only [mem_declaredStates_iff, mem_referencedStates_iff]
  rw [and_assoc]
  refine and_congr ?_ ⟨?_, ?_⟩
  · rw [rootRows]
    simp only [not_and, ne_eq, Decidable.not_not]
    rfl
  · exact fun both name => ⟨both.1 name, both.2 name⟩
  · exact fun both => ⟨fun name => (both name).mp, fun name => (both name).mpr⟩

theorem guardsInSingleRow_eq_nil_iff :
    (definition.context settings).guardsInSingleRow = [] ↔
      ∀ origin event, (definition.indices.tables.rowsOn origin event).length ≤ 1 := by
  rw [ContractContext.guardsInSingleRow, List.flatMap_eq_nil_iff]
  simp only [List.map_eq_nil_iff, List.filter_eq_nil_iff, decide_eq_true_eq]
  constructor
  · intro single origin event
    cases rows : definition.indices.tables.rowsOn origin event with
    | nil => exact Nat.zero_le 1
    | cons row rest =>
      have member : row ∈ definition.indices.tables.rowsOn origin event := rows ▸ List.mem_cons_self
      obtain ⟨events, outer, inner⟩ := RowTables.find?_of_mem_rowsOn member
      rw [← rows]
      exact Nat.not_lt.mp (single (origin, events) ((Table.mem_entries_iff _ _ _).mpr outer) _
        ((Table.mem_entries_iff _ _ _).mpr inner))
  · intro short entry outer rows inner
    have events : definition.indices.tables.byOrigin.find? entry.1 = some entry.2 :=
      (Table.mem_entries_iff _ _ _).mp outer
    have filed : definition.indices.tables.rowsOn entry.1 rows.1 = rows.2 := by
      rw [RowTables.rowsOn, events, Option.bind_some, (Table.mem_entries_iff _ _ _).mp inner,
        Option.getD_some]
    exact Nat.not_lt.mpr (filed ▸ short entry.1 rows.1)

theorem historyTargetsValid_eq_nil_iff :
    (definition.context settings).historyTargetsValid = [] ↔
      ∀ row ∈ definition.rows, ∀ guarded ∈ row.targets, guarded.target.isHistory = true →
        definition.indices.hierarchy.contains guarded.target.stateName = true ∧
          guarded.target.stateName ≠ rootName ∧
            definition.indices.hierarchy.isCompound guarded.target.stateName = true := by
  rw [ContractContext.historyTargetsValid, List.flatMap_eq_nil_iff,
    ← forall_flat_iff definition settings (fun _ _ target => target.isHistory = true →
      definition.indices.hierarchy.contains target.stateName = true ∧ target.stateName ≠ rootName ∧
        definition.indices.hierarchy.isCompound target.stateName = true)]
  have valid : ∀ entry : String × List Nat,
      (if (!definition.indices.hierarchy.contains entry.1) = true ∨ entry.1 = rootName then
          [Finding.undeclaredHistory entry.1 ((definition.context settings).originsOf entry.2)]
        else if (!definition.indices.hierarchy.isCompound entry.1) = true then
          [.atomicHistory entry.1 ((definition.context settings).originsOf entry.2)]
        else []) = [] ↔
      definition.indices.hierarchy.contains entry.1 = true ∧ entry.1 ≠ rootName ∧
        definition.indices.hierarchy.isCompound entry.1 = true := by
    intro entry
    cases definition.indices.hierarchy.contains entry.1 <;> by_cases top : entry.1 = rootName <;>
      cases definition.indices.hierarchy.isCompound entry.1 <;> simp [top]
  constructor
  · intro all flat listed history
    obtain ⟨positions, filed⟩ := RowTables.exists_historyTargets listed history
    exact (valid (flat.target.stateName, positions)).mp
      (all _ ((Table.mem_entries_iff _ _ _).mpr filed))
  · intro all entry member
    obtain ⟨flat, listed, history, same⟩ := RowTables.exists_flat_of_historyTargets
      ((Table.mem_entries_iff _ _ _).mp member)
    exact (valid entry).mpr (same ▸ all flat listed history)

theorem eventKey_of_noMixedEventless (passed : (definition.context settings).noMixedEventless = [])
    {row other : Transition M} (listed : row ∈ definition.rows)
    (otherListed : other ∈ definition.rows) (notRoot : row.origin ≠ rootName)
    (same : other.origin = row.origin)
    (eventless : row.eventKey = eventlessKey) :
    other.eventKey = eventlessKey := by
  rw [ContractContext.noMixedEventless, List.map_eq_nil_iff, List.filter_eq_nil_iff] at passed
  apply Decidable.byContradiction
  intro mixed
  obtain ⟨position, found⟩ := List.mem_iff_getElem?.mp listed
  obtain ⟨place, otherFound⟩ := List.mem_iff_getElem?.mp otherListed
  obtain ⟨events, outer, inner⟩ := RowTables.find?_of_mem_rowsOn
    ((RowTables.mem_rowsOn_iff definition.rows row.origin eventlessKey position).mpr
      ⟨row, found, notRoot, rfl, eventless⟩)
  obtain ⟨events', outer', inner'⟩ := RowTables.find?_of_mem_rowsOn
    ((RowTables.mem_rowsOn_iff definition.rows row.origin other.eventKey place).mpr
      ⟨other, otherFound, same ▸ notRoot, same, rfl⟩)
  cases outer.symm.trans outer'
  have several : 1 < events.size := Table.one_lt_size inner inner' (fun equal => mixed equal.symm)
  have eventlessFiled : events.contains eventlessKey = true := by
    rw [Table.contains, inner]
    rfl
  exact passed (row.origin, events) ((Table.mem_entries_iff _ _ _).mpr outer)
    (decide_eq_true ⟨eventlessFiled, several⟩)

/-- The given rows and the one made from the initial state start the machine in one way. -/
theorem countP_isStart_of_singleInitialTransition
    (passed : (definition.context settings).singleInitialTransition = []) :
    definition.rows.countP Transition.isStart = 1 := by
  unfold ContractContext.singleInitialTransition at passed
  rw [show (definition.context settings).initialState = definition.initialState from rfl,
    show (definition.context settings).explicitStarts = definition.explicitStarts from
      rfl] at passed
  have given : definition.transitions.countP Transition.isStart = definition.explicitStarts := rfl
  unfold rows
  cases initial : definition.initialState with
  | some state =>
    rw [initial] at passed
    show (definition.transitions ++ [Transition.start state]).countP Transition.isStart = 1
    rw [List.countP_append, given, List.countP_singleton]
    cases starts : definition.explicitStarts with
    | zero => simp [Transition.isStart, Transition.start, Transition.plain, Transition.onEvent]
    | succ more =>
      rw [starts] at passed
      cases passed
  | none =>
    rw [initial] at passed
    show definition.transitions.countP Transition.isStart = 1
    rw [given]
    cases starts : definition.explicitStarts with
    | zero =>
      rw [starts] at passed
      cases passed
    | succ more =>
      rw [starts] at passed
      cases more with
      | zero => rfl
      | succ further => cases passed

theorem init_target_of_initRowFindings {state : String} {position : Nat} {row : Transition M}
    (passed : (definition.context settings).initRowFindings state position = [])
    (listed : definition.rows[position]? = some row) :
    ∃ guarded inner, row.targets = [guarded] ∧ guarded.guard = none ∧
      guarded.target = .state inner ∧
      definition.indices.hierarchy.isStrictAncestor state inner = true := by
  have shape : (definition.context settings).indices.tables.shapes[position]? =
      some (RowTables.shapeOf row) := by
    show (definition.rows.map RowTables.shapeOf)[position]? = _
    rw [List.getElem?_map, listed]
    rfl
  unfold ContractContext.initRowFindings at passed
  rw [shape] at passed
  dsimp only at passed
  split at passed
  · cases passed
  · rename_i single
    have one : ¬ (row.targets.length ≠ 1 ∨
      (row.targets.filter (fun guarded => guarded.guard.isNone)).length ≠ 1) := single
    obtain ⟨guarded, targets⟩ := List.length_eq_one_iff.mp (show row.targets.length = 1 by omega)
    have unguarded : guarded.guard = none := by
      apply Decidable.byContradiction
      intro conditional
      have none_left : row.targets.filter (fun guarded => guarded.guard.isNone) = [] := by
        rw [targets, List.filter_cons_of_neg (by simpa using conditional), List.filter_nil]
      rw [none_left] at one
      simp at one
    obtain ⟨flat, first, target⟩ := RowTables.find?_flat_of_single listed targets
    rw [show (definition.context settings).flat.find? _ = some flat from first] at passed
    dsimp only at passed
    rw [target] at passed
    split at passed
    · cases passed
    · rename_i plain
      split at passed
      · cases passed
      · rename_i inside
        cases goal : guarded.target with
        | history reference =>
          rw [goal] at plain
          exact absurd rfl plain
        | state inner =>
          rw [goal] at inside
          have nested : (definition.context settings).indices.hierarchy.isStrictAncestor state
              (Target.state inner).stateName = true := by simpa using inside
          exact ⟨guarded, inner, targets, unguarded, goal, nested⟩

theorem rowsOn_init_of_compoundInitValid
    (passed : (definition.context settings).compoundInitValid = []) {state : String}
    (compound : definition.indices.hierarchy.isCompound state = true) (notRoot : state ≠ rootName) :
    ∃ position, definition.indices.tables.rowsOn state initEvent = [position] ∧
      (definition.context settings).initRowFindings state position = [] := by
  rw [ContractContext.compoundInitValid, List.flatMap_eq_nil_iff] at passed
  have found := passed state
    ((ContractContext.mem_compoundStates_iff _ state).mpr ⟨compound, notRoot⟩)
  rw [show (definition.context settings).indices.tables.rowsOn state initEvent
    = definition.indices.tables.rowsOn state initEvent from rfl] at found
  cases filed : definition.indices.tables.rowsOn state initEvent with
  | nil =>
    rw [filed] at found
    cases found
  | cons position rest =>
    rw [filed] at found
    cases rest with
    | nil => exact ⟨position, rfl, found⟩
    | cons other others => cases found

end MachineDefinition

end Statechart
