import Statechart.Machine.Entry

set_option autoImplicit false

namespace Statechart

variable {M : Model}

@[simp] theorem joinOutputs_nil {α : Type} : joinOutputs ([] : List (Option (List α))) = none := rfl

theorem joinOutputs_cons {α : Type} (outputs : Option (List α)) (more : List (Option (List α))) :
    joinOutputs (outputs :: more) = mergeOutputs outputs (joinOutputs more) := by
  unfold joinOutputs
  cases outputs with
  | none =>
    simp only [List.all_cons, Option.isNone_none, Bool.true_and, List.flatMap_cons,
      Option.getD_none, List.nil_append, mergeOutputs_none_left]
  | some listed =>
    have present : ((some listed :: more).all Option.isNone) = false := by
      rw [List.all_cons, Option.isNone_some, Bool.false_and]
    rw [present, if_neg Bool.false_ne_true, List.flatMap_cons, Option.getD_some]
    by_cases absent : more.all Option.isNone = true
    · have nothing : more.flatMap (fun outputs => outputs.getD []) = [] := by
        rw [List.flatMap_eq_nil_iff]
        intro outputs member
        rw [Option.isNone_iff_eq_none.mp (List.all_eq_true.mp absent outputs member),
          Option.getD_none]
      rw [if_pos absent, nothing, List.append_nil, mergeOutputs_none_right]
    · rw [if_neg absent]
      rfl

theorem intercalate_eq_foldl (between first : String) (rest : List String) :
    between.intercalate (first :: rest) =
      rest.foldl (fun text next => text ++ between ++ next) first := by
  induction rest generalizing first with
  | nil => rfl
  | cons next rest ih => exact ih (first ++ between ++ next)

namespace Action

/-- An action with others chained to it, one after the other. -/
def chain (reducer : Reducer M) (own : Action M) (entries : List (Action M)) : Action M :=
  entries.foldl (fun action entry => action.andThen entry reducer) own

theorem name_chain (reducer : Reducer M) (own : Action M) (entries : List (Action M)) :
    (own.chain reducer entries).name = "+".intercalate ((own :: entries).map name) := by
  rw [List.map_cons, intercalate_eq_foldl, List.foldl_map, chain]
  induction entries generalizing own with
  | nil => rfl
  | cons entry rest ih => exact ih (own.andThen entry reducer)

variable {reducer : Reducer M} (folds : Folds reducer) (settings : Settings) (data : M.Data)

include folds

/-- The stage of two chained actions is the stage of the one and then that of the other. -/
theorem stage_andThen (first second : Action M) (ext : M.Ext) :
    (first.andThen second reducer).stage reducer settings data ext
      = (first.stage reducer settings data ext).bind (fun (outputs, between) =>
          (second.stage reducer settings data between).map
              (fun (more, last) => (mergeOutputs outputs more, last))) := by
  simp only [stage, andThen, bind, pure, Except.pure, Except.bind]
  cases first.run ext data settings with
  | error source => rfl
  | ok early =>
    have atOnce (more : List M.Update) := folds ext early.updates more
    cases folded : reducer ext early.updates with
    | error source => simp only [folded]
    | ok between =>
      simp only [folded, Except.bind] at atOnce ⊢
      cases second.run between data settings with
      | error source => simp only [Except.map]
      | ok late =>
        simp only [atOnce]
        cases reducer between late.updates <;> rfl

/-- A chain has the outputs and the extended state of its parts run as stages, and fails exactly
as the first of these that does. It folds the updates of its first parts in again and again, and
those of all parts once more at the end; to a reducer that acts as a fold this is all the same.
-/
theorem stage_chain (own : Action M) (entries : List (Action M)) (ext : M.Ext) :
    (own.chain reducer entries).stage reducer settings data ext
      = (runStages reducer settings data (own :: entries) ext).map
        (fun (outputs, last) => (joinOutputs outputs, last)) := by
  induction entries generalizing own with
  | nil =>
    simp only [chain, List.foldl_nil, runStages, bind, pure, Except.pure, Except.bind]
    cases own.stage reducer settings data ext with
    | error source => rfl
    | ok result =>
      simp only [Except.map, joinOutputs_cons, joinOutputs_nil, mergeOutputs_none_right]
  | cons entry rest ih =>
    rw [chain, List.foldl_cons, ← chain, ih]
    simp only [runStages, stage_andThen folds, bind, pure, Except.pure]
    cases own.stage reducer settings data ext with
    | error source => rfl
    | ok early =>
      simp only [Except.bind]
      cases entry.stage reducer settings data early.2 with
      | error source => rfl
      | ok late =>
        simp only [Except.map]
        cases runStages reducer settings data rest late.2 with
        | error source => rfl
        | ok result => simp only [joinOutputs_cons, mergeOutputs_assoc]

end Action

end Statechart
