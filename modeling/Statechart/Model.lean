import Statechart.Settings

set_option autoImplicit false

namespace Statechart

/-- The types a machine works with, the data of an event given without any, and how values are
shown in errors. -/
structure Model where
  Ext : Type
  Update : Type
  Data : Type
  Output : Type
  noData : Data
  extText : Ext → String
  dataText : Data → String
  updatesText : List Update → String

/-- The same model with integers of a signed 64-bit word as the data of events. -/
abbrev Model.withInt64 (M : Model) : Model :=
  { M with Data := Int64, noData := 0, dataText := fun n => toString n.toInt }

/-- What a callback answers: a value, or the text of its failure. Callbacks never change the
extended state. -/
abbrev Callback (α : Type) : Type :=
  Except String α

/-- A named condition on a target. -/
structure Guard (M : Model) where
  name : String
  check : M.Ext → M.Data → Settings → Callback Bool

namespace Guard

variable {M : Model}

def text (guard : Guard M) : String :=
  Text.case "Guard" [Text.quoted guard.name]

end Guard

/-- What an action produced. Absent outputs are skipped when outputs are merged; an empty list
of outputs is not absent. -/
structure ActionResult (M : Model) where
  updates : List M.Update
  outputs : Option (List M.Output)

/-- Folds a list of updates into the extended state. -/
abbrev Reducer (M : Model) : Type :=
  M.Ext → List M.Update → Callback M.Ext

/-- A named computation of updates and outputs. -/
structure Action (M : Model) where
  name : String
  run : M.Ext → M.Data → Settings → Callback (ActionResult M)

/-- Joins two lists of outputs of which either may be absent. -/
def mergeOutputs {α : Type} : Option (List α) → Option (List α) → Option (List α)
  | none, second => second
  | first, none => first
  | some first, some second => some (first ++ second)

@[simp] theorem mergeOutputs_none_left {α : Type} (outputs : Option (List α)) :
    mergeOutputs none outputs = outputs := rfl

@[simp] theorem mergeOutputs_none_right {α : Type} (outputs : Option (List α)) :
    mergeOutputs outputs none = outputs := by
  cases outputs <;> rfl

theorem mergeOutputs_assoc {α : Type} (first second third : Option (List α)) :
    mergeOutputs (mergeOutputs first second) third =
      mergeOutputs first (mergeOutputs second third) := by
  cases first <;> cases second <;> cases third <;> simp [mergeOutputs]

namespace Action

variable {M : Model}

/-- The action that changes nothing and has no output. -/
def identity : Action M :=
  ⟨"identity", fun _ _ _ => .ok ⟨[], none⟩⟩

/-- An action that only has the given outputs. -/
def emit (name : String) (outputs : List M.Output) : Action M :=
  ⟨name, fun _ _ _ => .ok ⟨[], some outputs⟩⟩

/-- Runs one action and then another, which sees the extended state with the updates of the
first folded in. -/
def andThen (first second : Action M) (reducer : Reducer M) : Action M where
  name := first.name ++ "+" ++ second.name
  run ext data settings := do
    let early ← first.run ext data settings
    let between ← reducer ext early.updates
    let late ← second.run between data settings
    return ⟨early.updates ++ late.updates, mergeOutputs early.outputs late.outputs⟩

def text (action : Action M) : String :=
  Text.case "Action" [Text.quoted action.name]

end Action

/-- How an action was put together: it is one by itself, or one chained behind another. -/
inductive Composition (M : Model) where
  | single (action : Action M)
  | chained (first second : Composition M)

namespace Composition

variable {M : Model}

def action (reducer : Reducer M) : Composition M → Action M
  | .single action => action
  | .chained first second => (first.action reducer).andThen (second.action reducer) reducer

/-- The actions it was put together from, in the order in which they run. -/
def parts : Composition M → List (Action M)
  | .single action => [action]
  | .chained first second => first.parts ++ second.parts

end Composition

end Statechart
