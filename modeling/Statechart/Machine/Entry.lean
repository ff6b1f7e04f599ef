import Statechart.Machine.Create
import Statechart.State.Nesting

set_option autoImplicit false

namespace Statechart

variable {M : Model}

/-- Folding in two lists of updates at once is folding in one after the other; what fails on the
first fails on both. -/
def Folds (reducer : Reducer M) : Prop :=
  ∀ (ext : M.Ext) (first second : List M.Update),
    reducer ext (first ++ second) = (reducer ext first).bind (fun between => reducer between second)

/-- The outputs of several stages in their order, absent only if those of all stages are. -/
def joinOutputs {α : Type} (stages : List (Option (List α))) : Option (List α) :=
  if stages.all Option.isNone then none else some (stages.flatMap (fun outputs => outputs.getD []))

namespace Action

/-- A stage: an action is run and its updates are folded in. -/
def stage (action : Action M) (reducer : Reducer M) (settings : Settings) (data : M.Data)
    (ext : M.Ext) : Callback (Option (List M.Output) × M.Ext) := do
  let result ← action.run ext data settings
  let next ← reducer ext result.updates
  return (result.outputs, next)

/-- Stages one after the other, each on the extended state that the one before has left: the
outputs of all of them and the extended state at the end, or the failure of the first that
fails. -/
def runStages (reducer : Reducer M) (settings : Settings) (data : M.Data) :
    List (Action M) → M.Ext → Callback (List (Option (List M.Output)) × M.Ext)
  | [], ext => return ([], ext)
  | action :: rest, ext => do
    let (outputs, between) ← action.stage reducer settings data ext
    let (more, last) ← runStages reducer settings data rest between
    return (outputs :: more, last)

end Action

/-- The entry actions that belong to a target: those of the state it names, in the order in
which they were added. What refers to history names no state. -/
def entriesFor (entries : List (String × Action M)) (target : Target) : List (Action M) :=
  match target with
  | .state state => (entries.filter (fun entry => entry.1 = state)).map Prod.snd
  | .history _ => []

namespace MachineDraft

/-- The entry actions that belong to a target of the row at a position. A row made from the
initial state comes after the given ones and has none. -/
def entriesAt (draft : MachineDraft M) (row : Nat) (target : Target) : List (Action M) :=
  if row < draft.transitions.length then entriesFor draft.entryActions target else []

/-- The draft without its entry actions. -/
def bare (draft : MachineDraft M) : MachineDraft M :=
  { draft with entryActions := [] }

end MachineDraft

namespace Machine

/-- A step takes a target of a row: the row of this state handles the event, and the target is
the first that may be taken. -/
structure Chooses (machine : Machine M) (runtime : Runtime M) (event : String) (data : M.Data)
    (external : Bool) (handler : String) (row : Nat) (guarded : GuardedTarget M) : Prop where
  handled : machine.findHandler runtime.control event external = some (handler, row)
  chosen : selectTarget machine.settings ⟨runtime.control, event, runtime.ext, data⟩
    (machine.targetsOf row) = .ok (some guarded)

/-- The step that takes a target with these outputs and this extended state, if its state can be
entered. -/
def enterWith (machine : Machine M) (runtime : Runtime M) (event handler action : String)
    (guarded : GuardedTarget M) (outputs : Option (List M.Output))
    (ext : M.Ext) : Except (DispatchError M) (StepResult M) :=
  (machine.enter runtime event guarded.target ext).map (fun next =>
    .taken ⟨runtime.control, event, handler, guarded.guard.map Guard.name, action, outputs, next⟩)

/-- A machine does in every step what another does that was made without the entry actions of a
draft, but that it runs those of a state that is entered by name, stage by stage. -/
structure RunsEntries (machine bare : Machine M) (draft : MachineDraft M) : Prop where
  /-- Where no target is taken entry actions do not count. -/
  idle : ∀ runtime event data external,
    (∀ handler row guarded, ¬ bare.Chooses runtime event data external handler row guarded) →
    machine.step runtime event data external = bare.step runtime event data external
  /-- Nor do they where the target taken has none. -/
  unadorned : ∀ runtime event data external handler row guarded,
    bare.Chooses runtime event data external handler row guarded →
      draft.entriesAt row guarded.target = [] →
      machine.step runtime event data external = bare.step runtime event data external
  /-- If no stage fails the state is entered with the extended state of the last one and the
  outputs of all. -/
  staged : ∀ runtime event data external handler row guarded,
    bare.Chooses runtime event data external handler row guarded → ∀ outputs ext,
      Action.runStages bare.reducer bare.settings data
        (guarded.action :: draft.entriesAt row guarded.target) runtime.ext = .ok (outputs, ext) →
      machine.step runtime event data external = bare.enterWith runtime event handler
        ("+".intercalate ((guarded.action :: draft.entriesAt row guarded.target).map Action.name))
          guarded
        (joinOutputs outputs) ext
  /-- If a stage fails so does the step, and with its failure. -/
  failed : ∀ runtime event data external handler row guarded,
    bare.Chooses runtime event data external handler row guarded → ∀ source,
      Action.runStages bare.reducer bare.settings data
        (guarded.action :: draft.entriesAt row guarded.target) runtime.ext = .error source →
      ∃ error, machine.step runtime event data external = .error error ∧ error.source? = some source
  /-- A declared state can be entered, so that a step into it fails only if a stage does. This
  leaves out the name of the root, which no accepted definition declares: entering it always
  fails. -/
  fails_iff : ∀ runtime event data external handler row guarded state,
    bare.Chooses runtime event data external handler row guarded → guarded.target = .state state →
      state ≠ rootName → StateNode.Declared draft.states state →
      ((∃ error, machine.step runtime event data external = .error error) ↔
        ∃ source, Action.runStages bare.reducer bare.settings data
          (guarded.action :: draft.entriesAt row guarded.target) runtime.ext = .error source)

end Machine

end Statechart
