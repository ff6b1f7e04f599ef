import Statechart.Proofs.Machine.MicroStep
import Statechart.Proofs.Machine.Stages

set_option autoImplicit false

namespace Statechart

open StateNode

variable {M : Model}

namespace GuardedTarget

/-- A target with its entry actions chained to its action. -/
def adorn (reducer : Reducer M) (entries : List (Action M)) (guarded : GuardedTarget M) :
    GuardedTarget M :=
  { guarded with action := guarded.action.chain reducer entries }

@[simp] theorem adorn_nil (reducer : Reducer M) (guarded : GuardedTarget M) :
    guarded.adorn reducer [] = guarded := rfl

end GuardedTarget

namespace MachineDraft

def adornRow (reducer : Reducer M) (entries : List (String × Action M)) (row : Transition M) :
    Transition M :=
  { row with targets :=
    row.targets.map (fun guarded => guarded.adorn reducer (entriesFor entries guarded.target)) }

theorem adornRow_nil (reducer : Reducer M) (row : Transition M) :
    adornRow reducer [] row = row := by
  have unadorned (guarded : GuardedTarget M) :
      guarded.adorn reducer (entriesFor [] guarded.target) = guarded := by
    cases target : guarded.target <;> rfl
  simp only [adornRow, unadorned, List.map_id']

/-- Of several entry actions the first is worked in first. -/
theorem adorn_decorateTarget (reducer : Reducer M) (state : String) (entry : Action M)
    (rest : List (String × Action M)) (guarded : GuardedTarget M) :
    (decorateTarget reducer state entry guarded).adorn reducer (entriesFor rest guarded.target)
      = guarded.adorn reducer (entriesFor ((state, entry) :: rest) guarded.target) := by
  obtain ⟨guard, target, action⟩ := guarded
  rw [decorateTarget]
  cases target with
  | history reference =>
    rw [if_neg nofun]
    rfl
  | state name =>
    by_cases same : name = state
    · rw [if_pos (congrArg Target.state same), entriesFor, entriesFor,
        List.filter_cons_of_pos (by simpa using same.symm)]
      rfl
    · rw [if_neg (fun equal => same (Target.state.inj equal)), entriesFor, entriesFor,
        List.filter_cons_of_neg (by simpa using Ne.symm same)]

theorem map_adornRow_decorate (reducer : Reducer M) (state : String) (entry : Action M)
    (rest : List (String × Action M)) (rows : List (Transition M)) :
    (decorate reducer state entry rows).map (adornRow reducer rest) =
      rows.map (adornRow reducer ((state, entry) :: rest)) := by
  have target (guarded : GuardedTarget M) : (decorateTarget reducer state entry guarded).target =
      guarded.target := by
    rw [decorateTarget]
    split <;> rfl
  rw [decorate, List.map_map]
  apply List.map_congr_left
  intro row _
  simp only [Function.comp_apply, adornRow, List.map_map, Transition.mk.injEq, true_and]
  apply List.map_congr_left
  intro guarded _
  rw [Function.comp_apply, target, adorn_decorateTarget]

/-- Entry actions are worked into all rows, unless one of them is of a state that is not there;
the first such is reported. -/
theorem decorateAll_eq (states : List StateNode) (reducer : Reducer M)
    (entries : List (String × Action M)) (rows : List (Transition M)) :
    decorateAll states reducer entries rows
      = match entries.find? (fun entry => !forestDeclares entry.1 states) with
        | some entry => .error (.unknownEntryState entry.1)
        | none => .ok (rows.map (adornRow reducer entries)) := by
  induction entries generalizing rows with
  | nil =>
    have same : adornRow reducer ([] : List (String × Action M)) = id :=
      funext (adornRow_nil reducer)
    rw [decorateAll, List.find?_nil, same, List.map_id]
  | cons first rest ih =>
    obtain ⟨state, entry⟩ := first
    rw [decorateAll, List.find?_cons]
    cases declared : forestDeclares state states with
    | true => rw [if_pos rfl, ih, map_adornRow_decorate]; rfl
    | false => rfl

def withRows (draft : MachineDraft M) (ext : M.Ext) (reducer : Reducer M)
    (rows : List (Transition M)) : MachineDefinition M :=
  ⟨draft.states, draft.events, rows, ext, draft.initialState, reducer⟩

variable {draft : MachineDraft M} {ext : M.Ext} {reducer : Reducer M}

theorem rows_withRows (draft : MachineDraft M) (ext : M.Ext) (reducer : Reducer M)
    (rows : List (Transition M)) :
    (draft.withRows ext reducer rows).rows = rows ++
      draft.initialState.toList.map Transition.start := by
  rw [MachineDefinition.rows, withRows]
  cases draft.initialState with
  | none => exact (List.append_nil rows).symm
  | some state => rfl

theorem keys_adornRow (draft : MachineDraft M) (ext : M.Ext) (reducer : Reducer M) :
    (draft.withRows ext reducer
        (draft.transitions.map (adornRow reducer draft.entryActions))).rows.map
        (fun row => (row.origin, row.event))
      = (draft.withRows ext reducer draft.transitions).rows.map
          (fun row => (row.origin, row.event)) := by
  rw [rows_withRows, rows_withRows, List.map_append, List.map_append, List.map_map]
  rfl

theorem definition_eq (given : draft.initialExt = some ext)
    (folding : draft.reducer = some reducer) : draft.definition
      = match draft.entryActions.find? (fun entry => !forestDeclares entry.1 draft.states) with
        | some entry => .error (.unknownEntryState entry.1)
        | none =>
          .ok (draft.withRows ext reducer
              (draft.transitions.map (adornRow reducer draft.entryActions))) := by
  rw [definition, given, folding]
  simp only [decorateAll_eq]
  cases draft.entryActions.find? (fun entry => !forestDeclares entry.1 draft.states) <;> rfl

theorem bare_definition_eq (given : draft.initialExt = some ext)
    (folding : draft.reducer = some reducer) :
    draft.bare.definition = .ok (draft.withRows ext reducer draft.transitions) := by
  rw [definition, show draft.bare.initialExt = some ext from
    given, show draft.bare.reducer = some reducer from folding]
  rfl

/-- The first entry action of a state that is not there. -/
theorem find?_undeclared_iff (states : List StateNode) (entries : List (String × Action M))
    (state : String) :
    (∃ entry, entries.find? (fun entry => !forestDeclares entry.1 states) = some (state, entry)) ↔
      ∃ before entry after, entries = before ++ (state, entry) :: after ∧ ¬ Declared states state ∧
        ∀ earlier ∈ before, Declared states earlier.1 := by
  simp only [List.find?_eq_some_iff_append, ← forestDeclares_iff, Bool.not_eq_eq_eq_not,
    Bool.not_true, Bool.not_false, Bool.not_eq_true]
  constructor
  · rintro ⟨entry, unknown, before, after, split, declared⟩
    exact ⟨before, entry, after, split, unknown, declared⟩
  · rintro ⟨before, entry, after, split, unknown, declared⟩
    exact ⟨entry, unknown, before, after, split, declared⟩

theorem create_ne_unknownEntryState (definition : MachineDefinition M) (settings : Settings)
    (state : String) :
    (Machine.create definition settings).result ≠ .error (.unknownEntryState state) := by
  intro failed
  have creates := Machine.create_creates definition settings
  generalize Machine.create definition settings = creation at creates failed
  cases creates <;> cases failed

/-- Only an entry action of a state that is not there keeps a draft from having a definition,
and the first such is named. -/
theorem build_eq_unknownEntryState_iff (given : draft.initialExt = some ext)
    (folding : draft.reducer = some reducer) (settings : Settings) (state : String) :
    (draft.build settings).result = .error (.unknownEntryState state) ↔
      ∃ before entry after, draft.entryActions = before ++ (state, entry) :: after ∧
        ¬ Declared draft.states state ∧ ∀ earlier ∈ before, Declared draft.states earlier.1 := by
  rw [← find?_undeclared_iff, build, definition_eq given folding]
  cases found : draft.entryActions.find? (fun entry => !forestDeclares entry.1 draft.states) with
  | some first =>
    obtain ⟨name, entry⟩ := first
    simp only [Except.error.injEq, BuildError.unknownEntryState.injEq, Option.some.injEq,
      Prod.mk.injEq]
    exact ⟨fun same => ⟨entry, same, rfl⟩, fun same => same.choose_spec.1⟩
  | none => exact iff_of_false (create_ne_unknownEntryState _ settings state) nofun

end MachineDraft

namespace RowTables

variable {rows others : List (Transition M)}

theorem filed_eq_of_keys (same : rows.map (fun row => (row.origin, row.event)) =
    others.map (fun row => (row.origin, row.event))) : filed rows = filed others := by
  have keys (rows : List (Transition M)) : filed rows
      = ((rows.map (fun row => (row.origin, row.event))).zipIdx.filter
          (fun item => item.1.1 ≠ rootName)).map
          (fun item => (item.1.1, item.1.2.getD eventlessKey, item.2)) := by
    rw [List.zipIdx_map, List.filter_map, List.map_map]
    rfl
  rw [keys, keys, same]

theorem startRowsOf_eq_of_keys
    (same : rows.map (fun row => (row.origin, row.event)) =
      others.map (fun row => (row.origin, row.event))) :
    startRowsOf rows = startRowsOf others := by
  have keys (rows : List (Transition M)) : startRowsOf rows
      = ((rows.map (fun row => (row.origin, row.event))).zipIdx.filter
          (fun item => item.1.1 = rootName && item.1.2 = some initEvent)).map Prod.snd := by
    rw [List.zipIdx_map, List.filter_map, List.map_map]
    rfl
  rw [keys, keys, same]

end RowTables

namespace Machine

theorem findHandler_eq_of_tables {machine other : Machine M}
    (hierarchy : machine.indices.hierarchy = other.indices.hierarchy)
    (byOrigin : machine.indices.tables.byOrigin = other.indices.tables.byOrigin)
    (startRows : machine.indices.tables.startRows = other.indices.tables.startRows)
    (control event : String) (external : Bool) :
    machine.findHandler control event external = other.findHandler control event external := by
  simp only [findHandler, RowTables.ownHandler, RowTables.rowsOn, hierarchy, byOrigin, startRows]

theorem enter_eq_of_hierarchy {machine other : Machine M}
    (hierarchy : machine.indices.hierarchy = other.indices.hierarchy) (runtime : Runtime M)
    (event : String) (target : Target) (ext : M.Ext) :
    machine.enter runtime event target ext = other.enter runtime event target ext := by
  have left : machine.leave runtime = other.leave runtime := by rw [leave, leave, hierarchy]
  rw [enter_eq, enter_eq, left, hierarchy]

theorem selectTarget_map (settings : Settings) (site : CallSite M)
    (change : GuardedTarget M → GuardedTarget M)
    (guards : ∀ guarded, (change guarded).guard = guarded.guard)
    (targets : List (GuardedTarget M)) :
    selectTarget settings site (targets.map change) =
      (selectTarget settings site targets).map (Option.map change) := by
  induction targets with
  | nil => rfl
  | cons first rest ih =>
    rw [List.map_cons, selectTarget, selectTarget, guards, ih]
    cases first.guard with
    | none => rfl
    | some guard =>
      dsimp only
      cases guard.check site.ext site.data settings with
      | error source => rfl
      | ok holds => cases holds <;> rfl

/-- Performing an action is its stage; the error of one that fails keeps the text of the failure. -/
theorem perform_spec (machine : Machine M) (site : CallSite M) (action : Action M) :
    match action.stage machine.reducer machine.settings site.data site.ext with
    | .ok result => machine.perform site action = .ok result
    | .error source =>
      ∃ error, machine.perform site action = .error error ∧ error.source? = some source := by
  simp only [Action.stage, perform, bind, pure, Except.pure]
  cases action.run site.ext site.data machine.settings with
  | error source => exact ⟨_, rfl, rfl⟩
  | ok result =>
    simp only [Except.bind]
    cases machine.reducer site.ext result.updates with
    | error source => exact ⟨_, rfl, rfl⟩
    | ok next => rfl

/-- A machine differs from another in nothing but the entry actions of a draft, which are
chained to the actions of its targets. -/
structure Adorned (machine bare : Machine M) (draft : MachineDraft M) : Prop where
  settings : machine.settings = bare.settings
  reducer : machine.reducer = bare.reducer
  hierarchy : machine.indices.hierarchy = bare.indices.hierarchy
  states : bare.indices.hierarchy = .ofStates draft.states
  handler : ∀ control event external, machine.findHandler control event external =
    bare.findHandler control event external
  targets : ∀ row, machine.targetsOf row
    = (bare.targetsOf row).map (fun guarded =>
      guarded.adorn bare.reducer (draft.entriesAt row guarded.target))

namespace Adorned

variable {machine bare : Machine M} {draft : MachineDraft M} (adorned : machine.Adorned bare draft)
  {runtime : Runtime M} {event : String} {data : M.Data} {external : Bool}

include adorned

theorem selectTarget_targetsOf (site : CallSite M) (row : Nat) :
    selectTarget machine.settings site (machine.targetsOf row)
      = (selectTarget bare.settings site (bare.targetsOf row)).map
          (Option.map (fun guarded =>
            guarded.adorn bare.reducer (draft.entriesAt row guarded.target))) := by
  rw [adorned.settings, adorned.targets]
  exact selectTarget_map _ _ (fun guarded =>
    guarded.adorn bare.reducer (draft.entriesAt row guarded.target)) (fun _ => rfl) _

theorem step_of_chooses {handler : String} {row : Nat} {guarded : GuardedTarget M}
    (chooses : bare.Chooses runtime event data external handler row guarded) :
    machine.step runtime event data external
      = (machine.perform ⟨runtime.control, event, runtime.ext, data⟩
          (guarded.action.chain bare.reducer (draft.entriesAt row guarded.target))).bind
            (fun (outputs, ext) =>
            bare.enterWith runtime event handler
              ("+".intercalate ((guarded.action :: draft.entriesAt row guarded.target).map
                Action.name)) guarded outputs ext) := by
  have chosen := adorned.selectTarget_targetsOf ⟨runtime.control, event, runtime.ext, data⟩ row
  rw [chooses.chosen] at chosen
  rw [step_of_chosen ((adorned.handler _ _ _).trans chooses.handled) chosen]
  simp only [GuardedTarget.adorn, Action.name_chain, enter_eq_of_hierarchy adorned.hierarchy]
  rfl

theorem idle (unchosen : ∀ handler row guarded,
    ¬ bare.Chooses runtime event data external handler row guarded) :
    machine.step runtime event data external = bare.step runtime event data external := by
  unfold step
  rw [adorned.handler]
  cases handled : bare.findHandler runtime.control event external with
  | none => rfl
  | some found =>
    obtain ⟨handler, row⟩ := found
    have choice := adorned.selectTarget_targetsOf ⟨runtime.control, event, runtime.ext, data⟩ row
    dsimp only
    cases chosen : selectTarget bare.settings ⟨runtime.control, event, runtime.ext, data⟩
        (bare.targetsOf row) with
    | error error =>
      rw [chosen] at choice
      rw [choice]
      rfl
    | ok answer =>
      cases answer with
      | none =>
        rw [chosen] at choice
        rw [choice]
        rfl
      | some guarded => exact absurd ⟨handled, chosen⟩ (unchosen handler row guarded)

theorem unadorned {handler : String} {row : Nat} {guarded : GuardedTarget M}
    (chooses : bare.Chooses runtime event data external handler row guarded)
    (none : draft.entriesAt row guarded.target = []) :
    machine.step runtime event data external = bare.step runtime event data external := by
  rw [adorned.step_of_chooses chooses, step_of_chosen chooses.handled chooses.chosen, none,
    perform, perform, adorned.settings, adorned.reducer]
  rfl

variable (folds : Folds bare.reducer)

include folds

/-- A chain is performed as its stages. -/
theorem perform_chain (site : CallSite M) (own : Action M) (entries : List (Action M)) :
    match Action.runStages bare.reducer bare.settings site.data (own :: entries) site.ext with
    | .ok (outputs, ext) =>
      machine.perform site (own.chain bare.reducer entries) = .ok (joinOutputs outputs, ext)
    | .error source =>
      ∃ error, machine.perform site (own.chain bare.reducer entries) = .error error ∧
        error.source? = some source := by
  have performed := machine.perform_spec site (own.chain bare.reducer entries)
  rw [adorned.reducer, adorned.settings, Action.stage_chain folds] at performed
  cases ran : Action.runStages bare.reducer bare.settings site.data (own :: entries) site.ext with
  | ok result =>
    rw [ran] at performed
    exact performed
  | error source =>
    rw [ran] at performed
    exact performed

variable {handler : String} {row : Nat} {guarded : GuardedTarget M}
  (chooses : bare.Chooses runtime event data external handler row guarded)

include chooses

theorem staged {outputs : List (Option (List M.Output))} {ext : M.Ext}
    (ran : Action.runStages bare.reducer bare.settings data
      (guarded.action :: draft.entriesAt row guarded.target) runtime.ext = .ok (outputs, ext)) :
    machine.step runtime event data external = bare.enterWith runtime event handler
      ("+".intercalate ((guarded.action :: draft.entriesAt row guarded.target).map Action.name))
        guarded
      (joinOutputs outputs) ext := by
  have performed := adorned.perform_chain folds
    ⟨runtime.control, event, runtime.ext, data⟩ guarded.action (draft.entriesAt row guarded.target)
  rw [ran] at performed
  rw [adorned.step_of_chooses chooses, performed]
  rfl

theorem failed {source : String}
    (ran : Action.runStages bare.reducer bare.settings data
      (guarded.action :: draft.entriesAt row guarded.target) runtime.ext = .error source) :
    ∃ error, machine.step runtime event data external = .error error ∧
    error.source? = some source := by
  have performed := adorned.perform_chain folds
    ⟨runtime.control, event, runtime.ext, data⟩ guarded.action (draft.entriesAt row guarded.target)
  rw [ran] at performed
  obtain ⟨error, stopped, said⟩ := performed
  refine ⟨error, ?_, said⟩
  rw [adorned.step_of_chooses chooses, stopped]
  rfl

theorem fails_iff {state : String} (named : guarded.target = .state state)
    (notRoot : state ≠ rootName) (declared : Declared draft.states state) :
    (∃ error, machine.step runtime event data external = .error error) ↔
      ∃ source, Action.runStages bare.reducer bare.settings data
        (guarded.action :: draft.entriesAt row guarded.target) runtime.ext = .error source := by
  constructor
  · rintro ⟨error, stopped⟩
    cases ran : Action.runStages bare.reducer bare.settings data
        (guarded.action :: draft.entriesAt row guarded.target) runtime.ext with
    | error source => exact ⟨source, rfl⟩
    | ok result =>
      have known : bare.indices.hierarchy.contains state = true := by
        rw [adorned.states]
        exact (Hierarchy.contains_iff state).mpr (Or.inr declared)
      rw [adorned.staged folds chooses ran, enterWith, named, enter_eq, if_neg] at stopped
      · cases stopped
      · rintro (isRoot | unknown)
        · exact notRoot isRoot
        · exact Bool.false_ne_true (unknown.symm.trans known)
  · rintro ⟨source, ran⟩
    obtain ⟨error, stopped, _⟩ := adorned.failed folds chooses ran
    exact ⟨error, stopped⟩

omit chooses

theorem runsEntries : machine.RunsEntries bare draft where
  idle _ _ _ _ := adorned.idle
  unadorned _ _ _ _ _ _ _ := adorned.unadorned
  staged _ _ _ _ _ _ _ chooses _ _ := adorned.staged folds chooses
  failed _ _ _ _ _ _ _ chooses _ := adorned.failed folds chooses
  fails_iff _ _ _ _ _ _ _ _ chooses := adorned.fails_iff folds chooses

end Adorned

/-- Machines of a draft and of the draft without its entry actions differ in these only. -/
theorem adorned_of_madeFrom {draft : MachineDraft M} {ext : M.Ext} {reducer : Reducer M}
    {settings : Settings} {machine bare : Machine M}
    (made : machine.MadeFrom
      (draft.withRows ext reducer
        (draft.transitions.map (MachineDraft.adornRow reducer draft.entryActions))) settings)
    (bareMade : bare.MadeFrom (draft.withRows ext reducer draft.transitions) settings) :
        machine.Adorned bare draft := by
  have keys := draft.keys_adornRow ext reducer
  have filed := RowTables.filed_eq_of_keys keys
  have hierarchy : machine.indices.hierarchy = bare.indices.hierarchy := by
    rw [made.indices, bareMade.indices]
    rfl
  have byOrigin : machine.indices.tables.byOrigin = bare.indices.tables.byOrigin := by
    rw [made.indices, bareMade.indices]
    show RowTables.byOriginOf _ = RowTables.byOriginOf _
    rw [RowTables.byOriginOf, RowTables.byOriginOf, filed]
  have startRows : machine.indices.tables.startRows = bare.indices.tables.startRows := by
    rw [made.indices, bareMade.indices]
    exact RowTables.startRowsOf_eq_of_keys keys
  refine ⟨made.settings.trans bareMade.settings.symm, made.reducer.trans bareMade.reducer.symm,
    hierarchy, ?_, findHandler_eq_of_tables hierarchy byOrigin startRows, ?_⟩
  · rw [bareMade.indices]
    rfl
  · intro row
    have bareReducer : bare.reducer = reducer := bareMade.reducer
    rw [targetsOf, targetsOf, made.transitions, bareMade.transitions, MachineDraft.rows_withRows,
      MachineDraft.rows_withRows, bareReducer]
    by_cases isGiven : row < draft.transitions.length
    · rw [List.getElem?_append_left (by rwa [List.length_map]), List.getElem?_append_left isGiven,
        List.getElem?_map, List.getElem?_eq_getElem isGiven]
      simp only [MachineDraft.entriesAt, isGiven, if_true]
      rfl
    · have behind := Nat.not_lt.mp isGiven
      rw [List.getElem?_append_right (by rwa [List.length_map]), List.getElem?_append_right behind,
        List.length_map]
      simp only [MachineDraft.entriesAt, isGiven, if_false, GuardedTarget.adorn_nil, List.map_id']

end Machine

namespace MachineDraft

/-- With an extended state and a reducer given, building a draft reports the first entry action
of a state that is not there, and nothing else does. If there is none, and the reducer acts as a
fold, then a machine of the draft runs the entry actions of a state in their order, stage by
stage, whenever a given row enters it by name; in all else it is like one made without them. -/
theorem entry_actions_run_in_sequence (draft : MachineDraft M) (ext : M.Ext) (reducer : Reducer M)
    (given : draft.initialExt = some ext) (folding : draft.reducer = some reducer)
    (folds : Folds reducer)
    (settings : Settings) :
    (∀ state, (draft.build settings).result = .error (.unknownEntryState state) ↔
      ∃ before entry after, draft.entryActions = before ++ (state, entry) :: after ∧
        ¬ Declared draft.states state ∧ ∀ earlier ∈ before, Declared draft.states earlier.1) ∧
      ((∀ entry ∈ draft.entryActions, Declared draft.states entry.1) →
        ∃ definition bareDefinition, draft.definition = .ok definition ∧
          draft.bare.definition = .ok bareDefinition ∧
          bareDefinition.transitions = draft.transitions ∧ bareDefinition.reducer = reducer ∧
          ∀ machine bare : Machine M, machine.MadeFrom definition settings →
            bare.MadeFrom bareDefinition settings → machine.RunsEntries bare draft) := by
  refine ⟨build_eq_unknownEntryState_iff given folding settings, ?_⟩
  intro known
  have none_unknown : draft.entryActions.find? (fun entry => !forestDeclares entry.1 draft.states) =
      none := by
    rw [List.find?_eq_none]
    intro entry listed
    rw [(forestDeclares_iff _ _).mpr (known entry listed)]
    exact Bool.false_ne_true
  have defined := definition_eq given folding
  rw [none_unknown] at defined
  refine ⟨_, _, defined, bare_definition_eq given folding, rfl, rfl, ?_⟩
  intro machine bare made bareMade
  have bareFolds : Folds bare.reducer := by
    rw [bareMade.reducer]
    exact folds
  exact (Machine.adorned_of_madeFrom made bareMade).runsEntries bareFolds

end MachineDraft

namespace Player

/-- Adds as much as there is, and tells how much that was. -/
def echo : Action model where
  name := "echo"
  run (ext : Nat) _ _ := .ok ⟨[ext], some [toString ext]⟩

/-- A player that does two things whenever it is switched on, besides what switching it on does. -/
def greeting : MachineDraft model where
  states := [.atomic "Off", .atomic "On"]
  events := ["on", "off"]
  transitions := [.onEvent "Off" "on" (.state "On") speedUp, .plain "On" "off" (.state "Off")]
  initialState := some "Off"
  initialExt := some (0 : Nat)
  reducer := some reducer
  entryActions := [("On", echo), ("Off", .identity), ("On", speedUp)]

theorem reducer_folds : Folds reducer :=
  fun _ _ _ => congrArg Except.ok List.foldl_append

end Player

namespace MachineDraft

/-- Switched on once, the player counts up by one, doubles that, and counts up by one again. -/
theorem greeting_runs_in_sequence : ∃ definition, Player.greeting.definition = .ok definition ∧
    (Machine.unstarted definition {}).step ⟨"Off", (0 : Nat), .empty⟩ "on" (0 : Nat) true
      = .ok (.taken ⟨"Off", "on", "Off", none, "speed_up+echo+speed_up",
          some ["faster", "1", "faster"], ⟨"On", (3 : Nat), .empty⟩⟩) := by
  have known : ∀ entry ∈ Player.greeting.entryActions, Declared Player.greeting.states entry.1 := by
    intro entry listed
    apply (forestDeclares_iff _ _).mp
    revert entry
    decide
  obtain ⟨_, sequence⟩ :=
    entry_actions_run_in_sequence Player.greeting
      (0 : Nat) Player.reducer rfl rfl Player.reducer_folds {}
  obtain ⟨definition, bareDefinition, defined, bareDefined, _, _, runs⟩ := sequence known
  cases bareDefined
  refine ⟨definition, defined, ?_⟩
  have entries := runs _ _ (Machine.MadeFrom.unstarted definition {})
    (Machine.MadeFrom.unstarted _ {})
  have chooses :
      (Machine.unstarted (Player.greeting.withRows
        (0 : Nat) Player.reducer Player.greeting.transitions) {}).Chooses
      ⟨"Off", (0 : Nat), .empty⟩ "on" (0 : Nat) true "Off" 0 ⟨none, .state "On", Player.speedUp⟩ :=
        ⟨rfl, rfl⟩
  exact entries.staged _ _ _ _ _ _ _ chooses [some ["faster"], some ["1"], some ["faster"]]
    (3 : Nat) rfl

end MachineDraft

end Statechart
