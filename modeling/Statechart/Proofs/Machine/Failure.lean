import Statechart.Machine.Failure
import Statechart.Proofs.Action.Chaining
import Statechart.Proofs.Machine.Tables
import Statechart.Proofs.Machine.Taken

set_option autoImplicit false

namespace Statechart

open TakenStep

variable {M : Model}

namespace Composition

variable {reducer : Reducer M} {settings : Settings} {data : M.Data} {composition : Composition M}
  {ext : M.Ext}

theorem FailsBy.run_eq {call : FailedCall M}
    (fails : composition.FailsBy reducer settings data ext call) :
    (composition.action reducer).run ext data settings = .error call.source := by
  induction fails with
  | single failed => exact failed
  | first _ ih => simp only [action, Action.andThen, ih, bind, Except.bind]
  | between ran failed =>
    simp only [action, Action.andThen, ran, failed, bind, Except.bind]
    rfl
  | second ran folded _ ih => simp only [action, Action.andThen, ran, folded, ih, bind, Except.bind]

theorem exists_failsBy {source : String}
    (failed : (composition.action reducer).run ext data settings = .error source) :
    ∃ call, composition.FailsBy reducer settings data ext call := by
  induction composition generalizing ext source with
  | single action => exact ⟨_, .single failed⟩
  | chained first second firstIh secondIh =>
    cases ran : (first.action reducer).run ext data settings with
    | error early =>
      obtain ⟨call, fails⟩ := firstIh ran
      exact ⟨call, .first fails⟩
    | ok early =>
      cases folded : reducer ext early.updates with
      | error stuck => exact ⟨_, .between ran folded⟩
      | ok between =>
        cases further : (second.action reducer).run between data settings with
        | error late =>
          obtain ⟨call, fails⟩ := secondIh further
          exact ⟨call, .second ran folded fails⟩
        | ok late =>
          simp only [action, Action.andThen, ran, folded, further, bind, Except.bind] at failed
          cases failed

/-- An action fails by a call of a part, or of the reducer between two parts. -/
theorem FailsBy.kind_eq {call : FailedCall M}
    (fails : composition.FailsBy reducer settings data ext call) :
    call.isBetween = false → call.kind = .action := by
  induction fails with
  | single _ => exact fun _ => rfl
  | first _ ih => exact ih
  | between _ _ => exact nofun
  | second _ _ _ ih => exact ih

end Composition

namespace MachineDraft

variable {draft : MachineDraft M} {definition : MachineDefinition M}
  {apart : Action M → Composition M} {reducer : Reducer M}

/-- The parts of a target's action make up that action with its entry actions chained to it. -/
theorem action_composition (whole : ∀ action, (apart action).action reducer = action) (row : Nat)
    (guarded : GuardedTarget M) : (draft.composition apart row guarded).action reducer
      = guarded.action.chain reducer (draft.entriesAt row guarded.target) := by
  have chained (entries : List (Action M)) (own : Composition M) :
      (entries.foldl (fun all entry => .chained all (apart entry)) own : Composition M).action
        reducer = (own.action reducer).chain reducer entries := by
    induction entries generalizing own with
    | nil => rfl
    | cons entry rest ih =>
      rw [List.foldl_cons, ih, Composition.action, whole]
      rfl
  rw [composition, chained, whole]

/-- A draft that has a definition has an extended state and a reducer, and the rows with their
entry actions. -/
theorem eq_of_definition (defined : draft.definition = .ok definition) :
    ∃ ext reducer, definition
      = draft.withRows ext reducer
        (draft.transitions.map (adornRow reducer draft.entryActions)) := by
  cases given : draft.initialExt with
  | none =>
    rw [MachineDraft.definition, given] at defined
    cases defined
  | some ext =>
    cases folding : draft.reducer with
    | none =>
      rw [MachineDraft.definition, given, folding] at defined
      cases defined
    | some reducer =>
      rw [definition_eq given folding] at defined
      split at defined
      · cases defined
      · cases defined
        exact ⟨ext, reducer, rfl⟩

end MachineDraft

namespace Machine

variable {draft : MachineDraft M} {definition : MachineDefinition M} {settings : Settings}
  {machine : Machine M} {apart : Action M → Composition M}

theorem perform_of_failed {site : CallSite M} {action : Action M} {source : String}
    (failed : action.run site.ext site.data machine.settings = .error source) :
    machine.perform site action = .error (.actionFailed action.name site source) := by
  rw [perform]
  simp only [failed]

theorem perform_of_stuck {site : CallSite M} {action : Action M} {result : ActionResult M}
    {source : String} (ran : action.run site.ext site.data machine.settings = .ok result)
    (stuck : machine.reducer site.ext result.updates = .error source) :
    machine.perform site action =
      .error (.reducerFailed action.name site result.updates source) := by
  rw [perform]
  simp only [ran, stuck]

/-- A row that handles an event was given, and of it the same target is chosen, with its entry
actions chained to it. -/
theorem given_of_handled (defined : draft.definition = .ok definition)
    (made : machine.MadeFrom definition settings) {control event handler : String} {external : Bool}
    {row : Nat}
    (handled : machine.findHandler control event external = some (handler, row)) :
    ∃ given, draft.givenRows[row]? = some given ∧ ∀ site,
      selectTarget machine.settings site (machine.targetsOf row) =
        (selectTarget machine.settings site given.targets).map
        (Option.map (fun guarded =>
          guarded.adorn machine.reducer (draft.entriesAt row guarded.target))) := by
  obtain ⟨ext, reducer, rfl⟩ := MachineDraft.eq_of_definition defined
  have bareMade := MadeFrom.unstarted (draft.withRows ext reducer draft.transitions) settings
  have adorned := adorned_of_madeFrom made bareMade
  obtain ⟨given, listed, targets⟩ :=
    bareMade.exists_row_of_findHandler ((adorned.handler _ _ _).symm.trans handled)
  refine ⟨given, ?_, ?_⟩
  · rw [MachineDraft.givenRows, ← MachineDraft.rows_withRows draft ext reducer]
    exact listed
  · intro site
    rw [adorned.selectTarget_targetsOf, targets, adorned.reducer, adorned.settings]

section

variable (defined : draft.definition = .ok definition) (made : machine.MadeFrom definition settings)
  {runtime : Runtime M} {event handler : String} {data : M.Data} {external : Bool} {row : Nat}
    {given : Transition M}
  {guarded : GuardedTarget M}

include defined made

/-- What choosing among the targets given comes to decides what choosing among those of the
machine comes to. -/
theorem selectTarget_of_selects {result : Except (DispatchError M) (Option (GuardedTarget M))}
    (handled : machine.findHandler runtime.control event external = some (handler, row))
    (listed : draft.givenRows[row]? = some given)
    (selects : Selects machine.settings ⟨runtime.control, event, runtime.ext, data⟩ given.targets
      result) :
    selectTarget machine.settings ⟨runtime.control, event, runtime.ext, data⟩
      (machine.targetsOf row)
      = result.map (Option.map (fun guarded =>
        guarded.adorn machine.reducer (draft.entriesAt row guarded.target))) := by
  obtain ⟨same, sameListed, choice⟩ := given_of_handled defined made handled
  cases listed.symm.trans sameListed
  rw [choice, selects.selectTarget_eq]

/-- What choosing among the targets of the machine comes to is decided by what choosing among
those given comes to. -/
theorem exists_selects {outcome : Except (DispatchError M) (Option (GuardedTarget M))}
    (handled : machine.findHandler runtime.control event external = some (handler, row))
    (chosen : selectTarget machine.settings ⟨runtime.control, event, runtime.ext, data⟩
      (machine.targetsOf row) = outcome) :
    ∃ given result, draft.givenRows[row]? = some given ∧
      Selects machine.settings ⟨runtime.control, event, runtime.ext, data⟩ given.targets result ∧
        result.map (Option.map (fun guarded =>
          guarded.adorn machine.reducer (draft.entriesAt row guarded.target))) = outcome := by
  obtain ⟨given, listed, choice⟩ := given_of_handled defined made handled
  exact ⟨given, _, listed, selectTarget_selects _ _ _, (choice _).symm.trans chosen⟩

/-- Where performing the action of the target taken, with its entry actions, fails, so does the
step. -/
theorem step_of_stopped {error : DispatchError M}
    (handled : machine.findHandler runtime.control event external = some (handler, row))
    (listed : draft.givenRows[row]? = some given)
    (reached : guarded.ReachedIn given.targets machine.settings runtime.ext data)
    (admitted : guarded.Admitted machine.settings runtime.ext data)
    (stopped : machine.perform ⟨runtime.control, event, runtime.ext, data⟩
      (guarded.action.chain machine.reducer (draft.entriesAt row guarded.target)) = .error error) :
    machine.step runtime event data external = .error error := by
  have selects : Selects machine.settings ⟨runtime.control, event, runtime.ext, data⟩
      given.targets _ :=
    .chosen reached admitted
  rw [step_of_chosen handled (selectTarget_of_selects defined made handled listed selects)]
  simp only [GuardedTarget.adorn, stopped]
  rfl

variable (whole : ∀ action, (apart action).action machine.reducer = action)

include whole

/-- A step that fails by a call reports its failure, as one of the action if the reducer failed
between two parts of it. -/
theorem step_of_failsBy {call : FailedCall M}
    (fails : machine.StepFailsBy draft apart runtime event data external call) :
    ∃ error, machine.step runtime event data external = .error error ∧
      error.source? = some call.source ∧
      error.blamed? = some (if call.isBetween then .action else call.kind) := by
  cases fails with
  | @guard handler source row given guarded guard handled listed reached isGuard failed =>
    have selects : Selects machine.settings ⟨runtime.control, event, runtime.ext, data⟩
        given.targets _ :=
      .failed reached isGuard failed
    have chosen := selectTarget_of_selects defined made handled listed selects
    exact ⟨_, (step_of_handled handled).2 _ chosen, rfl, rfl⟩
  | @action handler row given guarded call handled listed reached admitted failed =>
    have ran := failed.run_eq
    rw [MachineDraft.action_composition whole] at ran
    refine ⟨_, step_of_stopped defined made handled listed reached admitted (perform_of_failed ran),
      rfl, ?_⟩
    by_cases between : call.isBetween = true
    · rw [if_pos between]
      rfl
    · rw [if_neg between, failed.kind_eq (Bool.eq_false_iff.mpr between)]
      rfl
  | reducer handled listed reached admitted ran stuck =>
    rw [MachineDraft.action_composition whole] at ran
    exact ⟨_, step_of_stopped defined made handled listed reached admitted
      (perform_of_stuck ran stuck), rfl, rfl⟩

theorem exists_stepFailsBy {error : DispatchError M}
    (failed : machine.step runtime event data external = .error error)
    (blames : error.blamed?.isSome = true) :
    ∃ call, machine.StepFailsBy draft apart runtime event data external call := by
  have ends := machine.step_ends data runtime event external
  rw [failed] at ends
  cases ends with
  | guardFailed handled chosen =>
    obtain ⟨given, result, listed, selects, same⟩ := exists_selects defined made handled chosen
    cases selects with
    | refused _ => cases same
    | chosen _ _ => cases same
    | failed reached isGuard answer => exact ⟨_, .guard handled listed reached isGuard answer⟩
  | @performFailed handler row adorned _ handled chosen performed =>
    obtain ⟨given, result, listed, selects, same⟩ := exists_selects defined made handled chosen
    cases selects with
    | refused _ => cases same
    | failed _ _ _ => cases same
    | @chosen guarded reached admitted =>
      cases same
      -- The target's action has the entry actions chained to it, so it is put together from
      -- parts that are known.
      replace performed : machine.perform ⟨runtime.control, event, runtime.ext, data⟩
        (guarded.action.chain machine.reducer (draft.entriesAt row guarded.target)) =
          .error error := performed
      rw [← MachineDraft.action_composition whole] at performed
      rcases perform_error performed with ⟨source, ran, _⟩ | ⟨result, source, ran, stuck, _⟩
      · obtain ⟨call, fails⟩ := Composition.exists_failsBy ran
        exact ⟨call, .action handled listed reached admitted fails⟩
      · exact ⟨_, .reducer handled listed reached admitted ran stuck⟩
  | enterFailed _ _ _ entered =>
    rw [enter_eq] at entered
    split at entered
    · cases entered
      cases blames
    · cases entered

end

/-- A dispatch fails by a call of its last step. Each step after the first is on the event
raised by the state entered before. -/
structure FailsBy (machine : Machine M) (draft : MachineDraft M) (apart : Action M → Composition M)
    (event : Event M.Data) (earlier : List (TakenStep M)) (last : Runtime M) (pending : String)
    (call : FailedCall M) :
    Prop where
  named : event.name ≠ ""
  chain : Chain machine event.data true machine.runtime event.name earlier last (some pending)
  room : earlier.length ≤ machine.settings.maxCascadeDepth
  fails : machine.StepFailsBy draft apart last pending event.data earlier.isEmpty call

section

variable (defined : draft.definition = .ok definition) (made : machine.MadeFrom definition settings)
  (whole : ∀ action, (apart action).action machine.reducer = action) {event : Event M.Data}

include defined made whole

theorem FailsBy.dispatch_eq {earlier : List (TakenStep M)} {last : Runtime M} {pending : String}
    {call : FailedCall M} (fails : machine.FailsBy draft apart event earlier last pending call) :
    ∃ error, (machine.dispatch event).result = .error error ∧ error.source? = some call.source ∧
      error.blamed? = some (if call.isBetween then .action else call.kind) := by
  obtain ⟨error, failed, source, blamed⟩ := step_of_failsBy defined made whole fails.fails
  exact ⟨error, fails.chain.dispatch_fails fails.named fails.room failed, source, blamed⟩

/-- Only a failed call makes a dispatch blame a callback. -/
theorem exists_failsBy {error : DispatchError M}
    (failed : (machine.dispatch event).result = .error error)
    (blames : error.blamed?.isSome = true) :
    ∃ earlier last pending call, machine.FailsBy draft apart event earlier last pending call := by
  obtain ⟨_, _, ⟨_, rfl⟩ | ⟨named, steps, finished⟩⟩ := dispatch_of_error failed
  · cases blames
  · cases finished with
    | failed chain room stopped =>
      obtain ⟨call, fails⟩ := exists_stepFailsBy defined made whole stopped blames
      exact ⟨steps, _, _, call, named, chain, room, fails⟩
    | exceeded _ _ => cases blames

end

/-- A dispatch that fails by a call reports it, text and kind of callback, and blames no
callback unless a call failed. The one kind that is not told as it is: where the reducer fails
between two parts of an action, the action is blamed. -/
theorem failed_call_blamed_unless_between (draft : MachineDraft M)
    (definition : MachineDefinition M) (settings : Settings) (machine : Machine M)
    (apart : Action M → Composition M) (defined : draft.definition = .ok definition)
    (made : machine.MadeFrom definition settings)
    (whole : ∀ action, (apart action).action machine.reducer = action)
    (event : Event M.Data) :
    (∀ earlier last pending call, machine.FailsBy draft apart event earlier last pending call →
      ∃ error, (machine.dispatch event).result = .error error ∧ error.source? = some call.source ∧
        error.blamed? = some (if call.isBetween then .action else call.kind)) ∧
    ∀ error kind, (machine.dispatch event).result = .error error → error.blamed? = some kind →
      ∃ earlier last pending call, machine.FailsBy draft apart event earlier last pending call ∧
        error.source? = some call.source ∧ kind = if call.isBetween then .action
          else call.kind := by
  constructor
  · intro earlier last pending call fails
    exact fails.dispatch_eq defined made whole
  · intro error kind failed blames
    obtain ⟨earlier, last, pending, call, fails⟩ :=
      exists_failsBy defined made whole failed (Option.isSome_of_eq_some blames)
    obtain ⟨same, sameFailed, source, blamed⟩ := fails.dispatch_eq defined made whole
    cases failed.symm.trans sameFailed
    exact ⟨earlier, last, pending, call, fails, source,
      Option.some_inj.mp (blames.symm.trans blamed)⟩

end Machine

namespace Player

/-- A player that gets stuck easily, with what it does when it is switched on and what it does
on being on. -/
def touchy (own entry : Action model) : MachineDraft model where
  states := [.atomic "Off", .atomic "On"]
  events := ["on"]
  transitions := [.onEvent "Off" "on" (.state "On") own]
  initialState := some "Off"
  initialExt := some (0 : Nat)
  reducer := some strict
  entryActions := [("On", entry)]

def touchyDefinition (own entry : Action model) : MachineDefinition model :=
  (touchy own entry).withRows (0 : Nat) strict
    [.onEvent "Off" "on" (.state "On") (own.andThen entry strict)]

def touchyOff (own entry : Action model) : Machine model :=
  { Machine.unstarted (touchyDefinition own entry) {} with runtime := ⟨"Off", (0 : Nat), .empty⟩ }

theorem touchy_defined (own entry : Action model) :
    (touchy own entry).definition = .ok (touchyDefinition own entry) := by
  rw [MachineDraft.definition_eq rfl rfl]
  rfl

theorem touchyOff_madeFrom (own entry : Action model) :
    (touchyOff own entry).MadeFrom (touchyDefinition own entry) {} :=
  ⟨rfl, rfl, rfl, rfl⟩

/-- The one target there is has no guard to ask. -/
theorem touchyOff_reaches (own : Action model) :
    (⟨none, .state "On", own⟩ : GuardedTarget model).ReachedIn [⟨none, .state "On", own⟩] {}
      (0 : Nat) (0 : Nat) ∧
      (⟨none, .state "On", own⟩ : GuardedTarget model).Admitted {} (0 : Nat) (0 : Nat) :=
  ⟨⟨[], [], rfl, List.forall_mem_nil _⟩, nofun⟩

end Player

namespace Machine

/-- The player that jams on being on: the reducer gets stuck at the updates of the action as a
whole, and is blamed. -/
theorem jam_on_entry_blamed : ∃ error,
    ((Player.touchyOff Player.speedUp Player.jam).dispatch ⟨"on", (0 : Nat)⟩).result =
      .error error ∧ error.source? = some "stuck" ∧ error.blamed? = some .reducer := by
  obtain ⟨reported, _⟩ :=
    failed_call_blamed_unless_between (Player.touchy Player.speedUp Player.jam) _ _
    (Player.touchyOff Player.speedUp Player.jam) .single (Player.touchy_defined _ _)
      (Player.touchyOff_madeFrom _ _)
    (fun _ => rfl) ⟨"on", (0 : Nat)⟩
  obtain ⟨reached, admitted⟩ := Player.touchyOff_reaches Player.speedUp
  have ran :
      (((Player.touchy Player.speedUp Player.jam).composition .single 0
        ⟨none, .state "On", Player.speedUp⟩).action
      Player.strict).run (0 : Nat) (0 : Nat) {} = .ok ⟨[(1 : Nat), (0 : Nat)], some ["faster"]⟩ :=
        rfl
  have stuck : Player.strict (0 : Nat) [(1 : Nat), (0 : Nat)] = .error "stuck" := rfl
  have handled : (Player.touchyOff Player.speedUp Player.jam).findHandler "Off" "on" true =
    some ("Off", 0) := by decide
  have fails : (Player.touchyOff Player.speedUp Player.jam).StepFailsBy
      (Player.touchy Player.speedUp Player.jam) .single
      ⟨"Off", (0 : Nat), .empty⟩ "on" (0 : Nat) true (.reducer [(1 : Nat), (0 : Nat)] "stuck") :=
    .reducer handled rfl reached admitted ran stuck
  exact reported [] _ _ _ ⟨by decide, .start _ _ _, Nat.zero_le _, fails⟩

/-- The player that jams on being switched on: the reducer gets stuck before the next action,
and the action is blamed. -/
theorem not_forall_failed_call_blamed :
    ¬ ∀ (draft : MachineDraft Player.model) (definition : MachineDefinition Player.model)
    (settings : Settings) (machine : Machine Player.model)
    (apart : Action Player.model → Composition Player.model),
    draft.definition = .ok definition → machine.MadeFrom definition settings →
      (∀ action, (apart action).action machine.reducer = action) →
        ∀ event earlier last pending call error,
          machine.FailsBy draft apart event earlier last pending call →
          (machine.dispatch event).result = .error error → error.blamed? = some call.kind := by
  intro always
  obtain ⟨reached, admitted⟩ := Player.touchyOff_reaches Player.jam
  have stuck : ((Player.touchy Player.jam Player.speedUp).composition .single 0
      ⟨none, .state "On", Player.jam⟩).FailsBy
      Player.strict {} (0 : Nat) (0 : Nat) (.between [(0 : Nat)] "stuck") := by
    have ran : Player.jam.run (0 : Nat) (0 : Nat) {} = .ok ⟨[(0 : Nat)], none⟩ := rfl
    have folding : Player.strict (0 : Nat) [(0 : Nat)] = .error "stuck" := rfl
    exact .between ran folding
  have handled : (Player.touchyOff Player.jam Player.speedUp).findHandler "Off" "on" true =
    some ("Off", 0) := by decide
  have fails : (Player.touchyOff Player.jam Player.speedUp).FailsBy
      (Player.touchy Player.jam Player.speedUp) .single
      ⟨"on", (0 : Nat)⟩ [] ⟨"Off", (0 : Nat), .empty⟩ "on" (.between [(0 : Nat)] "stuck") :=
    ⟨by decide, .start _ _ _, Nat.zero_le _, .action handled rfl reached admitted stuck⟩
  obtain ⟨error, failed, _, blamed⟩ :=
    fails.dispatch_eq (Player.touchy_defined _ _) (Player.touchyOff_madeFrom _ _) (fun _ => rfl)
  cases blamed.symm.trans
    (always _ _ _ _ .single (Player.touchy_defined _ _) (Player.touchyOff_madeFrom _ _)
    (fun _ => rfl) _ _ _ _ _ _ fails failed)

end Machine

end Statechart
