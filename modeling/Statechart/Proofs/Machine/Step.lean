import Statechart.Machine.Run
import Statechart.Proofs.Indices.Rows

set_option autoImplicit false

namespace Statechart

variable {M : Model}

namespace Hierarchy

theorem lineage_eq_cons (hierarchy : Hierarchy) (state : String) :
    ∃ above, hierarchy.lineage state = state :: above := by
  unfold lineage chain
  cases hierarchy.parents.find? state with
  | none => exact ⟨[], rfl⟩
  | some parent => exact ⟨_, rfl⟩

end Hierarchy

namespace Machine

theorem selectTarget_eq_none_iff (settings : Settings) (site : CallSite M)
    (targets : List (GuardedTarget M)) :
    selectTarget settings site targets = .ok none ↔
      ∀ guarded ∈ targets, ∃ guard, guarded.guard = some guard ∧
      guard.check site.ext site.data settings = .ok false := by
  induction targets with
  | nil => simp [selectTarget]
  | cons guarded rest ih =>
    rw [selectTarget, List.forall_mem_cons]
    cases condition : guarded.guard with
    | none => simp
    | some guard =>
      cases answer : guard.check site.ext site.data settings with
      | error source => simp [answer]
      | ok holds =>
        cases holds with
        | true => simp [answer]
        | false => simpa [answer] using ih

theorem mem_of_selectTarget {settings : Settings} {site : CallSite M}
    {targets : List (GuardedTarget M)} {guarded : GuardedTarget M}
    (chosen : selectTarget settings site targets = .ok (some guarded)) :
    guarded ∈ targets := by
  induction targets with
  | nil => cases chosen
  | cons first rest ih =>
    rw [selectTarget] at chosen
    cases condition : first.guard with
    | none =>
      rw [condition] at chosen
      cases chosen
      exact List.mem_cons_self
    | some guard =>
      rw [condition] at chosen
      dsimp only at chosen
      cases answer : guard.check site.ext site.data settings with
      | error source =>
        rw [answer] at chosen
        cases chosen
      | ok holds =>
        rw [answer] at chosen
        cases holds with
        | true =>
          cases chosen
          exact List.mem_cons_self
        | false => exact List.mem_cons_of_mem _ (ih chosen)

/-- Choosing a target fails only because a guard failed. -/
theorem guard_of_selectTarget_error {settings : Settings} {site : CallSite M}
    {targets : List (GuardedTarget M)} {error : DispatchError M}
    (failed : selectTarget settings site targets = .error error) :
    ∃ guarded ∈ targets, ∃ guard source, guarded.guard = some guard ∧
      guard.check site.ext site.data settings = .error source ∧
      error = .guardFailed guard.name site source := by
  induction targets with
  | nil => cases failed
  | cons first rest ih =>
    rw [selectTarget] at failed
    cases condition : first.guard with
    | none =>
      rw [condition] at failed
      cases failed
    | some guard =>
      rw [condition] at failed
      dsimp only at failed
      cases answer : guard.check site.ext site.data settings with
      | error source =>
        rw [answer] at failed
        cases failed
        exact ⟨first, List.mem_cons_self, guard, source, condition, answer, rfl⟩
      | ok holds =>
        rw [answer] at failed
        cases holds with
        | true => cases failed
        | false =>
          obtain ⟨guarded, member, rest⟩ := ih failed
          exact ⟨guarded, List.mem_cons_of_mem _ member, rest⟩

/-- An action fails, or the reducer fails on its updates. -/
theorem perform_error {machine : Machine M} {site : CallSite M} {action : Action M}
    {error : DispatchError M} (failed : machine.perform site action = .error error) :
    (∃ source, action.run site.ext site.data machine.settings = .error source ∧
        error = .actionFailed action.name site source) ∨
      ∃ result source, action.run site.ext site.data machine.settings = .ok result ∧
        machine.reducer site.ext result.updates = .error source ∧
          error = .reducerFailed action.name site result.updates source := by
  unfold perform at failed
  cases run : action.run site.ext site.data machine.settings with
  | error source =>
    rw [run] at failed
    cases failed
    exact Or.inl ⟨source, rfl, rfl⟩
  | ok result =>
    rw [run] at failed
    dsimp only at failed
    cases folded : machine.reducer site.ext result.updates with
    | error source =>
      rw [folded] at failed
      cases failed
      exact Or.inr ⟨result, source, rfl, folded, rfl⟩
    | ok ext =>
      rw [folded] at failed
      cases failed

theorem ownHandler_of_cascadeEvent_none {machine : Machine M} {state : String}
    (quiet : machine.cascadeEvent state = none) :
    machine.indices.tables.ownHandler state eventlessKey = none := by
  unfold cascadeEvent at quiet
  split at quiet
  · cases quiet
  · split at quiet
    · cases quiet
    · rename_i silent
      exact Option.not_isSome_iff_eq_none.mp silent

/-- The event raised by entering a state is one that a row of the state itself handles. -/
theorem ownHandler_of_cascadeEvent {machine : Machine M} {state raised : String}
    (raises : machine.cascadeEvent state = some raised) :
    (machine.indices.tables.ownHandler state raised).isSome = true ∧
      (raised = initEvent ∧ machine.indices.hierarchy.isCompound state = true ∨
        raised = eventlessKey) := by
  unfold cascadeEvent at raises
  split at raises
  · rename_i starts
    cases raises
    exact ⟨starts.2, Or.inl ⟨rfl, starts.1⟩⟩
  · split at raises
    · rename_i own
      cases raises
      exact ⟨own, Or.inr rfl⟩
    · cases raises

/-- Entering a target records the exit first, and comes to the state the target then stands for
if that is declared. -/
theorem enter_eq (machine : Machine M) (runtime : Runtime M) (event : String) (target : Target)
    (ext : M.Ext) : machine.enter runtime event target ext =
      if target.resolve (machine.leave runtime) = rootName ∨
          machine.indices.hierarchy.contains (target.resolve (machine.leave runtime)) = false
      then .error (.unknownTarget runtime.control event (target.resolve (machine.leave runtime)))
      else .ok ⟨target.resolve (machine.leave runtime), ext, machine.leave runtime⟩ := by
  unfold enter
  simp only [Bool.not_eq_true']

/-- What is known of a step that was taken: the row that was looked up, the target chosen in it,
what the action came to, and the state entered once the exit was recorded. -/
structure Took (machine : Machine M) (data : M.Data) (runtime : Runtime M) (event : String)
    (external : Bool) (step : TakenStep M) (position : Nat) (guarded : GuardedTarget M) : Prop where
  handled : machine.findHandler runtime.control event external = some (step.handler, position)
  chosen : selectTarget machine.settings ⟨runtime.control, event, runtime.ext, data⟩
    (machine.targetsOf position) = .ok (some guarded)
  performed : machine.perform ⟨runtime.control, event, runtime.ext, data⟩ guarded.action
    = .ok (step.outputs, step.next.ext)
  entered : step.next.control = guarded.target.resolve (machine.leave runtime)
  recorded : step.next.history = machine.leave runtime
  notRoot : step.next.control ≠ rootName
  known : machine.indices.hierarchy.contains step.next.control = true
  origin : step.origin = runtime.control
  event : step.event = event
  guard : step.guard = guarded.guard.map Guard.name
  action : step.action = guarded.action.name

/-- The ways in which a step may end. -/
inductive Ends (machine : Machine M) (data : M.Data) (runtime : Runtime M) (event : String)
    (external : Bool) : Except (DispatchError M) (StepResult M) → Prop where
  | unhandled (handled : machine.findHandler runtime.control event external = none) :
    Ends machine data runtime event external (.ok .unhandled)
  | noGuardSatisfied {handler : String} {position : Nat}
    (handled : machine.findHandler runtime.control event external = some (handler, position))
    (chosen : selectTarget machine.settings ⟨runtime.control, event, runtime.ext, data⟩
      (machine.targetsOf position) = .ok none) :
    Ends machine data runtime event external (.ok .noGuardSatisfied)
  | guardFailed {handler : String} {position : Nat} {error : DispatchError M}
    (handled : machine.findHandler runtime.control event external = some (handler, position))
    (chosen : selectTarget machine.settings ⟨runtime.control, event, runtime.ext, data⟩
      (machine.targetsOf position) = .error error) :
    Ends machine data runtime event external (.error error)
  | performFailed {handler : String} {position : Nat} {guarded : GuardedTarget M}
    {error : DispatchError M}
    (handled : machine.findHandler runtime.control event external = some (handler, position))
    (chosen : selectTarget machine.settings ⟨runtime.control, event, runtime.ext, data⟩
      (machine.targetsOf position) = .ok (some guarded))
    (performed : machine.perform ⟨runtime.control, event, runtime.ext, data⟩ guarded.action =
      .error error) :
    Ends machine data runtime event external (.error error)
  | enterFailed {handler : String} {position : Nat} {guarded : GuardedTarget M}
    {outputs : Option (List M.Output)} {ext : M.Ext} {error : DispatchError M}
    (handled : machine.findHandler runtime.control event external = some (handler, position))
    (chosen : selectTarget machine.settings ⟨runtime.control, event, runtime.ext, data⟩
      (machine.targetsOf position) = .ok (some guarded))
    (performed : machine.perform ⟨runtime.control, event, runtime.ext, data⟩ guarded.action =
      .ok (outputs, ext))
    (entered : machine.enter runtime event guarded.target ext = .error error) :
    Ends machine data runtime event external (.error error)
  | taken {step : TakenStep M} {position : Nat} {guarded : GuardedTarget M}
    (took : Took machine data runtime event external step position guarded) :
    Ends machine data runtime event external (.ok (.taken step))

theorem step_ends (machine : Machine M) (data : M.Data) (runtime : Runtime M) (event : String)
    (external : Bool) :
    Ends machine data runtime event external (machine.step runtime event data external) := by
  unfold step
  cases handled : machine.findHandler runtime.control event external with
  | none => exact Ends.unhandled handled
  | some handler =>
    obtain ⟨handler, position⟩ := handler
    simp only [bind, Except.bind, pure, Except.pure]
    cases chosen : selectTarget machine.settings ⟨runtime.control, event, runtime.ext, data⟩
        (machine.targetsOf position) with
    | error error => exact Ends.guardFailed handled chosen
    | ok choice =>
      cases choice with
      | none => exact Ends.noGuardSatisfied handled chosen
      | some guarded =>
        dsimp only
        cases performed : machine.perform ⟨runtime.control, event, runtime.ext, data⟩ guarded.action
            with
        | error error => exact Ends.performFailed handled chosen performed
        | ok result =>
          obtain ⟨outputs, ext⟩ := result
          dsimp only
          cases entered : machine.enter runtime event guarded.target ext with
          | error error => exact Ends.enterFailed handled chosen performed entered
          | ok next =>
            rw [enter_eq] at entered
            split at entered
            · cases entered
            · rename_i declared
              cases entered
              rw [not_or, Bool.not_eq_false] at declared
              exact Ends.taken
                { handled := handled, chosen := chosen, performed := performed, entered :=
                  rfl, recorded := rfl,
                  notRoot := declared.1, known := declared.2, origin := rfl, event := rfl, guard :=
                    rfl, action := rfl }

theorem findHandler_of_unhandled {machine : Machine M} {data : M.Data} {runtime : Runtime M}
    {event : String} {external : Bool}
    (ended : machine.step runtime event data external = .ok .unhandled) :
    machine.findHandler runtime.control event external = none := by
  have ends := machine.step_ends data runtime event external
  rw [ended] at ends
  cases ends with
  | unhandled handled => exact handled

theorem refused_of_noGuardSatisfied {machine : Machine M} {data : M.Data} {runtime : Runtime M}
    {event : String} {external : Bool}
    (ended : machine.step runtime event data external = .ok .noGuardSatisfied) :
    ∃ handler position, machine.findHandler runtime.control event external =
      some (handler, position) ∧
      selectTarget machine.settings ⟨runtime.control, event, runtime.ext, data⟩
        (machine.targetsOf position) = .ok none := by
  have ends := machine.step_ends data runtime event external
  rw [ended] at ends
  cases ends with
  | noGuardSatisfied handled chosen => exact ⟨_, _, handled, chosen⟩

theorem took_of_step {machine : Machine M} {data : M.Data} {runtime : Runtime M} {event : String}
    {external : Bool} {step : TakenStep M}
    (taken : machine.step runtime event data external = .ok (.taken step)) :
    ∃ position guarded, Took machine data runtime event external step position guarded := by
  have ends := machine.step_ends data runtime event external
  rw [taken] at ends
  cases ends with
  | taken took => exact ⟨_, _, took⟩

end Machine

end Statechart
