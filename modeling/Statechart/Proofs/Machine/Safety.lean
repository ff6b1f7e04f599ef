import Statechart.Proofs.History.Exit
import Statechart.Proofs.Machine.Handler

set_option autoImplicit false

namespace Statechart

open StateNode TakenStep

variable {M : Model} {definition : MachineDefinition M} {settings : Settings} {machine : Machine M}

namespace MachineDefinition

/-- No callback of a definition ever fails. -/
structure Reliable (definition : MachineDefinition M) (settings : Settings) : Prop where
  guards : ∀ row ∈ definition.transitions, ∀ guarded ∈ row.targets, ∀ guard,
    guarded.guard = some guard → ∀ ext data source, guard.check ext data settings ≠ .error source
  actions : ∀ row ∈ definition.transitions, ∀ guarded ∈ row.targets,
    ∀ ext data source, guarded.action.run ext data settings ≠ .error source
  reducer : ∀ ext updates source, definition.reducer ext updates ≠ .error source

theorem mem_rows {row : Transition M} (listed : row ∈ definition.rows) :
    row ∈ definition.transitions ∨ ∃ state, row = .start state := by
  unfold rows at listed
  cases initial : definition.initialState with
  | none =>
    rw [initial] at listed
    exact Or.inl listed
  | some state =>
    rw [initial] at listed
    rcases List.mem_append.mp listed with given | added
    · exact Or.inl given
    · exact Or.inr ⟨state, List.mem_singleton.mp added⟩

/-- The row into the initial state has no guard, and its action does nothing. -/
theorem Reliable.of_rows (reliable : definition.Reliable settings) {row : Transition M}
    {guarded : GuardedTarget M} (listed : row ∈ definition.rows) (inRow : guarded ∈ row.targets) :
    (∀ guard, guarded.guard = some guard → ∀ ext data source,
      guard.check ext data settings ≠ .error source) ∧
      ∀ ext data source, guarded.action.run ext data settings ≠ .error source := by
  rcases mem_rows listed with given | ⟨state, rfl⟩
  · exact ⟨reliable.guards row given guarded inRow, reliable.actions row given guarded inRow⟩
  · cases List.mem_singleton.mp inRow
    refine ⟨?_, ?_⟩
    · intro guard isGuard
      cases isGuard
    · intro ext data source failed
      cases failed

end MachineDefinition

namespace Machine

variable (accepted : definition.Accepted settings) (made : machine.MadeFrom definition settings)

include accepted made

theorem holds_leave {runtime : Runtime M}
    (before : runtime.history.Holds (Declared definition.states)) :
    (machine.leave runtime).Holds (Declared definition.states) := by
  unfold leave
  by_cases inRoot : runtime.control = rootName
  · rw [if_pos inRoot]
    exact before
  · rw [if_neg inRoot, made.indices]
    have around := fun outer =>
      Hierarchy.mem_historyAncestors_iff accepted.distinctNames outer runtime.control
    apply HistoryStore.holds_recordExit before
    · intro nested
      obtain ⟨outer, member⟩ := List.exists_mem_of_ne_nil _ nested
      exact declared_of_encloses ((around outer).mp member)
    · intro outer member
      exact declared_of_compound (compound_of_encloses ((around outer).mp member))

/-- Every target of a row leads to a declared state, by name or by history. -/
theorem declared_of_target {runtime : Runtime M}
    (before : runtime.history.Holds (Declared definition.states)) {position : Nat}
    {guarded : GuardedTarget M} (inRow : guarded ∈ machine.targetsOf position) :
    Declared definition.states (guarded.target.resolve (machine.leave runtime)) := by
  obtain ⟨row, listed, member⟩ := made.mem_targetsOf inRow
  have named := accepted.target_declared listed member
  cases target : guarded.target with
  | state name =>
    rw [target] at named
    exact named
  | history reference =>
    rw [target] at named
    show Declared definition.states
      (((machine.leave runtime).lastVisited reference.mode reference.state).getD reference.state)
    cases visited : (machine.leave runtime).lastVisited reference.mode reference.state with
    | none => exact named
    | some value =>
      exact holds_leave accepted made before reference.mode reference.state value visited

theorem stepsKeep_declared :
    machine.StepsKeep (fun _ runtime => runtime.history.Holds (Declared definition.states)) := by
  intro log runtime event data external step depth before taken
  obtain ⟨_, _, took⟩ := took_of_step taken
  show step.next.history.Holds _
  rw [took.recorded]
  exact holds_leave accepted made before

/-- A step fails only because a callback does. -/
theorem step_error {runtime : Runtime M} {event : String} {data : M.Data} {external : Bool}
    {error : DispatchError M} (before : runtime.history.Holds (Declared definition.states))
    (failed : machine.step runtime event data external = .error error) :
    error.source?.isSome = true ∧ ¬ definition.Reliable settings := by
  have ends := machine.step_ends data runtime event external
  rw [failed] at ends
  cases ends with
  | guardFailed handled chosen =>
    obtain ⟨guarded, inRow, guard, source, isGuard, answer, rfl⟩ :=
      guard_of_selectTarget_error chosen
    refine ⟨rfl, ?_⟩
    intro reliable
    obtain ⟨row, listed, member⟩ := made.mem_targetsOf inRow
    rw [made.settings] at answer
    exact (reliable.of_rows listed member).1 guard isGuard _ _ source answer
  | performFailed handled chosen performed =>
    obtain ⟨row, listed, member⟩ := made.mem_targetsOf (mem_of_selectTarget chosen)
    rcases perform_error performed with ⟨source, run, rfl⟩ | ⟨result, source, _, folded, rfl⟩
    · refine ⟨rfl, ?_⟩
      intro reliable
      rw [made.settings] at run
      exact (reliable.of_rows listed member).2 _ _ source run
    · refine ⟨rfl, ?_⟩
      intro reliable
      rw [made.reducer] at folded
      exact reliable.reducer _ _ source folded
  | enterFailed handled chosen performed entered =>
    have declared := declared_of_target accepted made before (mem_of_selectTarget chosen)
    rw [enter_eq] at entered
    split at entered
    · rename_i unknown
      rcases unknown with isRoot | missing
      · exact absurd isRoot (Hierarchy.ne_root_of_declared accepted.distinctNames declared)
      · rw [made.indices] at missing
        exact absurd ((Hierarchy.contains_iff _).mpr (Or.inr declared))
          (Bool.eq_false_iff.mp missing)
    · cases entered

/-- A dispatch fails because the event has no name, because the limit of a cascade was reached,
or because a callback did. -/
theorem dispatch_error {event : Event M.Data} {error : DispatchError M}
    (before : machine.runtime.history.Holds (Declared definition.states))
    (failed : (machine.dispatch event).result = .error error) :
    (event.name = "" ∧ error = .malformed .emptyName) ∨
      (∃ state, error = .cascadeLimitExceeded state settings.maxCascadeDepth) ∨
        (error.source?.isSome = true ∧ ¬ definition.Reliable settings) := by
  rcases (dispatch_of_error failed).2.2 with nameless | ⟨_, steps, finished⟩
  · exact Or.inl nameless
  · cases finished with
    | failed chain _ stopped =>
      have reached := chain.keeps (stepsKeep_declared accepted made) [] 0 before
      exact Or.inr (Or.inr (step_error accepted made reached stopped))
    | exceeded chain _ => exact Or.inr (Or.inl ⟨_, by rw [made.settings]⟩)

omit made

/-- Creation fails only in its first dispatch, and that only at the limit of a cascade or
because a callback does. -/
theorem create_error {error : BuildError M}
    (failed : (create definition settings).result = .error error) :
    ∃ reason, error = .initialization reason ∧
      ((∃ state, reason = .cascadeLimitExceeded state settings.maxCascadeDepth) ∨
        (reason.source?.isSome = true ∧ ¬ definition.Reliable settings)) := by
  have creates := create_creates definition settings
  generalize create definition settings = creation at creates failed
  cases creates with
  | rejected checked =>
    unfold check at checked
    split at checked
    · exact nomatch checked.symm.trans accepted
    · cases checked
  | noStart checked none => exact absurd none accepted.startRows_ne_nil
  | started checked settled => cases failed
  | @stopped reason checked stopped =>
    cases failed
    refine ⟨reason, rfl, ?_⟩
    rcases dispatch_error accepted (MadeFrom.unstarted definition settings)
      (HistoryStore.holds_empty _) stopped with ⟨nameless, _⟩ | other
    · exact absurd nameless (show initEvent ≠ "" by decide)
    · exact other

theorem dispatch_error_after (created : (create definition settings).result = .ok machine)
    {events : List (Event M.Data)} {event : Event M.Data} {error : DispatchError M}
    (failed : ((machine.after events).dispatch event).result = .error error) :
    (event.name = "" ∧ error = .malformed .emptyName) ∨
      (∃ state, error = .cascadeLimitExceeded state settings.maxCascadeDepth) ∨
        (error.source?.isSome = true ∧ ¬ definition.Reliable settings) := by
  have before : (machine.after events).runtime.history.Holds (Declared definition.states) := by
    refine created_keeps (fun _ runtime => runtime.history.Holds (Declared definition.states))
      created (HistoryStore.holds_empty _) ?_ events
    intro machine event log made before
    exact dispatch_keeps (stepsKeep_declared accepted made) event log before
  exact dispatch_error accepted ((MadeFrom.created created).after events) before failed

/-- Machines of accepted definitions do not go wrong: the row that starts them is there, no
target is unknown to them, and if no callback fails then only the limit of a cascade stops them.
-/
theorem accepted_does_not_go_wrong :
    (create definition settings).result ≠ .error .missingInitialTransition ∧
      (∀ state event target, (create definition settings).result
        ≠ .error (.initialization (.unknownTarget state event target))) ∧
      (∀ machine, (create definition settings).result = .ok machine →
        ∀ events event state name target,
        ((machine.after events).dispatch event).result ≠
          .error (.unknownTarget state name target)) ∧
      (definition.Reliable settings →
        (∀ error, (create definition settings).result = .error error →
          ∃ state, error = .initialization (.cascadeLimitExceeded state settings.maxCascadeDepth)) ∧
        ∀ machine, (create definition settings).result = .ok machine →
          ∀ events event error, event.name ≠ "" →
          ((machine.after events).dispatch event).result = .error error →
            ∃ state, error = .cascadeLimitExceeded state settings.maxCascadeDepth) := by
  refine ⟨?_, ?_, ?_, ?_⟩
  · intro missing
    obtain ⟨_, isInitialization, _⟩ := create_error accepted missing
    cases isInitialization
  · intro state event target unknown
    obtain ⟨_, isInitialization, reason⟩ := create_error accepted unknown
    cases isInitialization
    rcases reason with ⟨_, isLimit⟩ | ⟨isCallback, _⟩
    · cases isLimit
    · cases isCallback
  · intro machine created events event state name target unknown
    rcases dispatch_error_after accepted created unknown
      with ⟨_, isMalformed⟩ | ⟨_, isLimit⟩ | ⟨isCallback, _⟩
    · cases isMalformed
    · cases isLimit
    · cases isCallback
  · intro reliable
    refine ⟨?_, ?_⟩
    · intro error failed
      obtain ⟨_, rfl, reason⟩ := create_error accepted failed
      rcases reason with ⟨state, rfl⟩ | ⟨_, unreliable⟩
      · exact ⟨state, rfl⟩
      · exact absurd reliable unreliable
    · intro machine created events event error named failed
      rcases dispatch_error_after accepted created failed
        with ⟨nameless, _⟩ | isLimit | ⟨_, unreliable⟩
      · exact absurd nameless named
      · exact isLimit
      · exact absurd reliable unreliable

omit accepted

end Machine

namespace Player

/-- The one guard of the player, and its one action that does something. -/
theorem callbacks : ∀ row ∈ Player.definition.transitions, ∀ guarded ∈ row.targets,
    (guarded.guard = none ∨ guarded.guard = some tired) ∧
    (guarded.action = .identity ∨ guarded.action = speedUp) := by
  simp [Player.definition, Transition.plain, Transition.onEvent, Transition.automatic,
    GuardedTarget.always, GuardedTarget.when]

end Player

namespace Machine

/-- The callbacks of the player never fail, so only a chain of more than a hundred steps could
stop it. -/
theorem player_does_not_go_wrong : Player.definition.Reliable {} ∧
    ∀ events event error, event.name ≠ "" →
      ((Player.machine.after events).dispatch event).result = .error error →
      ∃ state, error = .cascadeLimitExceeded state 100 := by
  have reliable : Player.definition.Reliable {} := by
    refine ⟨?_, ?_, ?_⟩
    · intro row listed guarded inRow guard isGuard ext data source failed
      rcases (Player.callbacks row listed guarded inRow).1 with none | same
      · cases none.symm.trans isGuard
      · cases same.symm.trans isGuard
        cases failed
    · intro row listed guarded inRow ext data source failed
      rcases (Player.callbacks row listed guarded inRow).2 with same | same
      · rw [same] at failed
        cases failed
      · rw [same] at failed
        cases failed
    · intro ext updates source failed
      cases failed
  exact ⟨reliable, ((accepted_does_not_go_wrong Player.accepted).2.2.2 reliable).2 Player.machine
    Player.created⟩

end Machine

end Statechart
