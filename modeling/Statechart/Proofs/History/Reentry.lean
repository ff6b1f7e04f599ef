import Statechart.Proofs.History.Run
import Statechart.Proofs.Machine.Rest
import Statechart.Proofs.Machine.Taken

set_option autoImplicit false

namespace Statechart

open StateNode TakenStep

variable {M : Model} {definition : MachineDefinition M} {settings : Settings} {machine : Machine M}
  {states : List StateNode}

/-- What a mode brings back of a compound state, if the given state was the last one left inside
it: that state itself, or the child that is it or holds it. -/
def HistoryMode.Restores (states : List StateNode) (outer inner entered : String) :
    HistoryMode → Prop
  | .deep => entered = inner
  | .shallow => IsParent states outer entered ∧ (entered = inner ∨ Encloses states entered inner)

namespace HistoryStore

section

variable (distinct : DistinctNames states)

include distinct

theorem restores_resolve {left : List String} {reference : HistoryTarget} {inner : String}
    (last : IsLast (Encloses states reference.state) left inner) :
    reference.mode.Restores states reference.state inner
      ((replay (.ofStates states) left).resolve reference) := by
  obtain ⟨mode, outer⟩ := reference
  unfold resolve
  cases mode with
  | deep =>
    rw [(lastVisited_deep_replay distinct left outer inner).mpr last]
    rfl
  | shallow =>
    obtain ⟨_, _, _, holds, _⟩ := id last
    obtain ⟨child, direct, near⟩ := exists_child_of_encloses holds
    rw [(lastVisited_shallow_replay distinct left outer child).mpr ⟨inner, last, direct, near⟩]
    exact ⟨direct, near⟩

theorem resolve_eq_of_never_left {left : List String} {reference : HistoryTarget}
    (never : ∀ inner ∈ left, ¬ Encloses states reference.state inner) :
    (replay (.ofStates states) left).resolve reference = reference.state := by
  rw [resolve, (lastVisited_replay_eq_none distinct left reference.mode reference.state).mpr never]
  rfl

end

/-- Wherever a state inside another one was left, the last one left there is atomic, unless the
machine is inside still. An exit leaves the name of a compound state behind wherever its init is
taken, but a reference from outside never meets such a name. -/
def LeftForGood (states : List StateNode) (left : List String) (control : String) : Prop :=
  ∀ outer inner, IsLast (Encloses states outer) left inner →
    DeclaredAtomic states inner ∨ Encloses states outer control

/-- A compound state may be left for a state inside it only. -/
theorem LeftForGood.leave {left : List String} {control next : String}
    (distinct : DistinctNames states) (before : LeftForGood states left control)
    (onward : DeclaredCompound states control → Encloses states control next) :
    LeftForGood states (left ++ [control]) next := by
  intro outer inner last
  rcases (isLast_concat_iff control).mp last with ⟨encloses, rfl⟩ | ⟨outside, earlier⟩
  · by_cases compound : DeclaredCompound states inner
    · exact Or.inr (Hierarchy.encloses_trans distinct encloses (onward compound))
    · exact Or.inl (atomic_of_not_compound (declared_of_encloses encloses) compound)
  · rcases before outer inner earlier with atomic | inside
    · exact Or.inl atomic
    · exact absurd inside outside

end HistoryStore

namespace Machine

open HistoryStore

/-- What a runtime knows of the transitions that led to it: its history is the replay of the
exits, and no exit of a compound state was for good. -/
structure Remembers (definition : MachineDefinition M) (log : List TraceKind)
    (runtime : Runtime M) : Prop where
  history : runtime.history = replay (.ofStates definition.states) (statesLeft log)
  forGood : LeftForGood definition.states (statesLeft log) runtime.control

section

variable (accepted : definition.Accepted settings) (made : machine.MadeFrom definition settings)

include accepted made

/-- Init raised in a compound state takes the one target of the row that enters the state. -/
theorem Took.initializes {data : M.Data} {runtime : Runtime M} {step : TakenStep M} {position : Nat}
    {guarded : GuardedTarget M}
    (took : Took machine data runtime initEvent false step position guarded)
    (compound : DeclaredCompound definition.states runtime.control) :
    ∃ row inner, definition.Initializes runtime.control row guarded inner := by
  obtain ⟨notRoot, own, row, only, inner, init, filed, targets⟩ :=
    own_init_of_compound accepted made compound
  obtain ⟨_, rfl⟩ := Prod.mk.inj
    (Option.some.inj ((findHandler_of_ownHandler notRoot filed).symm.trans took.handled))
  have member := mem_of_selectTarget took.chosen
  rw [targets, List.mem_singleton] at member
  exact ⟨row, inner, member ▸ init⟩

/-- Init raised in a compound state leads into it. -/
theorem encloses_of_init {data : M.Data} {runtime : Runtime M} {step : TakenStep M} {position : Nat}
    {guarded : GuardedTarget M}
    (took : Took machine data runtime initEvent false step position guarded)
    (compound : DeclaredCompound definition.states runtime.control) :
    Encloses definition.states runtime.control step.next.control := by
  obtain ⟨_, _, init⟩ := took.initializes accepted made compound
  rw [took.entered, init.goal]
  exact init.inside

theorem Took.remembers {data : M.Data} {runtime : Runtime M} {event : String} {external : Bool}
    {step : TakenStep M} {position : Nat} {guarded : GuardedTarget M} {log : List TraceKind}
    (took : Took machine data runtime event external step position guarded)
    (ready : DeclaredCompound definition.states runtime.control →
      event = initEvent ∧ external = false)
    (before : Remembers definition log runtime) (depth : Nat) :
    Remembers definition (log ++ [step.report depth]) step.next where
  history := took.history_eq accepted.distinctNames made before.history depth
  forGood := by
    rw [statesLeft_concat, took.origin]
    apply before.forGood.leave accepted.distinctNames
    intro compound
    obtain ⟨rfl, rfl⟩ := ready compound
    exact encloses_of_init accepted made took compound

/-- Along a chain of steps a compound state is only ever left on the init that entering it
raised. -/
theorem Chain.remembers {data : M.Data} {external : Bool} {runtime last : Runtime M}
    {event : String} {steps : List (TakenStep M)} {pending : Option String}
    (chain : Chain machine data external runtime event steps last pending)
    (ready : DeclaredCompound definition.states runtime.control →
      event = initEvent ∧ external = false)
    {log : List TraceKind} (before : Remembers definition log runtime) (depth : Nat) :
    Remembers definition (log ++ reports depth steps) last := by
  induction chain generalizing log depth with
  | start external runtime event =>
    rw [reports, List.append_nil]
    exact before
  | rest taken quiet =>
    obtain ⟨_, _, took⟩ := took_of_step taken
    exact took.remembers accepted made ready before depth
  | @follow external runtime event step raised steps last pending taken raises onward ih =>
    obtain ⟨_, _, took⟩ := took_of_step taken
    have next : DeclaredCompound definition.states step.next.control →
        raised = initEvent ∧ false = false := by
      intro compound
      rw [cascadeEvent_of_compound accepted made compound] at raises
      exact ⟨(Option.some.inj raises).symm, rfl⟩
    rw [reports, List.append_cons]
    exact ih next (took.remembers accepted made ready before depth) (depth + 1)

end

/-- The dispatches of a run, each with the transitions committed before it: the one by which the
machine is created, and one for every event after that. -/
inductive Dispatches (definition : MachineDefinition M) (settings : Settings) :
    List TraceKind → Machine M → Event M.Data → Prop where
  | creation : Dispatches definition settings [] (unstarted definition settings)
      ⟨initEvent, M.noData⟩
  | run {machine : Machine M} (created : (create definition settings).result = .ok machine)
    (events : List (Event M.Data)) (event : Event M.Data) :
    Dispatches definition settings
      ((create definition settings).committed ++ machine.committed events)
      (machine.after events) event

namespace Dispatches

variable {log : List TraceKind} {event : Event M.Data}

theorem madeFrom (dispatches : Dispatches definition settings log machine event) :
    machine.MadeFrom definition settings := by
  cases dispatches with
  | creation => exact MadeFrom.unstarted definition settings
  | run created events event => exact (MadeFrom.created created).after events

theorem begins (accepted : definition.Accepted settings)
    (dispatches : Dispatches definition settings log machine event) :
    ¬ DeclaredCompound definition.states machine.runtime.control ∧
    Remembers definition log machine.runtime := by
  have first : ¬ DeclaredCompound definition.states rootName ∧
      Remembers definition [] (⟨rootName, definition.initialExt, .empty⟩ : Runtime M) := by
    refine ⟨?_, rfl, ?_⟩
    · intro compound
      exact Hierarchy.ne_root_of_declared accepted.distinctNames (declared_of_compound compound) rfl
    · intro outer inner last
      obtain ⟨_, member, _⟩ := exists_isLast_iff.mp ⟨inner, last⟩
      cases member
  cases dispatches with
  | creation => exact first
  | run created events event =>
    refine created_keeps (fun log runtime => ¬ DeclaredCompound definition.states runtime.control ∧
      Remembers definition log runtime) created first ?_ events
    intro machine event log made before
    cases result : (machine.dispatch event).result with
    | error error =>
      obtain ⟨same, committed, _⟩ := dispatch_of_error result
      rw [same, committed, List.append_nil]
      exact before
    | ok outcome =>
      obtain ⟨steps, last, finished, same, committed⟩ := dispatch_of_ok result
      obtain ⟨_, chain⟩ := finished.exists_chain
      have known := chain.remembers accepted made
        (fun compound => absurd compound before.1) before.2 0
      rw [same, committed]
      refine ⟨?_, known⟩
      by_cases moved : steps = []
      · subst moved
        rw [finished.of_nil.1]
        exact before.1
      · exact Hierarchy.not_compound_of_atomic accepted.distinctNames
          (rests_of_finishes accepted made finished moved).1

end Dispatches

/-- A dispatch goes on with the init of the state that was entered: its row that enters it is
taken, or the action of that or the reducer fails on it, and so does the dispatch. -/
def GoesOnWithInit (definition : MachineDefinition M) (machine : Machine M) (event : Event M.Data)
    (steps : List (TakenStep M)) (runtime : Runtime M) : Prop :=
  ∃ row guarded inner, definition.Initializes runtime.control row guarded inner ∧
    ((∃ next, machine.Takes event steps runtime next guarded ∧ next.event = initEvent ∧
        next.handler = runtime.control ∧ next.next.control = inner) ∨
      ∃ error, machine.perform ⟨runtime.control, initEvent, runtime.ext, event.data⟩
        guarded.action = .error error ∧ (machine.dispatch event).result = .error error)

/-- How a transition through a reference to history enters, given the states that were left
before it. -/
structure Reenters (definition : MachineDefinition M) (machine : Machine M) (event : Event M.Data)
    (left : List String) (earlier : List (TakenStep M)) (step : TakenStep M)
    (reference : HistoryTarget) : Prop where
  /-- From inside the compound state it goes back to where it comes from. -/
  inside : Encloses definition.states reference.state step.origin →
    reference.mode.Restores definition.states reference.state step.origin step.next.control
  /-- From outside it goes back to the state last left inside, which is atomic; so if that is
  entered itself no init follows. -/
  outside : ¬ Encloses definition.states reference.state step.origin →
    ∀ inner, IsLast (Encloses definition.states reference.state) left inner →
      DeclaredAtomic definition.states inner ∧
        reference.mode.Restores definition.states reference.state inner step.next.control ∧
        (reference.mode = .deep → machine.cascadeEvent step.next.control ≠ some initEvent)
  /-- If no state inside was ever left it enters the compound state itself, whose init is next
  if a further step may follow. -/
  fresh : ¬ Encloses definition.states reference.state step.origin →
    (∀ inner ∈ left, ¬ Encloses definition.states reference.state inner) →
      step.next.control = reference.state ∧
        (earlier.length < machine.settings.maxCascadeDepth →
          GoesOnWithInit definition machine event (earlier ++ [step]) step.next) ∧
        (earlier.length = machine.settings.maxCascadeDepth → (machine.dispatch event).result
          = .error (.cascadeLimitExceeded reference.state machine.settings.maxCascadeDepth))

section

variable (accepted : definition.Accepted settings) (made : machine.MadeFrom definition settings)

include accepted made

/-- Whatever enters a compound state, its init follows. -/
theorem Takes.goesOnWithInit {event : Event M.Data} {earlier : List (TakenStep M)}
    {before : Runtime M} {step : TakenStep M} {guarded : GuardedTarget M}
    (takes : machine.Takes event earlier before step guarded)
    (compound : DeclaredCompound definition.states step.next.control)
    (room : earlier.length < machine.settings.maxCascadeDepth) :
    GoesOnWithInit definition machine event (earlier ++ [step]) step.next := by
  obtain ⟨notRoot, position, row, only, inner, init, own, targets⟩ :=
    own_init_of_compound accepted made compound
  refine ⟨row, only, inner, init, ?_⟩
  have found := findHandler_of_ownHandler notRoot own
  have chain := takes.chain_concat
  rw [cascadeEvent_of_compound accepted made compound] at chain
  have bound : (earlier ++ [step]).length ≤ machine.settings.maxCascadeDepth := by
    rw [List.length_append]
    exact room
  have later : (earlier ++ [step]).isEmpty = false := by simp
  have choice : selectTarget machine.settings
      ⟨step.next.control, initEvent, step.next.ext, event.data⟩
      (machine.targetsOf position) = .ok (some only) := by
    rw [targets, selectTarget, init.unguarded]
  have ends := machine.step_ends event.data step.next initEvent false
  generalize came : machine.step step.next initEvent event.data false = result at ends
  have fails {error : DispatchError M}
      (failed : machine.step step.next initEvent event.data false = .error error) :
      (machine.dispatch event).result = .error error :=
    chain.dispatch_fails takes.named bound (later ▸ failed)
  cases ends with
  | unhandled handled => cases found.symm.trans handled
  | noGuardSatisfied handled chosen =>
    cases found.symm.trans handled
    cases choice.symm.trans chosen
  | guardFailed handled chosen =>
    cases found.symm.trans handled
    cases choice.symm.trans chosen
  | @performFailed _ _ _ error handled chosen performed =>
    cases found.symm.trans handled
    cases choice.symm.trans chosen
    exact Or.inr ⟨error, performed, fails came⟩
  | enterFailed handled chosen performed entered =>
    cases found.symm.trans handled
    cases choice.symm.trans chosen
    -- The state that the row leads to is declared, so it can be entered.
    have declared := declared_of_encloses init.inside
    rw [enter_eq, init.goal, if_neg] at entered
    · cases entered
    · rw [not_or, Bool.not_eq_false, made.indices]
      exact ⟨Hierarchy.ne_root_of_declared accepted.distinctNames declared,
        (Hierarchy.contains_iff inner).mpr (Or.inr declared)⟩
  | @taken next _ _ took =>
    obtain ⟨handler, rfl⟩ := Prod.mk.inj (Option.some.inj (found.symm.trans took.handled))
    cases choice.symm.trans took.chosen
    refine Or.inl ⟨next, ?_, took.event, handler.symm, ?_⟩
    · exact
        { named := takes.named, bound := bound, chain := took.event.symm ▸ chain,
          taken := by rw [later, took.event]; exact came
          chosen := ⟨position, by rw [later, took.event]; exact took⟩ }
    · rw [took.entered, init.goal]
      rfl

theorem cascadeEvent_ne_init_of_atomic {name : String}
    (atomic : DeclaredAtomic definition.states name) :
    machine.cascadeEvent name ≠ some initEvent := by
  intro raises
  rcases (ownHandler_of_cascadeEvent raises).2 with ⟨_, indexed⟩ | isEventless
  · have notRoot := Hierarchy.ne_root_of_declared accepted.distinctNames (declared_of_atomic atomic)
    exact Hierarchy.not_compound_of_atomic accepted.distinctNames atomic
      ((isCompound_iff accepted made notRoot).mp indexed)
  · exact absurd isEventless (by decide)

omit made

/-- Every transition through history brings back what the run was last in, whatever happened
since outside, and enters the compound state by its init if the run was never inside. -/
theorem reenters_through_history {log : List TraceKind} {event : Event M.Data}
    (dispatches : Dispatches definition settings log machine event) {earlier : List (TakenStep M)}
    {before : Runtime M} {step : TakenStep M} {guarded : GuardedTarget M}
    {reference : HistoryTarget} (takes : machine.Takes event earlier before step guarded)
    (through : guarded.target = .history reference) :
    Reenters definition machine event (statesLeft (log ++ reports 0 earlier)) earlier step
      reference := by
  have distinct := accepted.distinctNames
  have made := dispatches.madeFrom
  obtain ⟨notCompound, begun⟩ := dispatches.begins accepted
  have known := takes.chain.remembers accepted made
    (fun compound => absurd compound notCompound) begun 0
  obtain ⟨position, took⟩ := takes.chosen
  have entered : step.next.control = (replay (.ofStates definition.states)
      (statesLeft (log ++ reports 0 earlier) ++ [step.origin])).resolve reference := by
    rw [took.entered, through, ← took.recorded, took.history_eq distinct made known.history 0,
      statesLeft_concat]
    rfl
  refine ⟨?_, ?_, ?_⟩
  · intro inside
    rw [entered]
    exact restores_resolve distinct ((isLast_concat_iff step.origin).mpr (Or.inl ⟨inside, rfl⟩))
  · intro outside inner last
    have atomic : DeclaredAtomic definition.states inner := by
      rcases known.forGood reference.state inner last with atomic | inside
      · exact atomic
      · exact absurd (took.origin.symm ▸ inside) outside
    have restored := restores_resolve distinct
      ((isLast_concat_iff step.origin).mpr (Or.inr ⟨outside, last⟩))
    rw [← entered] at restored
    refine ⟨atomic, restored, ?_⟩
    intro deep
    rw [deep] at restored
    rw [show step.next.control = inner from restored]
    exact cascadeEvent_ne_init_of_atomic accepted made atomic
  · intro outside never
    have fresh : step.next.control = reference.state := by
      rw [entered]
      apply resolve_eq_of_never_left distinct
      intro inner member
      rcases List.mem_append.mp member with earlierLeft | last
      · exact never inner earlierLeft
      · rw [List.mem_singleton.mp last]
        exact outside
    obtain ⟨row, listed, inRow⟩ := made.mem_targetsOf (mem_of_selectTarget took.chosen)
    have compound := accepted.history_compound listed inRow (by rw [through]; rfl)
    rw [through] at compound
    have compound : DeclaredCompound definition.states step.next.control := fresh ▸ compound
    refine ⟨fresh, takes.goesOnWithInit accepted made compound, ?_⟩
    intro last
    rw [← fresh]
    exact takes.dispatch_exceeds last (cascadeEvent_of_compound accepted made compound)

end

end Machine

def Player.switchedOff : Machine Player.model :=
  Player.machine.after [Player.press "on", Player.press "speed", Player.press "pause",
    Player.press "off"]

namespace Machine

/-- Paused while playing fast, then switched off and on again, the player is paused, though its
exits left the names of the compound states it passed through. -/
theorem player_reenters :
    ∃ step guarded, Player.switchedOff.Takes (Player.press "on")
      [] Player.switchedOff.runtime step guarded ∧
      guarded.target = .history ⟨.deep, "On"⟩ ∧ step.next.control = "Paused" ∧
        Reenters Player.definition Player.switchedOff (Player.press "on")
          ["nok", "Off", "On", "Playing", "Slow", "Fast", "Paused"] [] step ⟨.deep, "On"⟩ := by
  have taken : Player.switchedOff.step Player.switchedOff.runtime "on" (0 : Nat) true = .ok (.taken
      ⟨"Off", "on", "Off", none, "identity", none,
        ⟨"Paused", (1 : Nat), Player.switchedOff.leave Player.switchedOff.runtime⟩⟩) := by rfl
  obtain ⟨guarded, takes⟩ :=
    takes_of_step (show (Player.press "on").name ≠ "" by decide) (Nat.zero_le _)
    (Chain.start true Player.switchedOff.runtime "on") taken
  have through : guarded.target = .history ⟨.deep, "On"⟩ := by
    obtain ⟨position, took⟩ := takes.chosen
    have found : Player.switchedOff.findHandler "Off" "on" true = some ("Off", 2) := by rfl
    obtain ⟨_, rfl⟩ := Prod.mk.inj (Option.some.inj (found.symm.trans took.handled))
    cases took.chosen
    rfl
  have left : statesLeft ((create Player.definition {}).committed ++ Player.machine.committed
      [Player.press "on", Player.press "speed", Player.press "pause", Player.press "off"])
      = ["nok", "Off", "On", "Playing", "Slow", "Fast", "Paused"] := by decide +kernel
  have reenters := reenters_through_history Player.accepted
    (.run Player.created _ (Player.press "on")) takes through
  rw [reports, List.append_nil, left] at reenters
  exact ⟨_, guarded, takes, through, rfl, reenters⟩

end Machine

end Statechart
