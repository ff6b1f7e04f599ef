import Statechart.Proofs.Contract.WellFormed
import Statechart.Proofs.Machine.Handler

set_option autoImplicit false

namespace Statechart

open StateNode TakenStep

variable {M : Model} {definition : MachineDefinition M} {settings : Settings} {machine : Machine M}

namespace Machine

variable (accepted : definition.Accepted settings) (made : machine.MadeFrom definition settings)

include accepted made

theorem isCompound_iff {name : String} (notRoot : name ≠ rootName) :
    machine.indices.hierarchy.isCompound name = true ↔ DeclaredCompound definition.states name := by
  rw [made.indices]
  exact Hierarchy.isCompound_iff accepted.distinctNames notRoot

theorem own_init_of_compound {name : String} (compound : DeclaredCompound definition.states name) :
    name ≠ rootName ∧ ∃ position row guarded inner, definition.Initializes name row guarded inner ∧
      machine.indices.tables.ownHandler name initEvent = some position ∧
      machine.targetsOf position = [guarded] := by
  obtain ⟨row, guarded, inner, init⟩ := accepted.hasInit compound
  have notRoot := Hierarchy.ne_root_of_declared accepted.distinctNames
    (declared_of_compound compound)
  have key : row.eventKey = initEvent := (Transition.eventKey_eq_iff (by decide)).mpr init.event
  have handles := made.ownHandler_isSome init.listed (init.origin ▸ notRoot)
  rw [init.origin, key] at handles
  obtain ⟨position, own⟩ := Option.isSome_iff_exists.mp handles
  obtain ⟨ownRow, placed, ownNotRoot, ownOrigin, ownKey⟩ := made.row_of_ownHandler own
  have same := accepted.row_unique (List.mem_of_getElem? placed) init.listed ownNotRoot
    (init.origin.trans ownOrigin.symm) (key.trans ownKey.symm)
  refine ⟨notRoot, position, row, guarded, inner, init, own, ?_⟩
  rw [made.targetsOf_eq placed, ← same, init.alone]

theorem cascadeEvent_of_compound {name : String}
    (compound : DeclaredCompound definition.states name) :
    machine.cascadeEvent name = some initEvent := by
  obtain ⟨notRoot, _, _, _, _, _, own, _⟩ := own_init_of_compound accepted made compound
  rw [cascadeEvent, own, if_pos ⟨(isCompound_iff accepted made notRoot).mpr compound, rfl⟩]

/-- Init raised in a compound state chooses a target. -/
theorem selectTarget_ne_none_of_compound {name handler : String} {position : Nat}
    {site : CallSite M} (compound : DeclaredCompound definition.states name)
    (found : machine.findHandler name initEvent false = some (handler, position)) :
    selectTarget machine.settings site (machine.targetsOf position) ≠ .ok none := by
  obtain ⟨notRoot, initPosition, _, guarded, _, init, own, targets⟩ :=
    own_init_of_compound accepted made compound
  rw [findHandler_of_ownHandler notRoot own] at found
  cases found
  intro refused
  rw [selectTarget_eq_none_iff, targets] at refused
  obtain ⟨guard, isGuard, _⟩ := refused guarded (List.mem_singleton_self guarded)
  rw [init.unguarded] at isGuard
  cases isGuard

/-- Where the row without an event of a state was refused, none may be taken. -/
theorem quiescent_of_refused {runtime : Runtime M} {data : M.Data} {handler : String}
    {position : Nat} (notRoot : runtime.control ≠ rootName)
    (own : (machine.indices.tables.ownHandler runtime.control eventlessKey).isSome = true)
    (found : machine.findHandler runtime.control eventlessKey false = some (handler, position))
    (refused : selectTarget machine.settings ⟨runtime.control, eventlessKey, runtime.ext, data⟩
      (machine.targetsOf position) = .ok none) :
    Quiescent { machine with runtime := runtime } data := by
  obtain ⟨ownPosition, ownFound⟩ := Option.isSome_iff_exists.mp own
  rw [findHandler_of_ownHandler notRoot ownFound] at found
  cases found
  obtain ⟨ownRow, placed, ownNotRoot, ownOrigin, ownKey⟩ := made.row_of_ownHandler ownFound
  intro row listed origin eventless
  have listed : row ∈ definition.rows := made.transitions ▸ listed
  have same := accepted.row_unique (List.mem_of_getElem? placed) listed ownNotRoot
    (origin.trans ownOrigin.symm) ((Transition.eventKey_of_eventless eventless).trans ownKey.symm)
  rw [made.targetsOf_eq placed, ← same, selectTarget_eq_none_iff] at refused
  exact refused

/-- A dispatch that took a step and succeeded rests in an atomic state from which nothing more
is taken. -/
theorem rests_of_finishes {data : M.Data} {room : Nat} {external : Bool} {runtime last : Runtime M}
    {event : String} {steps : List (TakenStep M)} {outcome : DispatchOutcome M.Output}
    (finished : Finishes machine data room external runtime event steps (.ok (outcome, last)))
    (moved : steps ≠ []) :
    DeclaredAtomic definition.states last.control ∧
    Quiescent { machine with runtime := last } data := by
  -- The state entered last is declared, so it is enough that it is not compound.
  have atomic {pending : Option String}
      (chain : Chain machine data external runtime event steps last pending)
      (simple : ¬ DeclaredCompound definition.states last.control) :
      DeclaredAtomic definition.states last.control := by
    obtain ⟨notRoot, known⟩ := chain.entered moved
    exact atomic_of_not_compound (made.declared_of_contains notRoot known) simple
  have notExternal : (external && steps.isEmpty) = false := by
    cases steps with
    | nil => exact absurd rfl moved
    | cons step rest => exact Bool.and_false external
  cases finished with
  | rested chain _ =>
    have quiet := chain.raised moved
    refine ⟨atomic chain ?_, made.quiescent_of_silent data (chain.entered moved).1
      (ownHandler_of_cascadeEvent_none quiet)⟩
    intro compound
    rw [cascadeEvent_of_compound accepted made compound] at quiet
    cases quiet
  | @unhandled last pending chain _ stopped =>
    -- What is raised is handled by a row of the state itself.
    obtain ⟨_, _, found⟩ := findHandler_of_cascadeEvent (chain.entered moved).1 (chain.raised moved)
    have missing := findHandler_of_unhandled stopped
    rw [notExternal] at missing
    cases found.symm.trans missing
  | @noGuardSatisfied last pending chain _ stopped =>
    obtain ⟨handler, position, found, refused⟩ := refused_of_noGuardSatisfied stopped
    rw [notExternal] at found
    have simple : ¬ DeclaredCompound definition.states last.control := by
      intro compound
      have init := (chain.raised moved).symm.trans (cascadeEvent_of_compound accepted made compound)
      cases init
      exact selectTarget_ne_none_of_compound accepted made compound found refused
    refine ⟨atomic chain simple, ?_⟩
    obtain ⟨own, kind⟩ := ownHandler_of_cascadeEvent (chain.raised moved)
    rcases kind with ⟨_, isCompound⟩ | rfl
    · exact absurd ((isCompound_iff accepted made (chain.entered moved).1).mp isCompound) simple
    · exact quiescent_of_refused accepted made (chain.entered moved).1 own found refused

/-- A dispatch that succeeds either commits nothing and changes nothing, or comes to rest. -/
theorem dispatch_rests {event : Event M.Data} {outcome : DispatchOutcome M.Output}
    (settled : (machine.dispatch event).result = .ok outcome) :
    ((machine.dispatch event).committed = [] ∧
        (machine.dispatch event).machine.runtime = machine.runtime ∧
        outcome.isTransitioned = false) ∨
      (machine.dispatch event).committed ≠ [] ∧
        DeclaredAtomic definition.states (machine.dispatch event).machine.runtime.control ∧
          (machine.dispatch event).machine.Quiescent event.data := by
  obtain ⟨steps, last, finished, same, committed⟩ := dispatch_of_ok settled
  rw [same, committed]
  by_cases moved : steps = []
  · subst moved
    exact Or.inl ⟨rfl, finished.of_nil⟩
  · refine Or.inr ⟨?_, rests_of_finishes accepted made finished moved⟩
    intro none
    exact moved ((reports_eq_nil_iff 0 steps).mp none)

omit made

/-- Between dispatches the machine is in the root until a transition was committed, and in an
atomic state ever after. -/
theorem control_of_committed (created : (create definition settings).result = .ok machine)
    (events : List (Event M.Data)) :
    ((create definition settings).committed ++ machine.committed events = [] →
        (machine.after events).runtime.control = rootName) ∧
      ((create definition settings).committed ++ machine.committed events ≠ [] →
        DeclaredAtomic definition.states (machine.after events).runtime.control) := by
  refine created_keeps (fun log runtime => (log = [] → runtime.control = rootName) ∧
    (log ≠ [] → DeclaredAtomic definition.states runtime.control)) created ?_ ?_ events
  · exact ⟨fun _ => rfl, fun moved => absurd rfl moved⟩
  · intro machine event log made before
    cases result : (machine.dispatch event).result with
    | error error =>
      obtain ⟨same, committed, _⟩ := dispatch_of_error result
      rw [same, committed, List.append_nil]
      exact before
    | ok outcome =>
      rcases dispatch_rests accepted made result with ⟨committed, same, _⟩ | ⟨committed, atomic, _⟩
      · rw [same, committed, List.append_nil]
        exact before
      · refine ⟨?_, fun _ => atomic⟩
        intro none
        exact absurd (List.append_eq_nil_iff.mp none).2 committed

/-- A machine never rests in a compound state: it stays in the root until a transition is
committed and rests in atomic states from then on, and whatever takes a transition leaves no row
without an event to be taken. -/
theorem rests_in_atomic_states (created : (create definition settings).result = .ok machine)
    (events : List (Event M.Data)) :
    ¬ DeclaredCompound definition.states (machine.after events).runtime.control ∧
      ((create definition settings).committed ++ machine.committed events = [] →
        (machine.after events).runtime.control = rootName) ∧
      ((create definition settings).committed ++ machine.committed events ≠ [] →
        DeclaredAtomic definition.states (machine.after events).runtime.control) ∧
      ((create definition settings).committed ≠ [] → machine.Quiescent M.noData) ∧
      ∀ event outputs, ((machine.after events).dispatch event).result =
        .ok (.transitioned outputs) →
        ((machine.after events).dispatch event).machine.Quiescent event.data := by
  obtain ⟨resting, moved⟩ := control_of_committed accepted created events
  refine ⟨?_, resting, moved, ?_, ?_⟩
  · intro compound
    obtain ⟨node, inside, named, nested⟩ := compound
    by_cases committed : (create definition settings).committed ++ machine.committed events = []
    · exact Hierarchy.name_ne_root accepted.distinctNames inside (named.trans (resting committed))
    · obtain ⟨other, otherInside, otherNamed, simple⟩ := moved committed
      have same := Hierarchy.node_unique accepted.distinctNames inside otherInside
        (named.trans otherNamed.symm)
      subst same
      exact nested simple
  · intro committed
    obtain ⟨outcome, settled, rfl, same⟩ := create_eq_ok created
    rw [same] at committed
    rcases dispatch_rests accepted (MadeFrom.unstarted definition settings) settled
      with ⟨none, _⟩ | ⟨_, _, quiescent⟩
    · exact absurd none committed
    · exact quiescent
  · intro event outputs settled
    rcases dispatch_rests accepted ((MadeFrom.created created).after events) settled
      with ⟨_, _, still⟩ | ⟨_, _, quiescent⟩
    · cases still
    · exact quiescent

omit accepted

/-- Sped up once, the player plays fast, since it is not tired yet. -/
theorem player_rests :
    (create Player.definition {}).result = .ok Player.machine ∧
      DeclaredAtomic Player.states
        (Player.machine.after [Player.press "on", Player.press "speed"]).runtime.control ∧
        ((Player.machine.after [Player.press "on"]).dispatch
          (Player.press "speed")).machine.Quiescent (Player.press "speed").data := by
  have moved : (create Player.definition {}).committed ≠ [] := by decide +kernel
  have settled : ((Player.machine.after [Player.press "on"]).dispatch (Player.press "speed")).result
      = .ok (.transitioned ["faster"]) := by rfl
  refine ⟨Player.created, ?_, ?_⟩
  · exact (rests_in_atomic_states Player.accepted Player.created
      [Player.press "on", Player.press "speed"]).2.2.1 (List.append_ne_nil_of_left_ne_nil moved _)
  · exact (rests_in_atomic_states Player.accepted Player.created [Player.press "on"]).2.2.2.2
      (Player.press "speed") ["faster"] settled

end Machine

end Statechart
