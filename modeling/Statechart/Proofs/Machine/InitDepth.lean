import Statechart.Proofs.History.Reentry
import Statechart.Proofs.Machine.Limit
import Statechart.Proofs.Machine.Protocol

set_option autoImplicit false

namespace Statechart

open StateNode TakenStep

variable {M : Model} {definition : MachineDefinition M} {settings : Settings} {machine : Machine M}

namespace Hierarchy

variable {states : List StateNode} {steps : Nat} {name : String}

theorem lt_deepest_of_deeperThan (deeper : DeeperThan states steps name) :
    steps < deepest states := by
  obtain ⟨visit, met, _, below⟩ := deeper
  exact Nat.lt_of_lt_of_le below (List.le_max?_getD_of_mem (List.mem_map_of_mem met))

section

variable (distinct : DistinctNames states)

include distinct

theorem deeperThan_zero (declared : Declared states name) : DeeperThan states 0 name := by
  obtain ⟨node, inside, rfl⟩ := declared
  obtain ⟨visit, met, _, rfl⟩ := (inside_root_iff node).mp inside
  have top : (⟨root states, none, []⟩ : Visit StateNode) ∈ (root states).preOrder :=
    self_mem_preOrderAt none [] (root states)
  exact ⟨visit, met, rfl, (path_prefix_of_inside distinct top met inside).2⟩

theorem deeperThan_of_encloses {inner : String} (deeper : DeeperThan states steps name)
    (encloses : Encloses states name inner) : DeeperThan states (steps + 1) inner := by
  obtain ⟨visit, met, named, below⟩ := deeper
  obtain ⟨above, node, aboveInside, inside, aboveNamed, rfl⟩ := encloses
  obtain ⟨outer, outerMet, _, rfl⟩ := (inside_root_iff above).mp aboveInside
  obtain ⟨other, otherMet, _, rfl⟩ := (inside_root_iff node).mp (inside.trans aboveInside)
  have same : visit = outer := visit_unique distinct met outerMet (named.trans aboveNamed.symm)
  subst same
  have further := (path_prefix_of_inside distinct met otherMet inside).2
  exact ⟨other, otherMet, rfl, Nat.lt_of_le_of_lt below further⟩

end

end Hierarchy

namespace Machine

section

variable (accepted : definition.Accepted settings)
  (eventful : ∀ row ∈ definition.transitions, row.event ≠ none)
  (made : machine.MadeFrom definition settings)

include accepted eventful made

/-- Without rows that have no event, entering a state raises nothing but the init of a compound
one. -/
theorem init_of_raised {state raised : String} (notRoot : state ≠ rootName)
    (raises : machine.cascadeEvent state = some raised) :
    raised = initEvent ∧ DeclaredCompound definition.states state := by
  obtain ⟨own, kind⟩ := ownHandler_of_cascadeEvent raises
  rcases kind with ⟨isInit, compound⟩ | rfl
  · exact ⟨isInit, (isCompound_iff accepted made notRoot).mp compound⟩
  · obtain ⟨row, listed, _, key⟩ := (made.handles_iff notRoot eventlessKey).mp own
    have eventless := (Transition.eventKey_eq_eventlessKey_iff (accepted.event_ne_empty listed)).mp
      key
    rcases MachineDefinition.mem_rows listed with given | ⟨target, rfl⟩
    · exact absurd eventless (eventful row given)
    · cases eventless

/-- A step on what entering a state raised leads further from the root. -/
theorem deeperThan_of_raised {data : M.Data} {runtime : Runtime M} {raised : String}
    {step : TakenStep M} {levels : Nat} (notRoot : runtime.control ≠ rootName)
    (raises : machine.cascadeEvent runtime.control = some raised)
    (taken : machine.step runtime raised data false = .ok (.taken step))
    (deeper : DeeperThan definition.states levels runtime.control) :
    DeeperThan definition.states (levels + 1) step.next.control := by
  obtain ⟨rfl, compound⟩ := init_of_raised accepted eventful made notRoot raises
  obtain ⟨_, _, took⟩ := took_of_step taken
  exact Hierarchy.deeperThan_of_encloses accepted.distinctNames deeper
    (encloses_of_init accepted made took compound)

/-- Each further step of a chain leads one level further from the root at least. -/
theorem Chain.deeperThan {data : M.Data} {external : Bool} {runtime last : Runtime M}
    {event : String} {steps : List (TakenStep M)} {pending : Option String}
    (chain : Chain machine data external runtime event steps last pending)
    (inside : external = false) (notRoot : runtime.control ≠ rootName)
    (raises : machine.cascadeEvent runtime.control = some event) {levels : Nat}
    (deeper : DeeperThan definition.states levels runtime.control) :
    DeeperThan definition.states (levels + steps.length) last.control := by
  induction chain generalizing levels with
  | start => exact deeper
  | rest taken _ =>
    subst inside
    exact deeperThan_of_raised accepted eventful made notRoot raises taken deeper
  | @follow external runtime event step raised steps last pending taken raisesNext onward ih =>
    subst inside
    obtain ⟨_, _, took⟩ := took_of_step taken
    have further := ih rfl took.notRoot raisesNext
      (deeperThan_of_raised accepted eventful made notRoot raises taken deeper)
    rw [List.length_cons, Nat.add_comm steps.length, ← Nat.add_assoc]
    exact further

/-- A chain that was begun by an event and is still to go on is shorter than the states are deep. -/
theorem Chain.length_lt_deepest {data : M.Data} {external : Bool} {runtime last : Runtime M}
    {event pending : String} {steps : List (TakenStep M)}
    (chain : Chain machine data external runtime event steps last (some pending))
    (moved : steps ≠ []) : steps.length < deepest definition.states := by
  have distinct := accepted.distinctNames
  obtain ⟨_, compound⟩ :=
    init_of_raised accepted eventful made (chain.entered moved).1 (chain.raised moved)
  obtain ⟨_, _, inner, init⟩ := accepted.hasInit compound
  cases chain with
  | start => exact absurd rfl moved
  | @follow _ _ _ step raised steps _ _ taken raises onward =>
    obtain ⟨_, _, took⟩ := took_of_step taken
    have outermost := Hierarchy.deeperThan_zero distinct
      (made.declared_of_contains took.notRoot took.known)
    have deeper := onward.deeperThan accepted eventful made rfl took.notRoot raises outermost
    -- The init that is still to come would lead one level further.
    have further := Hierarchy.deeperThan_of_encloses distinct deeper init.inside
    rw [Nat.zero_add] at further
    exact Hierarchy.lt_deepest_of_deeperThan further

/-- Where the limit leaves room for every level but the outermost, no dispatch hits it. -/
theorem dispatch_ne_limit (fits : deepest definition.states - 1 ≤ settings.maxCascadeDepth)
    (event : Event M.Data) (state : String)
    (limit : Nat) :
    (machine.dispatch event).result ≠ .error (.cascadeLimitExceeded state limit) := by
  intro exceeded
  rcases (dispatch_of_error exceeded).2.2 with ⟨_, other⟩ | ⟨_, steps, finished⟩
  · cases other
  · cases finished with
    | failed _ _ stopped => exact absurd rfl (step_error_ne_limit stopped state limit)
    | exceeded chain full =>
      have short := chain.length_lt_deepest accepted eventful made
        (List.ne_nil_of_length_eq_add_one full)
      rw [made.settings] at full
      omega

end

/-- In an accepted definition that knows rows on events only, a limit of one less than the depth
of the states is never hit, whatever is dispatched. -/
theorem init_fits_hierarchy (accepted : definition.Accepted settings)
    (eventful : ∀ row ∈ definition.transitions, row.event ≠ none)
    (fits : deepest definition.states - 1 ≤ settings.maxCascadeDepth)
    (events : List (Event M.Data)) :
    (life definition settings events).WithinLimit := by
  apply life_withinLimit
  intro machine made event state limit
  exact dispatch_ne_limit accepted eventful made fits event state limit

end Machine

namespace Player

/-- The player without its row that has no event. -/
def manual : MachineDefinition model :=
  { Player.definition with transitions :=
    Player.definition.transitions.filter (fun row => !row.isAutomatic) }

end Player

namespace Machine

/-- The states of the player lie three deep, so it may be told to go inwards twice at most. -/
theorem manual_fits_hierarchy : deepest Player.manual.states = 3 ∧
    (life Player.manual (Settings.withCascadeLimit {} 2)
      [Player.press "on", Player.press "pause", Player.press "off",
        Player.press "on"]).WithinLimit := by
  have accepted : Player.manual.Accepted (Settings.withCascadeLimit {} 2) := by
    rw [MachineDefinition.Accepted, Contract.checkAll_eq_ok_iff]
    decide +kernel
  have eventful : ∀ row ∈ Player.manual.transitions, row.event ≠ none := by decide +kernel
  have depth : deepest Player.manual.states = 3 := by decide +kernel
  exact ⟨depth, init_fits_hierarchy accepted eventful (Nat.sub_le_of_le_add (Nat.le_of_eq depth)) _⟩

/-- Once is not enough. -/
example :
    ((life Player.manual (Settings.withCascadeLimit {} 1) [Player.press "on"]).dispatches.map
      Observation.answer)
    = [.error (.cascadeLimitExceeded "Playing" 1)] := by rfl

end Machine

end Statechart
