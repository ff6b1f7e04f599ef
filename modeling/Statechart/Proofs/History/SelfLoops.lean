import Statechart.Proofs.History.Reentry
import Statechart.Proofs.Machine.Protocol

set_option autoImplicit false

namespace Statechart

open StateNode TakenStep

variable {M : Model} {definition : MachineDefinition M} {settings : Settings} {machine : Machine M}

/-- A reference to history that finds a state as soon as that is left: the deep history of a
state around it, or the shallow history of the one directly around it. The exit is recorded
before history is consulted. -/
def HistoryTarget.FindsExit (states : List StateNode) (origin : String)
    (reference : HistoryTarget) : Prop :=
  match reference.mode with
  | .deep => Encloses states reference.state origin
  | .shallow => IsParent states reference.state origin

section

variable {states : List StateNode}

theorem StateNode.encloses_of_isParent {outer inner : String}
    (parent : IsParent states outer inner) : Encloses states outer inner := by
  obtain ⟨above, below, placed, direct, named, belowNamed⟩ := parent
  exact ⟨above, below, placed, Inside.child direct, named, belowNamed⟩

theorem HistoryTarget.FindsExit.encloses {origin : String} {reference : HistoryTarget}
    (finds : reference.FindsExit states origin) : Encloses states reference.state origin := by
  obtain ⟨mode, state⟩ := reference
  cases mode with
  | deep => exact finds
  | shallow => exact encloses_of_isParent finds

theorem HistoryMode.Restores.encloses {mode : HistoryMode} {outer inner entered : String}
    (restores : mode.Restores states outer inner entered) (inside : Encloses states outer inner) :
    Encloses states outer entered := by
  cases mode with
  | deep =>
    rw [show entered = inner from restores]
    exact inside
  | shallow => exact encloses_of_isParent restores.1

variable (distinct : DistinctNames states)

include distinct

theorem Hierarchy.not_encloses_of_siblings {outer first second : String}
    (parent : IsParent states outer first)
    (otherParent : IsParent states outer second) : ¬ Encloses states second first := by
  intro encloses
  obtain ⟨above, node, placed, direct, rfl, rfl⟩ := parent
  obtain ⟨other, sibling, otherPlaced, otherDirect, named, rfl⟩ := otherParent
  have same := node_unique distinct otherPlaced placed named
  subst same
  obtain ⟨around, below, aroundPlaced, nested, aroundNamed, belowNamed⟩ := encloses
  have siblingPlaced : Inside sibling (root states) := (Inside.child otherDirect).trans otherPlaced
  have nodePlaced : Inside node (root states) := (Inside.child direct).trans otherPlaced
  have isSibling := node_unique distinct aroundPlaced siblingPlaced aroundNamed
  subst isSibling
  have isNode := node_unique distinct (nested.trans aroundPlaced) nodePlaced belowNamed
  subst isNode
  -- What is around the state is its parent or around that, but the sibling is smaller than the
  -- parent.
  have smaller := (Inside.child otherDirect).sizeOf_lt
  rcases (inside_iff_of_child distinct siblingPlaced (Or.inr otherPlaced) direct).mp nested
    with isParent | further
  · rw [isParent] at smaller
    exact Nat.lt_irrefl _ smaller
  · exact Nat.lt_asymm smaller further.sizeOf_lt

/-- Of a state inside that was just left, history brings back the state itself exactly if the
reference finds the exit. -/
theorem HistoryMode.Restores.eq_iff {reference : HistoryTarget} {origin entered : String}
    (restores : reference.mode.Restores states reference.state origin entered)
    (inside : Encloses states reference.state origin) :
    entered = origin ↔ reference.FindsExit states origin := by
  obtain ⟨mode, state⟩ := reference
  cases mode with
  | deep => exact iff_of_true restores inside
  | shallow =>
    obtain ⟨parent, near⟩ := restores
    constructor
    · intro same
      exact same ▸ parent
    · intro finds
      rcases near with same | encloses
      · exact same
      · exact absurd encloses (Hierarchy.not_encloses_of_siblings distinct finds parent)

end

namespace Machine

open HistoryStore

section

variable {event : Event M.Data} {earlier : List (TakenStep M)} {before : Runtime M}
  {step : TakenStep M} {guarded : GuardedTarget M}

/-- A transition without an event is never the first of a dispatch: it is raised by entering the
state before it. -/
theorem Takes.raised_of_eventless (takes : machine.Takes event earlier before step guarded)
    (eventless : step.event = eventlessKey) :
    earlier ≠ [] ∧ machine.cascadeEvent before.control = some eventlessKey := by
  have moved : earlier ≠ [] := by
    intro first
    have chain := takes.chain
    subst first
    have same := Option.some.inj chain.of_nil.2
    exact takes.named (same.symm.trans eventless)
  exact ⟨moved, eventless ▸ takes.chain.raised moved⟩

variable (accepted : definition.Accepted settings) (made : machine.MadeFrom definition settings)

include accepted made

/-- A transition without an event is by a row of the atomic state it leaves, and the row has no
event. -/
theorem Takes.row_of_eventless (takes : machine.Takes event earlier before step guarded)
    (eventless : step.event = eventlessKey) :
    step.handler = step.origin ∧ DeclaredAtomic definition.states step.origin ∧
      ∃ row ∈ definition.rows, row.origin = step.origin ∧ row.event = none ∧
      guarded ∈ row.targets := by
  obtain ⟨moved, raised⟩ := takes.raised_of_eventless eventless
  obtain ⟨notRoot, known⟩ := takes.chain.entered moved
  obtain ⟨position, took⟩ := takes.chosen
  have origin := took.origin
  have later : earlier.isEmpty = false := List.isEmpty_eq_false_iff.mpr moved
  rw [later, eventless] at took
  have handler := took.handler_eq_of_raised notRoot raised
  have simple : ¬ DeclaredCompound definition.states before.control := by
    intro compound
    have init := (cascadeEvent_of_compound accepted made compound).symm.trans raised
    exact absurd (Option.some.inj init) (by decide)
  have atomic := atomic_of_not_compound (made.declared_of_contains notRoot known) simple
  obtain ⟨place, own, found⟩ := findHandler_of_cascadeEvent notRoot raised
  obtain ⟨row, placed, _, rowOrigin, key⟩ := made.row_of_ownHandler own
  obtain ⟨_, rfl⟩ := Prod.mk.inj (Option.some.inj (found.symm.trans took.handled))
  have inRow := mem_of_selectTarget took.chosen
  rw [made.targetsOf_eq placed] at inRow
  have listed := List.mem_of_getElem? placed
  have noEvent := (Transition.eventKey_eq_eventlessKey_iff (accepted.event_ne_empty listed)).mp key
  rw [origin]
  exact ⟨handler, atomic, row, listed, rowOrigin, noEvent, inRow⟩

omit made

/-- What a transition through history enters is what the history of the run holds once the exit
is recorded. -/
theorem Takes.entered_through {log : List TraceKind}
    (dispatches : Dispatches definition settings log machine event)
    (takes : machine.Takes event earlier before step guarded) {reference : HistoryTarget}
    (through : guarded.target = .history reference) :
    step.next.control = (replay (.ofStates definition.states)
      (statesLeft (log ++ reports 0 earlier) ++ [step.origin])).resolve reference := by
  have made := dispatches.madeFrom
  obtain ⟨notCompound, begun⟩ := dispatches.begins accepted
  have known := takes.chain.remembers accepted made
    (fun compound => absurd compound notCompound) begun 0
  obtain ⟨position, took⟩ := takes.chosen
  rw [took.entered, through, ← took.recorded,
    took.history_eq accepted.distinctNames made known.history 0, statesLeft_concat]
  rfl

/-- A transition from an atomic state through history leads back exactly if the reference finds
the exit. -/
theorem Takes.leadsBack_through_iff {log : List TraceKind}
    (dispatches : Dispatches definition settings log machine event)
    (takes : machine.Takes event earlier before step guarded)
    (atomic : DeclaredAtomic definition.states step.origin) {reference : HistoryTarget}
    (through : guarded.target = .history reference)
    (compound : DeclaredCompound definition.states reference.state) :
    step.next.control = step.origin ↔ reference.FindsExit definition.states step.origin := by
  have distinct := accepted.distinctNames
  have entered := takes.entered_through accepted dispatches through
  by_cases visited : ∃ inner ∈ statesLeft (log ++ reports 0 earlier) ++ [step.origin],
      Encloses definition.states reference.state inner
  · obtain ⟨inner, last⟩ := exists_isLast_iff.mpr visited
    have restores := restores_resolve distinct last
    rw [← entered] at restores
    rcases (isLast_concat_iff step.origin).mp last with ⟨inside, rfl⟩ | ⟨outside, between⟩
    · exact restores.eq_iff distinct inside
    · obtain ⟨_, _, _, held, _⟩ := between
      have inside := restores.encloses held
      exact iff_of_false (fun same => outside (same ▸ inside)) (fun finds => outside finds.encloses)
  · have fresh : step.next.control = reference.state := by
      rw [entered]
      apply resolve_eq_of_never_left distinct
      intro inner member encloses
      exact visited ⟨inner, member, encloses⟩
    have notBack : step.next.control ≠ step.origin := by
      intro same
      rw [← same, fresh] at atomic
      exact Hierarchy.not_compound_of_atomic distinct atomic compound
    refine iff_of_false notBack ?_
    intro finds
    exact visited ⟨step.origin, by simp, finds.encloses⟩

/-- Whatever a run takes without an event, it takes by a row of the atomic state that it leaves,
and it enters that state again exactly if the target is a reference to history that finds the
exit. This holds of transitions that are undone later as well. -/
theorem eventless_leadsBack_iff {log : List TraceKind}
    (dispatches : Dispatches definition settings log machine event)
    {origin handler action target : String} {guard : Option String} {depth : Nat}
    (reported : .internalTransition origin eventlessKey handler guard action target depth ∈
      (machine.dispatch event).reports) :
    handler = origin ∧ DeclaredAtomic definition.states origin ∧
      ∃ earlier before step guarded, machine.Takes event earlier before step guarded ∧
        step.report earlier.length =
          .internalTransition origin eventlessKey handler guard action target depth ∧
          (target = origin ↔ ∃ reference, guarded.target = .history reference ∧
            reference.FindsExit definition.states origin) := by
  obtain ⟨earlier, before, step, guarded, takes, same⟩ := (mem_reports_dispatch_iff rfl).mp reported
  have report := same.symm
  rw [TakenStep.report] at same
  injection same with origin_eq event_eq handler_eq _ _ target_eq _
  subst origin_eq handler_eq target_eq
  obtain ⟨own, atomic, row, listed, origin, noEvent, inRow⟩ :=
    takes.row_of_eventless accepted dispatches.madeFrom event_eq.symm
  refine ⟨own, atomic, earlier, before, step, guarded, takes, report, ?_⟩
  cases goal : guarded.target with
  | state name =>
    -- The rule against such rows is about targets of this form.
    have notBack : step.next.control ≠ step.origin := by
      intro back
      obtain ⟨position, took⟩ := takes.chosen
      have named : name = row.origin := by
        rw [origin, ← back, took.entered, goal]
        rfl
      have compound := accepted.wellFormed.selfLoops row listed noEvent guarded inRow (named ▸ goal)
      rw [origin] at compound
      exact Hierarchy.not_compound_of_atomic accepted.distinctNames atomic compound
    refine iff_of_false notBack ?_
    intro finds
    obtain ⟨reference, isHistory, _⟩ := finds
    cases isHistory
  | history reference =>
    have compound := accepted.history_compound listed inRow (by rw [goal]; rfl)
    rw [goal] at compound
    rw [takes.leadsBack_through_iff accepted dispatches atomic goal compound]
    constructor
    · intro finds
      exact ⟨reference, rfl, finds⟩
    · intro found
      obtain ⟨other, same, finds⟩ := found
      cases same
      exact finds

end

end Machine

namespace Player

def fresh : Guard model where
  name := "fresh"
  check (ext : Nat) _ _ := .ok (ext < 1)

def tick : Action model where
  name := "tick"
  run _ _ _ := .ok ⟨[(1 : Nat)], none⟩

/-- A player that starts by going back to where it is. -/
def skipping : MachineDefinition model where
  states := [.compound "On" [.atomic "Slow"]]
  events := []
  transitions := [.plain "On" initEvent (.state "Slow"),
    .automatic "Slow" [.when fresh (.history ⟨.deep, "On"⟩) tick]]
  initialExt := (0 : Nat)
  initialState := some "On"
  reducer := reducer

theorem skipping_accepted : skipping.Accepted {} := by
  rw [MachineDefinition.Accepted, Contract.checkAll_eq_ok_iff]
  decide +kernel

theorem skipping_reports :
    .internalTransition "Slow" eventlessKey "Slow" (some "fresh") "tick" "Slow" 2 ∈
    ((Machine.unstarted skipping {}).dispatch ⟨initEvent, (0 : Nat)⟩).reports := by
  decide +kernel

end Player

namespace Machine

/-- Going back to where it is, the player is given the history of the state around. -/
theorem skipping_leadsBack : ∃ earlier before step guarded,
    (unstarted Player.skipping {}).Takes ⟨initEvent, (0 : Nat)⟩ earlier before step guarded ∧
      step.report earlier.length =
        .internalTransition "Slow" "" "Slow" (some "fresh") "tick" "Slow" 2 ∧
        ∃ reference, guarded.target = .history reference ∧
        reference.FindsExit Player.skipping.states "Slow" := by
  obtain ⟨_, _, earlier, before, step, guarded, takes, report, back⟩ :=
    eventless_leadsBack_iff Player.skipping_accepted .creation Player.skipping_reports
  exact ⟨earlier, before, step, guarded, takes, report, back.mp rfl⟩

/-- A machine of an accepted definition may enter the state it leaves, without an event. -/
theorem not_forall_eventless_onward :
    ¬ ∀ (M : Model) (definition : MachineDefinition M) (settings : Settings) (log :
      List TraceKind) (machine : Machine M)
      (event : Event M.Data), definition.Accepted settings →
        Dispatches definition settings log machine event →
        ∀ origin handler guard action target depth,
          .internalTransition origin eventlessKey handler guard action target depth ∈
            (machine.dispatch event).reports → target ≠ origin := by
  intro always
  exact always Player.model Player.skipping {}
    [] _ _ Player.skipping_accepted .creation "Slow" "Slow" (some "fresh") "tick"
    "Slow" 2 Player.skipping_reports rfl

end Machine

end Statechart
