import Statechart.Proofs.Machine.MicroStep
import Statechart.Proofs.Machine.Taken

set_option autoImplicit false

namespace Statechart

open StateNode

variable {M : Model} {definition : MachineDefinition M} {settings : Settings} {machine : Machine M}

namespace Hierarchy

theorem nested_of_around {states : List StateNode} (distinct : DistinctNames states)
    {state first second : String} (firstAround : first = state ∨ Encloses states first state)
    (secondAround : second = state ∨ Encloses states second state) :
    first = second ∨ Encloses states first second ∨ Encloses states second first := by
  have listed {outer : String} (around : outer = state ∨ Encloses states outer state) :
      outer ∈ state :: (ofStates states).historyAncestors state := by
    rcases around with rfl | encloses
    · exact List.mem_cons_self
    · exact List.mem_cons_of_mem _ ((mem_historyAncestors_iff distinct outer state).mpr encloses)
  have nested := (encloses_pairwise distinct state).imp
    (S := fun inner outer => Encloses states inner outer ∨ Encloses states outer inner) Or.inr
  have symmetric : Std.Symm (fun inner outer =>
    Encloses states inner outer ∨ Encloses states outer inner) :=
    ⟨fun _ _ either => either.symm⟩
  by_cases same : first = second
  · exact Or.inl same
  · exact Or.inr (nested.forall (listed firstAround) (listed secondAround) same)

end Hierarchy

namespace Machine

open TakenStep

/-- A dispatch that comes to no transition took no step, and its first step tells why. -/
theorem Finishes.idle {data : M.Data} {room : Nat} {external : Bool} {runtime last : Runtime M}
    {event : String} {steps : List (TakenStep M)} {outcome : DispatchOutcome M.Output}
    (finished : Finishes machine data room external runtime event steps (.ok (outcome, last)))
    (still : outcome.isTransitioned = false) :
    machine.step runtime event data external = .ok .unhandled ∧
      outcome = .unhandled runtime.control event ∨
      machine.step runtime event data external = .ok .noGuardSatisfied ∧
        outcome = .noGuardSatisfied runtime.control event := by
  have none := finished.eq_nil_of_still still
  subst none
  cases finished with
  | rested chain _ => exact nomatch chain.of_nil.2
  | unhandled chain _ stopped =>
    obtain ⟨rfl, isEvent⟩ := chain.of_nil
    cases isEvent
    rw [List.isEmpty_nil, Bool.and_true] at stopped
    exact Or.inl ⟨stopped, rfl⟩
  | noGuardSatisfied chain _ stopped =>
    obtain ⟨rfl, isEvent⟩ := chain.of_nil
    cases isEvent
    rw [List.isEmpty_nil, Bool.and_true] at stopped
    exact Or.inr ⟨stopped, rfl⟩

section

variable {event : Event M.Data} (named : event.name ≠ "") {state name : String}

include named

/-- A dispatch is answered as unhandled exactly if the look-up finds nothing. -/
theorem result_eq_unhandled_iff : (machine.dispatch event).result = .ok (.unhandled state name) ↔
    state = machine.runtime.control ∧ name = event.name ∧
      machine.findHandler machine.runtime.control event.name true = none := by
  constructor
  · intro settled
    obtain ⟨_, _, finished, _, _⟩ := dispatch_of_ok settled
    rcases finished.idle rfl with ⟨stopped, same⟩ | ⟨_, other⟩
    · cases same
      exact ⟨rfl, rfl, findHandler_of_unhandled stopped⟩
    · cases other
  · rintro ⟨rfl, rfl, missing⟩
    have ran : ∀ follow, machine.advance event.data 0 machine.runtime event.name follow
        = ⟨[], .ok (.unhandled machine.runtime.control event.name, machine.runtime)⟩ := by
      intro follow
      rw [advance, decide_eq_true rfl, step, missing]
    rw [dispatch_of_idle named ran]

/-- A dispatch is answered as met by no guard exactly if all targets of the row that is found
are refused. -/
theorem result_eq_noGuardSatisfied_iff :
    (machine.dispatch event).result = .ok (.noGuardSatisfied state name) ↔
    state = machine.runtime.control ∧ name = event.name ∧
      ∃ handler position, machine.findHandler machine.runtime.control event.name true =
        some (handler, position) ∧
        ∀ guarded ∈ machine.targetsOf position,
        guarded.Refused machine.settings machine.runtime.ext event.data := by
  have refused_iff (position : Nat) := selectTarget_eq_none_iff machine.settings
    ⟨machine.runtime.control, event.name, machine.runtime.ext, event.data⟩
      (machine.targetsOf position)
  constructor
  · intro settled
    obtain ⟨_, _, finished, _, _⟩ := dispatch_of_ok settled
    rcases finished.idle rfl with ⟨_, other⟩ | ⟨stopped, same⟩
    · cases other
    · cases same
      obtain ⟨handler, position, found, refused⟩ := refused_of_noGuardSatisfied stopped
      exact ⟨rfl, rfl, handler, position, found, (refused_iff position).mp refused⟩
  · rintro ⟨rfl, rfl, handler, position, found, refused⟩
    have ran : ∀ follow, machine.advance event.data 0 machine.runtime event.name follow
        = ⟨[], .ok (.noGuardSatisfied machine.runtime.control event.name, machine.runtime)⟩ := by
      intro follow
      rw [advance, decide_eq_true rfl, step, found]
      dsimp only
      rw [(refused_iff position).mpr refused]
      rfl
    rw [dispatch_of_idle named ran]

end

/-- The answer of a machine to an event is that of the one row that handles it. -/
structure Answers (machine : Machine M) (definition : MachineDefinition M) (settings : Settings)
    (event : Event M.Data) : Prop where
  /-- What the tables are asked for is the position of that row in the definition. -/
  lookup : ∀ handler position, machine.findHandler machine.runtime.control event.name true =
    some (handler, position) ↔
    event.name ≠ initEvent ∧ ∃ row,
      definition.HandledBy machine.runtime.control event.name false handler row ∧
      definition.rows[position]? = some row ∧
        definition.rows.findIdx? (fun other =>
          other.origin = handler ∧ other.eventKey = event.name) = some position
  /-- A transition on the event takes the first target of that row that is admitted. -/
  taken : ∀ before step guarded, machine.Takes event [] before step guarded →
    event.name ≠ initEvent ∧
    ∃ row, definition.HandledBy machine.runtime.control event.name false step.handler row ∧
      guarded.ReachedIn row.targets settings machine.runtime.ext event.data ∧
        guarded.Admitted settings machine.runtime.ext event.data
  unhandled : ∀ state name, (machine.dispatch event).result = .ok (.unhandled state name) ↔
    state = machine.runtime.control ∧ name = event.name ∧ (event.name = initEvent ∨
      ∀ handler row, ¬ definition.HandledBy machine.runtime.control event.name false handler row)
  refused : ∀ state name, (machine.dispatch event).result = .ok (.noGuardSatisfied state name) ↔
    state = machine.runtime.control ∧ name = event.name ∧ event.name ≠ initEvent ∧
      ∃ handler row, definition.HandledBy machine.runtime.control event.name false handler row ∧
        ∀ guarded ∈ row.targets, guarded.Refused settings machine.runtime.ext event.data

theorem ownHandler_of_findHandler {control name handler : String} {external : Bool} {position : Nat}
    (notRoot : control ≠ rootName)
    (found : machine.findHandler control name external = some (handler, position)) :
    machine.indices.tables.ownHandler handler name = some position := by
  rw [findHandler, if_neg notRoot] at found
  split at found
  · cases found
  · obtain ⟨state, _, answers⟩ := List.exists_of_findSome?_eq_some found
    obtain ⟨place, own, same⟩ := Option.map_eq_some_iff.mp answers
    cases same
    exact own

end Machine

namespace MachineDefinition

/-- Outside the root, an event from outside is handled as one from inside is, unless it is init. -/
theorem handledBy_external_iff {control event handler : String} {row : Transition M}
    (notRoot : control ≠ rootName) : definition.HandledBy control event true handler row ↔
      event ≠ initEvent ∧ definition.HandledBy control event false handler row := by
  have heard : Heard control event true ↔ event ≠ initEvent := by
    rw [Heard, if_neg notRoot]
    exact not_congr (and_iff_right rfl)
  have inside : Heard control event false := by
    rw [Heard, if_neg notRoot]
    exact fun external => Bool.false_ne_true external.1
  constructor
  · intro handled
    exact ⟨heard.mp handled.heard, inside, handled.around, handled.first, handled.innermost⟩
  · rintro ⟨notInit, handled⟩
    exact ⟨heard.mpr notInit, handled.around, handled.first, handled.innermost⟩

end MachineDefinition

namespace Machine.MadeFrom

variable (made : machine.MadeFrom definition settings) (distinct : DistinctNames definition.states)

include made distinct

/-- The tables are asked for the position of the row that handles the event. -/
theorem findHandler_eq_some_iff {control event handler : String} {external : Bool} {position : Nat}
    (notRoot : control ≠ rootName) :
      machine.findHandler control event external = some (handler, position) ↔
      ∃ row, definition.HandledBy control event external handler row ∧
        definition.rows[position]? = some row ∧
        definition.rows.findIdx? (fun other => other.origin = handler ∧ other.eventKey = event) =
          some position := by
  have placed {position : Nat}
      (found : machine.findHandler control event external = some (handler, position)) :
      ∃ row, definition.HandledBy control event external handler row ∧
        definition.rows[position]? = some row ∧
        definition.rows.findIdx? (fun other => other.origin = handler ∧ other.eventKey = event) =
          some position := by
    obtain ⟨row, handled, _⟩ := made.handledBy_of_findHandler distinct found
    have handlerNotRoot := Hierarchy.ne_root_of_around distinct handled.around notRoot
    have own := ownHandler_of_findHandler notRoot found
    rw [made.indices] at own
    have first := RowTables.find?_of_ownHandler own
    refine ⟨row, handled, first.symm.trans handled.first, ?_⟩
    rw [← RowTables.ownHandler_ofRows definition.rows handlerNotRoot event]
    exact own
  constructor
  · exact placed
  · rintro ⟨row, handled, _, first⟩
    obtain ⟨other, found, _⟩ := made.findHandler_of_handledBy distinct handled
    obtain ⟨_, _, _, otherFirst⟩ := placed found
    cases first.symm.trans otherFirst
    exact found

section

variable {event : Event M.Data} (notRoot : machine.runtime.control ≠ rootName)

include notRoot

/-- The first transition of a dispatch is taken by the row that handles the event. -/
theorem handledBy_of_takes {before : Runtime M} {step : TakenStep M} {guarded : GuardedTarget M}
    (takes : machine.Takes event [] before step guarded) : event.name ≠ initEvent ∧
      ∃ row, definition.HandledBy machine.runtime.control event.name false step.handler row ∧
        guarded.ReachedIn row.targets settings machine.runtime.ext event.data ∧
          guarded.Admitted settings machine.runtime.ext event.data := by
  obtain ⟨rfl, same⟩ := takes.chain.of_nil
  obtain ⟨position, took⟩ := takes.chosen
  obtain ⟨row, handled, targets⟩ := made.handledBy_of_findHandler distinct took.handled
  have isEvent : step.event = event.name := Option.some.inj same
  rw [List.isEmpty_nil, MachineDefinition.handledBy_external_iff notRoot, isEvent] at handled
  have selects := selectTarget_selects machine.settings
    ⟨machine.runtime.control, step.event, machine.runtime.ext, event.data⟩
      (machine.targetsOf position)
  rw [took.chosen, targets, made.settings] at selects
  cases selects with
  | chosen reached admitted => exact ⟨handled.1, row, handled.2, reached, admitted⟩

theorem findHandler_dispatched_eq_none_iff :
    machine.findHandler machine.runtime.control event.name true = none ↔ event.name = initEvent ∨
      ∀ handler row, ¬ definition.HandledBy machine.runtime.control event.name false handler
        row := by
  rw [made.findHandler_eq_none_iff distinct]
  simp only [MachineDefinition.handledBy_external_iff notRoot]
  constructor
  · intro nowhere
    by_cases init : event.name = initEvent
    · exact Or.inl init
    · exact Or.inr (fun handler row handled => nowhere handler row ⟨init, handled⟩)
  · rintro unheard handler row ⟨notInit, handled⟩
    rcases unheard with init | nowhere
    · exact notInit init
    · exact nowhere handler row handled

/-- All targets of the row that is found are refused exactly if those of the row that handles
the event are. -/
theorem refused_found_iff :
    (∃ handler position, machine.findHandler machine.runtime.control event.name true =
        some (handler, position) ∧
        ∀ guarded ∈ machine.targetsOf position,
        guarded.Refused machine.settings machine.runtime.ext event.data) ↔
      event.name ≠ initEvent ∧ ∃ handler row,
        definition.HandledBy machine.runtime.control event.name false handler row ∧
        ∀ guarded ∈ row.targets, guarded.Refused settings machine.runtime.ext event.data := by
  rw [made.settings]
  constructor
  · rintro ⟨handler, position, found, refused⟩
    obtain ⟨row, handled, targets⟩ := made.handledBy_of_findHandler distinct found
    obtain ⟨notInit, handled⟩ := (MachineDefinition.handledBy_external_iff notRoot).mp handled
    rw [targets] at refused
    exact ⟨notInit, handler, row, handled, refused⟩
  · rintro ⟨notInit, handler, row, handled, refused⟩
    obtain ⟨position, found, targets⟩ := made.findHandler_of_handledBy distinct
      ((MachineDefinition.handledBy_external_iff notRoot).mpr ⟨notInit, handled⟩)
    rw [← targets] at refused
    exact ⟨handler, position, found, refused⟩

end

/-- In a declared state a machine answers by the row that handles the event. -/
theorem answers {event : Event M.Data}
    (declared : Declared definition.states machine.runtime.control)
    (named : event.name ≠ "") : machine.Answers definition settings event := by
  have notRoot := Hierarchy.ne_root_of_declared distinct declared
  refine ⟨?_, ?_, ?_, ?_⟩
  · intro handler position
    rw [made.findHandler_eq_some_iff distinct notRoot]
    simp only [MachineDefinition.handledBy_external_iff notRoot]
    constructor
    · rintro ⟨row, ⟨notInit, handled⟩, placed⟩
      exact ⟨notInit, row, handled, placed⟩
    · rintro ⟨notInit, row, handled, placed⟩
      exact ⟨row, ⟨notInit, handled⟩, placed⟩
  · intro before step guarded takes
    exact made.handledBy_of_takes distinct notRoot takes
  · intro state name
    rw [result_eq_unhandled_iff named, made.findHandler_dispatched_eq_none_iff distinct notRoot]
  · intro state name
    rw [result_eq_noGuardSatisfied_iff named, made.refused_found_iff distinct notRoot]

end Machine.MadeFrom

namespace MachineDefinition.WellFormed

variable (wellFormed : definition.WellFormed settings) {control event : String}
  (notInit : event ≠ initEvent)

include wellFormed notInit

/-- The root has no row on an event other than init. -/
theorem around_of_onTheWay {row : Transition M} (listed : row ∈ definition.rows)
    (key : row.eventKey = event) (onTheWay : definition.OnTheWay control row.origin) :
    row.event ≠ some initEvent ∧
    (row.origin = control ∨ Encloses definition.states row.origin control) := by
  have other : row.event ≠ some initEvent := by
    intro init
    exact notInit (key.symm.trans ((Transition.eventKey_eq_iff (by decide)).mpr init))
  refine ⟨other, ?_⟩
  rcases onTheWay with here | encloses | isRoot
  · exact Or.inl here
  · exact Or.inr encloses
  · exact absurd (wellFormed.rootRows row listed isRoot) other

theorem position_unique {position otherPosition : Nat} {row other : Transition M}
    (placed : definition.rows[position]? = some row)
    (otherPlaced : definition.rows[otherPosition]? = some other)
    (onTheWay : definition.OnTheWay control row.origin)
    (otherOnTheWay : definition.OnTheWay control other.origin) (key : row.eventKey = event)
    (otherKey : other.eventKey = event) :
    position = otherPosition := by
  have listed := List.mem_of_getElem? placed
  have otherListed := List.mem_of_getElem? otherPlaced
  have events : row.event = other.event :=
    (Transition.eventKey_eq_eventKey_iff (wellFormed.rowEvents row listed)
    (wellFormed.rowEvents other otherListed)).mp (key.trans otherKey.symm)
  have apart {first second : Nat} {earlier later : Transition M}
      (placed : definition.rows[first]? = some earlier)
      (laterPlaced : definition.rows[second]? = some later) (before : first < second) :
      ¬ (earlier.origin = later.origin ∧ earlier.event = later.event) := by
    obtain ⟨inside, rfl⟩ := List.getElem?_eq_some_iff.mp placed
    obtain ⟨laterInside, rfl⟩ := List.getElem?_eq_some_iff.mp laterPlaced
    exact List.pairwise_iff_getElem.mp wellFormed.single first second inside laterInside before
  obtain ⟨rowNotInit, here⟩ := wellFormed.around_of_onTheWay notInit listed key onTheWay
  obtain ⟨otherNotInit, otherHere⟩ :=
    wellFormed.around_of_onTheWay notInit otherListed otherKey otherOnTheWay
  rcases Hierarchy.nested_of_around wellFormed.distinct here otherHere with same | outside | inside
  · rcases Nat.lt_trichotomy position otherPosition with before | here | after
    · exact absurd ⟨same, events⟩ (apart placed otherPlaced before)
    · exact here
    · exact absurd ⟨same.symm, events.symm⟩ (apart otherPlaced placed after)
  · exact absurd outside (wellFormed.unambiguous row listed other otherListed events rowNotInit)
  · exact absurd inside
      (wellFormed.unambiguous other otherListed row listed events.symm otherNotInit)

theorem handles_unique {state other : String} (onTheWay : definition.OnTheWay control state)
    (handles : definition.Handles state event) (otherOnTheWay : definition.OnTheWay control other)
    (otherHandles : definition.Handles other event) : state = other := by
  obtain ⟨row, listed, rfl, key⟩ := handles
  obtain ⟨otherRow, otherListed, rfl, otherKey⟩ := otherHandles
  obtain ⟨position, placed⟩ := List.mem_iff_getElem?.mp listed
  obtain ⟨otherPosition, otherPlaced⟩ := List.mem_iff_getElem?.mp otherListed
  have same := wellFormed.position_unique notInit placed otherPlaced onTheWay otherOnTheWay
    key otherKey
  rw [same, otherPlaced] at placed
  rw [Option.some.inj placed]

theorem handledOnce (notRoot : control ≠ rootName) : definition.HandledOnce control event where
  alone _ _ _ _ placed otherPlaced onTheWay otherOnTheWay key otherKey :=
    wellFormed.position_unique notInit placed otherPlaced onTheWay otherOnTheWay key otherKey
  fromRoot handler row := by
    constructor
    · intro handled
      have handles := (definition.handles_iff_firstRow? handler event).mpr ⟨row, handled.first⟩
      obtain ⟨own, listed, rfl, key⟩ := handles
      refine ⟨?_, (wellFormed.around_of_onTheWay notInit listed key handled.onTheWay).2,
        handled.first, ?_⟩
      · rw [Heard, if_neg notRoot]
        exact fun external => Bool.false_ne_true external.1
      · intro other around otherHandles
        exact Or.inl (wellFormed.handles_unique notInit
          (around.imp_right Or.inl) otherHandles handled.onTheWay ⟨own, listed, rfl, key⟩)
    · intro handled
      have handles := (definition.handles_iff_firstRow? handler event).mpr ⟨row, handled.first⟩
      refine ⟨handled.around.imp_right Or.inl, handled.first, ?_⟩
      intro other onTheWay otherHandles
      exact Or.inl (wellFormed.handles_unique notInit
        (handled.around.imp_right Or.inl) handles onTheWay otherHandles)

end MachineDefinition.WellFormed

namespace Machine

/-- In a declared state a machine answers every event by the row that handles it in the
definition. If the definition is accepted, that row would also be found from the root inwards.
-/
theorem answers_by_definition (made : machine.MadeFrom definition settings)
    (distinct : DistinctNames definition.states)
    (declared : Declared definition.states machine.runtime.control) :
    (∀ event : Event M.Data, event.name ≠ "" → machine.Answers definition settings event) ∧
      (definition.Accepted settings → ∀ name, name ≠ initEvent →
        definition.HandledOnce machine.runtime.control name) := by
  refine ⟨?_, ?_⟩
  · intro event named
    exact made.answers distinct declared named
  · intro accepted name notInit
    exact accepted.wellFormed.handledOnce notInit (Hierarchy.ne_root_of_declared distinct declared)

/-- Playing slowly, the player is switched off by a row two states further out, and knows no row
on playing. -/
theorem player_answers : (Player.machine.after [Player.press "on"]).runtime.control = "Slow" ∧
    (∃ row, Player.definition.HandledBy "Slow" "off" false "On" row ∧
      row.targets = [.always (.state "Off") .identity]) ∧
      (∀ handler row, ¬ Player.definition.HandledBy "Slow" "play" false handler row) ∧
        Player.definition.HandledOnce "Slow" "off" := by
  have made := (MadeFrom.created Player.created).after [Player.press "on"]
  have control : (Player.machine.after [Player.press "on"]).runtime.control = "Slow" := by rfl
  have declared : Declared Player.states
      (Player.machine.after [Player.press "on"]).runtime.control :=
    made.declared_of_contains (by decide +kernel) (by decide +kernel)
  obtain ⟨answers, once⟩ := answers_by_definition made Player.accepted.distinctNames declared
  have found : (Player.machine.after [Player.press "on"]).findHandler "Slow" "off" true =
      some ("On", 3) := by
    decide +kernel
  have ignored : ((Player.machine.after [Player.press "on"]).dispatch (Player.press "play")).result
      = .ok (.unhandled "Slow" "play") := by rfl
  obtain ⟨_, row, handled, placed, _⟩ :=
    ((answers (Player.press "off") (by decide)).lookup "On" 3).mp found
  obtain ⟨_, _, unheard⟩ :=
    ((answers (Player.press "play") (by decide)).unhandled "Slow" "play").mp ignored
  refine ⟨control, ⟨row, handled, ?_⟩, unheard.resolve_left (by decide),
    once Player.accepted "off" (by decide)⟩
  cases placed
  rfl

end Machine

end Statechart
