import Statechart.Proofs.Machine.Rest

set_option autoImplicit false

namespace Statechart

open StateNode TakenStep

variable {M : Model} {definition : MachineDefinition M} {settings : Settings} {machine : Machine M}

namespace MachineDefinition

/-- The row that starts a machine does not start it: all its targets are guarded, and no guard
holds at first. -/
def StartRefused (definition : MachineDefinition M) (settings : Settings) : Prop :=
  ∀ row ∈ definition.rows, row.isStart = true →
    ∀ guarded ∈ row.targets, ∃ guard, guarded.guard = some guard ∧
    guard.check definition.initialExt M.noData settings = .ok false

end MachineDefinition

namespace Machine

variable (accepted : definition.Accepted settings)

include accepted

theorem selectTarget_start_iff {handler : String} {external : Bool} {position : Nat}
    (found : (unstarted definition settings).findHandler rootName initEvent external =
      some (handler, position)) :
    selectTarget settings ⟨rootName, initEvent, definition.initialExt, M.noData⟩
        ((unstarted definition settings).targetsOf position) = .ok none ↔
        definition.StartRefused settings := by
  have made := MadeFrom.unstarted definition settings
  obtain ⟨row, placed, starts⟩ := made.row_of_findHandler_root found
  obtain ⟨only, _, _, unique⟩ := accepted.start_row
  have listed : row ∈ definition.rows := List.mem_of_getElem? placed
  rw [selectTarget_eq_none_iff, made.targetsOf_eq placed]
  constructor
  · intro refused other otherListed otherStarts
    rw [unique other otherListed otherStarts, ← unique row listed starts]
    exact refused
  · intro refused
    exact refused row listed starts

/-- Creation commits no transition exactly if the start is refused. -/
theorem committed_create_eq_nil_iff (created : (create definition settings).result = .ok machine) :
    (create definition settings).committed = [] ↔ definition.StartRefused settings := by
  obtain ⟨outcome, settled, _, same⟩ := create_eq_ok created
  obtain ⟨steps, last, finished, _, committed⟩ := dispatch_of_ok settled
  rw [same, committed, reports_eq_nil_iff]
  constructor
  · intro still
    subst still
    cases finished with
    | rested chain _ => exact nomatch chain.of_nil.2
    | unhandled chain _ stopped =>
      obtain ⟨rfl, isInit⟩ := chain.of_nil
      cases isInit
      exact absurd (findHandler_of_unhandled stopped)
        (findHandler_root_ne_none _ accepted.startRows_ne_nil)
    | noGuardSatisfied chain _ stopped =>
      obtain ⟨rfl, isInit⟩ := chain.of_nil
      cases isInit
      obtain ⟨_, _, found, refused⟩ := refused_of_noGuardSatisfied stopped
      exact (selectTarget_start_iff accepted found).mp refused
  · intro refused
    cases steps with
    | nil => rfl
    | cons step rest =>
      obtain ⟨_, chain⟩ := finished.exists_chain
      obtain ⟨_, _, took⟩ := took_of_step chain.first
      have none := (selectTarget_start_iff accepted took.handled).mpr refused
      exact nomatch none.symm.trans took.chosen

/-- A machine that was created is in the root exactly if its start was refused, and only
otherwise it is in a declared state throughout every run. -/
theorem declared_iff_start_not_refused
    (created : (create definition settings).result = .ok machine) :
    (machine.runtime.control = rootName ↔ definition.StartRefused settings) ∧
      ((∀ events, Declared definition.states (machine.after events).runtime.control) ↔
        ¬ definition.StartRefused settings) := by
  have declared {name : String} (atomic : DeclaredAtomic definition.states name) :
      Declared definition.states name := by
    obtain ⟨node, inside, named, _⟩ := atomic
    exact ⟨node, inside, named⟩
  have notRoot {name : String} (isDeclared : Declared definition.states name) : name ≠
      rootName := by
    obtain ⟨node, inside, rfl⟩ := isDeclared
    exact Hierarchy.name_ne_root accepted.distinctNames inside
  have still := committed_create_eq_nil_iff accepted created
  have first := control_of_committed accepted created []
  rw [committed, List.append_nil] at first
  refine ⟨⟨?_, ?_⟩, ?_, ?_⟩
  · intro inRoot
    apply Classical.byContradiction
    intro started
    exact notRoot (declared (first.2 (mt still.mp started))) inRoot
  · intro refused
    exact first.1 (still.mpr refused)
  · intro throughout refused
    exact notRoot (throughout []) (first.1 (still.mpr refused))
  · intro started events
    have moved := List.append_ne_nil_of_left_ne_nil (mt still.mp started) (machine.committed events)
    exact declared ((control_of_committed accepted created events).2 moved)

omit accepted

/-- The player starts unconditionally, so it is in a declared state whatever is pressed. -/
theorem player_declared : ¬ Player.definition.StartRefused {} ∧
    ∀ events, Declared Player.states (Player.machine.after events).runtime.control := by
  have started : ¬ Player.definition.StartRefused {} := by
    intro refused
    have listed : Transition.start "Off" ∈ Player.definition.rows :=
      List.mem_append_right _ List.mem_cons_self
    obtain ⟨guard, isGuard, _⟩ := refused (.start "Off") listed rfl _ List.mem_cons_self
    cases isGuard
  exact ⟨started, (declared_iff_start_not_refused Player.accepted Player.created).2.mpr started⟩

end Machine

namespace Player

def ready : Guard model where
  name := "ready"
  check _ _ _ := .ok false

/-- A player that is entered only when it is ready, and it never is. -/
def locked : MachineDefinition model where
  states := [.atomic "Off"]
  events := []
  transitions := [.guarded rootName initEvent [.when ready (.state "Off") .identity]]
  initialExt := (0 : Nat)
  initialState := none
  reducer := reducer

end Player

namespace Machine

/-- A machine of an accepted definition may be left in the root by its creation. -/
theorem not_forall_created_declared :
    ¬ ∀ (M : Model) (definition : MachineDefinition M) (settings : Settings) (machine : Machine M),
      definition.Accepted settings → (create definition settings).result = .ok machine →
        ∀ events, Declared definition.states (machine.after events).runtime.control := by
  intro always
  have accepted : Player.locked.Accepted {} := by
    rw [MachineDefinition.Accepted, Contract.checkAll_eq_ok_iff]
    decide +kernel
  have created : (create Player.locked {}).result = .ok (unstarted Player.locked {}) := by rfl
  obtain ⟨node, inside, named⟩ := always Player.model Player.locked {} _ accepted created []
  exact Hierarchy.name_ne_root accepted.distinctNames inside named

end Machine

end Statechart
