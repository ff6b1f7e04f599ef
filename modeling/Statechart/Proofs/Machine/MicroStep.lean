import Statechart.Machine.MicroStep
import Statechart.Proofs.Machine.Lookup

set_option autoImplicit false

namespace Statechart

open StateNode TakenStep

variable {M : Model} {definition : MachineDefinition M} {settings : Settings} {machine : Machine M}

namespace Hierarchy

variable {states : List StateNode} (distinct : DistinctNames states)

include distinct

theorem listsAround_historyAncestors (state : String) :
    ListsAround states state ((ofStates states).historyAncestors state) where
  outwards := (List.pairwise_cons.mp (encloses_pairwise distinct state)).2
  complete outer := mem_historyAncestors_iff distinct outer state

/-- There is one way to list the states around a state. -/
theorem eq_historyAncestors_of_listsAround {state : String} {around : List String}
    (lists : ListsAround states state around) :
    around = (ofStates states).historyAncestors state := by
  have nodup {names : List String}
      (outwards : names.Pairwise (fun inner outer => Encloses states outer inner)) :
      names.Nodup := by
    apply outwards.imp
    intro inner outer encloses same
    exact not_encloses_self distinct inner (same ▸ encloses)
  have listed := listsAround_historyAncestors distinct state
  have sameNames : around.Perm ((ofStates states).historyAncestors state) := by
    rw [List.perm_ext_iff_of_nodup (nodup lists.outwards) (nodup listed.outwards)]
    intro outer
    rw [lists.complete, listed.complete]
  apply sameNames.eq_of_pairwise _ lists.outwards listed.outwards
  intro inner outer _ _ above below
  exact absurd (encloses_trans distinct above below) (not_encloses_self distinct outer)

end Hierarchy

namespace MachineDefinition

theorem Raises.unique {state event other : String} (raises : definition.Raises state event)
    (otherRaises : definition.Raises state other) : event = other := by
  cases raises with
  | init compound own =>
    cases otherRaises with
    | init _ _ => rfl
    | eventless simple => exact absurd ⟨compound, own⟩ simple
  | eventless simple =>
    cases otherRaises with
    | init compound own => exact absurd ⟨compound, own⟩ simple
    | eventless _ => rfl

theorem LeavesPending.unique {state : String} {pending other : Option String}
    (leaves : definition.LeavesPending state pending)
    (otherLeaves : definition.LeavesPending state other) :
    pending = other := by
  cases pending with
  | none =>
    cases other with
    | none => rfl
    | some event => exact absurd otherLeaves.2 (leaves event otherLeaves.1)
  | some event =>
    cases other with
    | none => exact absurd leaves.2 (otherLeaves event leaves.1)
    | some raised => exact congrArg some (leaves.1.unique otherLeaves.1)

end MachineDefinition

namespace Machine

/-- Targets that are refused are passed over. -/
theorem selectTarget_append (settings : Settings) (site : CallSite M)
    {earlier : List (GuardedTarget M)}
    (refused : ∀ other ∈ earlier, other.Refused settings site.ext site.data)
    (rest : List (GuardedTarget M)) :
    selectTarget settings site (earlier ++ rest) = selectTarget settings site rest := by
  induction earlier with
  | nil => rfl
  | cons first more ih =>
    obtain ⟨guard, isGuard, answer⟩ := refused first List.mem_cons_self
    have later := ih (fun other member => refused other (List.mem_cons_of_mem _ member))
    rw [List.cons_append, selectTarget]
    simp only [isGuard, answer, later]

/-- The ways in which choosing a target may end. -/
inductive Selects (settings : Settings) (site : CallSite M) (targets : List (GuardedTarget M)) :
    Except (DispatchError M) (Option (GuardedTarget M)) → Prop where
  | refused (all : ∀ guarded ∈ targets, guarded.Refused settings site.ext site.data) :
    Selects settings site targets (.ok none)
  | chosen {guarded : GuardedTarget M}
    (reached : guarded.ReachedIn targets settings site.ext site.data)
    (admitted : guarded.Admitted settings site.ext site.data) :
    Selects settings site targets (.ok (some guarded))
  | failed {guarded : GuardedTarget M} {guard : Guard M} {source : String}
    (reached : guarded.ReachedIn targets settings site.ext site.data)
    (isGuard : guarded.guard = some guard)
    (answer : guard.check site.ext site.data settings = .error source) :
    Selects settings site targets (.error (.guardFailed guard.name site source))

theorem selectTarget_selects (settings : Settings) (site : CallSite M)
    (targets : List (GuardedTarget M)) :
    Selects settings site targets (selectTarget settings site targets) := by
  induction targets with
  | nil => exact .refused (List.forall_mem_nil _)
  | cons first rest ih =>
    have here : first.ReachedIn (first :: rest) settings site.ext site.data :=
      ⟨[], rest, rfl, List.forall_mem_nil _⟩
    rw [selectTarget]
    cases condition : first.guard with
    | none =>
      refine .chosen here ?_
      intro guard isGuard
      cases condition.symm.trans isGuard
    | some guard =>
      dsimp only
      cases answer : guard.check site.ext site.data settings with
      | error source => exact .failed here condition answer
      | ok holds =>
        cases holds with
        | true =>
          refine .chosen here ?_
          intro other isGuard
          cases condition.symm.trans isGuard
          exact answer
        | false =>
          have refused : first.Refused settings site.ext site.data := ⟨guard, condition, answer⟩
          have further {guarded : GuardedTarget M}
              (reached : guarded.ReachedIn rest settings site.ext site.data) :
              guarded.ReachedIn (first :: rest) settings site.ext site.data := by
            obtain ⟨earlier, later, rfl, before⟩ := reached
            exact ⟨first :: earlier, later, rfl, List.forall_mem_cons.mpr ⟨refused, before⟩⟩
          dsimp only
          generalize selectTarget settings site rest = result at ih
          cases ih with
          | refused all => exact .refused (List.forall_mem_cons.mpr ⟨refused, all⟩)
          | chosen reached admitted => exact .chosen (further reached) admitted
          | failed reached isGuard answer => exact .failed (further reached) isGuard answer

theorem Selects.selectTarget_eq {settings : Settings} {site : CallSite M}
    {targets : List (GuardedTarget M)}
    {result : Except (DispatchError M) (Option (GuardedTarget M))}
    (selects : Selects settings site targets result) :
    selectTarget settings site targets = result := by
  cases selects with
  | refused all => exact (selectTarget_eq_none_iff settings site targets).mpr all
  | @chosen guarded reached admitted =>
    obtain ⟨earlier, later, rfl, before⟩ := reached
    rw [selectTarget_append settings site before, selectTarget]
    cases condition : guarded.guard with
    | none => rfl
    | some guard => simp only [admitted guard condition]
  | failed reached isGuard answer =>
    obtain ⟨earlier, later, rfl, before⟩ := reached
    rw [selectTarget_append settings site before, selectTarget]
    simp only [isGuard, answer]

section

variable (made : machine.MadeFrom definition settings) (distinct : DistinctNames definition.states)

include made distinct

theorem MadeFrom.leaves_iff (runtime : Runtime M) (history : HistoryStore) :
    definition.Leaves runtime history ↔ machine.leave runtime = history := by
  have recorded : machine.leave runtime = runtime.history.recordExit runtime.control
      ((Hierarchy.ofStates definition.states).historyAncestors runtime.control) := by
    rw [leave, made.indices]
    by_cases inRoot : runtime.control = rootName
    · rw [if_pos inRoot, inRoot, Hierarchy.historyAncestors_root distinct]
      rfl
    · rw [if_neg inRoot]
      rfl
  rw [recorded]
  constructor
  · intro leaves
    obtain ⟨around, lists, rfl⟩ := leaves
    rw [Hierarchy.eq_historyAncestors_of_listsAround distinct lists]
  · intro same
    exact ⟨_, Hierarchy.listsAround_historyAncestors distinct runtime.control, same.symm⟩

theorem MadeFrom.declared_iff_enterable (name : String) :
    Declared definition.states name ↔
    ¬ (name = rootName ∨ machine.indices.hierarchy.contains name = false) := by
  have known : machine.indices.hierarchy.contains name = true ↔
      name = rootName ∨ Declared definition.states name := by
    rw [made.indices]
    exact Hierarchy.contains_iff name
  rw [not_or, Bool.not_eq_false, known]
  constructor
  · intro declared
    exact ⟨Hierarchy.ne_root_of_declared distinct declared, Or.inr declared⟩
  · intro placed
    exact placed.2.resolve_left placed.1

/-- What is pending in the loop is what the machine raises. -/
theorem MadeFrom.leavesPending_iff {state : String} (notRoot : state ≠ rootName)
    (pending : Option String) :
    definition.LeavesPending state pending ↔ machine.cascadeEvent state = pending := by
  cases raised : machine.cascadeEvent state with
  | some event =>
    obtain ⟨raises, own⟩ := made.raises_of_cascadeEvent distinct notRoot raised
    cases pending with
    | none =>
      refine iff_of_false ?_ nofun
      intro quiet
      exact quiet event raises own
    | some other =>
      constructor
      · intro leaves
        exact congrArg some (raises.unique leaves.1)
      · intro same
        cases same
        exact ⟨raises, own⟩
  | none =>
    have compound : machine.indices.hierarchy.isCompound state = true ↔
        DeclaredCompound definition.states state := by
      rw [made.indices]
      exact Hierarchy.isCompound_iff distinct notRoot
    have quiet : ∀ event, definition.Raises state event → ¬ definition.Handles state event := by
      intro event raises own
      unfold cascadeEvent at raised
      cases raises with
      | init isCompound isOwn =>
        rw [if_pos ⟨compound.mpr isCompound, (made.handles_iff notRoot initEvent).mpr isOwn⟩]
          at raised
        cases raised
      | eventless simple =>
        rw [← compound, ← made.handles_iff notRoot] at simple
        rw [if_neg simple, if_pos ((made.handles_iff notRoot eventlessKey).mpr own)] at raised
        cases raised
    cases pending with
    | none => exact iff_of_true quiet rfl
    | some event =>
      refine iff_of_false ?_ nofun
      intro leaves
      exact quiet event leaves.1 leaves.2

/-- The target that an event takes is the one that the machine chooses. -/
theorem MadeFrom.chooses_iff {data : M.Data} {runtime : Runtime M} {event : String}
    {external : Bool} {guarded : GuardedTarget M} :
    definition.Chooses settings data runtime event external guarded ↔ ∃ handler position,
      machine.findHandler runtime.control event external = some (handler, position) ∧
        selectTarget machine.settings ⟨runtime.control, event, runtime.ext, data⟩
          (machine.targetsOf position) = .ok (some guarded) := by
  constructor
  · intro chooses
    obtain ⟨handler, row, handled, reached⟩ := chooses.reached
    obtain ⟨position, found, targets⟩ := made.findHandler_of_handledBy distinct handled
    refine ⟨handler, position, found, ?_⟩
    rw [targets, made.settings]
    exact (Selects.chosen reached chooses.admitted).selectTarget_eq
  · intro chosen
    obtain ⟨handler, position, found, chosen⟩ := chosen
    obtain ⟨row, handled, targets⟩ := made.handledBy_of_findHandler distinct found
    rw [targets, made.settings] at chosen
    have selects := selectTarget_selects settings
      ⟨runtime.control, event, runtime.ext, data⟩ row.targets
    rw [chosen] at selects
    cases selects with
    | chosen reached admitted => exact ⟨⟨handler, row, handled, reached⟩, admitted⟩

end

/-- What a step comes to for the loop. -/
def StepResult.outcome : StepResult M → MicroOutcome M
  | .unhandled => .unhandled
  | .noGuardSatisfied => .refused
  | .taken step => .entered step.outputs step.next

section

variable {data : M.Data} {runtime : Runtime M} {event : String} {external : Bool}

theorem step_of_handled {handler : String} {position : Nat}
    (found : machine.findHandler runtime.control event external = some (handler, position)) :
    (selectTarget machine.settings ⟨runtime.control, event, runtime.ext, data⟩
      (machine.targetsOf position) = .ok none →
      machine.step runtime event data external = .ok .noGuardSatisfied) ∧
    ∀ error, selectTarget machine.settings ⟨runtime.control, event, runtime.ext, data⟩
        (machine.targetsOf position)
        = .error error → machine.step runtime event data external = .error error := by
  unfold step
  rw [found]
  simp only [bind, Except.bind, pure, Except.pure]
  constructor
  · intro chosen
    rw [chosen]
  · intro error chosen
    rw [chosen]

theorem step_of_chosen {handler : String} {position : Nat} {guarded : GuardedTarget M}
    (found : machine.findHandler runtime.control event external = some (handler, position))
    (chosen : selectTarget machine.settings ⟨runtime.control, event, runtime.ext, data⟩
      (machine.targetsOf position) = .ok (some guarded)) :
    machine.step runtime event data external
      = (machine.perform ⟨runtime.control, event, runtime.ext, data⟩ guarded.action).bind
        (fun (outputs, ext) =>
          (machine.enter runtime event guarded.target ext).map (fun next =>
            .taken ⟨runtime.control, event, handler, guarded.guard.map Guard.name,
                guarded.action.name, outputs, next⟩)) := by
  unfold step
  rw [found]
  simp only [bind, Except.bind, pure, Except.pure, chosen, Except.map]

end

section

variable (made : machine.MadeFrom definition settings) (distinct : DistinctNames definition.states)

include made distinct

/-- Every micro-step is the step that the machine takes. -/
theorem MadeFrom.step_of_microStep {data : M.Data} {runtime : Runtime M} {event : String}
    {external : Bool} {result : Except (DispatchError M) (MicroOutcome M)}
    (micro : definition.MicroStep settings data runtime event external result) :
    (machine.step runtime event data external).map StepResult.outcome = result := by
  cases micro with
  | unhandled nowhere =>
    rw [step, (made.findHandler_eq_none_iff distinct _ _ _).mpr nowhere]
    rfl
  | @refused handler row handled all =>
    obtain ⟨position, found, targets⟩ := made.findHandler_of_handledBy distinct handled
    have selects : Selects settings ⟨runtime.control, event, runtime.ext, data⟩ row.targets _ :=
      .refused all
    rw [← targets, ← made.settings] at selects
    rw [(step_of_handled found).1 selects.selectTarget_eq]
    rfl
  | @guardFailed handler source row guarded guard handled reached isGuard failed =>
    obtain ⟨position, found, targets⟩ := made.findHandler_of_handledBy distinct handled
    have selects : Selects settings ⟨runtime.control, event, runtime.ext, data⟩ row.targets _ :=
      .failed reached isGuard failed
    rw [← targets, ← made.settings] at selects
    rw [(step_of_handled found).2 _ selects.selectTarget_eq]
    rfl
  | actionFailed chooses failed =>
    obtain ⟨handler, position, found, chosen⟩ := (made.chooses_iff distinct).mp chooses
    rw [← made.settings] at failed
    rw [step_of_chosen found chosen, perform]
    simp only [failed]
    rfl
  | reducerFailed chooses ran failed =>
    obtain ⟨handler, position, found, chosen⟩ := (made.chooses_iff distinct).mp chooses
    rw [← made.settings] at ran
    rw [← made.reducer] at failed
    rw [step_of_chosen found chosen, perform]
    simp only [ran, failed]
    rfl
  | unknownTarget chooses ran folded left unknown =>
    obtain ⟨handler, position, found, chosen⟩ := (made.chooses_iff distinct).mp chooses
    rw [made.leaves_iff distinct] at left
    subst left
    rw [made.declared_iff_enterable distinct, not_not] at unknown
    rw [← made.settings] at ran
    rw [← made.reducer] at folded
    rw [step_of_chosen found chosen, perform]
    simp only [ran, folded, Except.bind, enter_eq, if_pos unknown]
    rfl
  | entered chooses ran folded left known =>
    obtain ⟨handler, position, found, chosen⟩ := (made.chooses_iff distinct).mp chooses
    rw [made.leaves_iff distinct] at left
    subst left
    rw [made.declared_iff_enterable distinct] at known
    rw [← made.settings] at ran
    rw [← made.reducer] at folded
    rw [step_of_chosen found chosen, perform]
    simp only [ran, folded, Except.bind, enter_eq, if_neg known]
    rfl

theorem MadeFrom.microStep_of_step (data : M.Data) (runtime : Runtime M) (event : String)
    (external : Bool) : definition.MicroStep settings data runtime event external
      ((machine.step runtime event data external).map StepResult.outcome) := by
  have performs {action : Action M} {site : CallSite M} {outputs : Option (List M.Output)}
      {ext : M.Ext} (performed : machine.perform site action = .ok (outputs, ext)) :
      ∃ result, action.run site.ext site.data settings = .ok result ∧ result.outputs = outputs ∧
        definition.reducer site.ext result.updates = .ok ext := by
    rw [perform, made.settings, made.reducer] at performed
    cases ran : action.run site.ext site.data settings with
    | error source =>
      rw [ran] at performed
      cases performed
    | ok result =>
      rw [ran] at performed
      dsimp only at performed
      cases folded : definition.reducer site.ext result.updates with
      | error source =>
        rw [folded] at performed
        cases performed
      | ok ext =>
        rw [folded] at performed
        cases performed
        exact ⟨result, rfl, rfl, folded⟩
  have ends := machine.step_ends data runtime event external
  generalize machine.step runtime event data external = result at ends
  cases ends with
  | unhandled handled => exact .unhandled ((made.findHandler_eq_none_iff distinct _ _ _).mp handled)
  | noGuardSatisfied handled chosen =>
    obtain ⟨row, handledBy, targets⟩ := made.handledBy_of_findHandler distinct handled
    rw [targets, made.settings] at chosen
    exact .refused handledBy ((selectTarget_eq_none_iff _ _ _).mp chosen)
  | guardFailed handled chosen =>
    obtain ⟨row, handledBy, targets⟩ := made.handledBy_of_findHandler distinct handled
    rw [targets, made.settings] at chosen
    have selects := selectTarget_selects settings
      ⟨runtime.control, event, runtime.ext, data⟩ row.targets
    rw [chosen] at selects
    cases selects with
    | failed reached isGuard answer => exact .guardFailed handledBy reached isGuard answer
  | performFailed handled chosen performed =>
    have chooses := (made.chooses_iff distinct).mpr ⟨_, _, handled, chosen⟩
    rcases perform_error performed with ⟨source, failed, rfl⟩ | ⟨result, source, ran, failed, rfl⟩
    · rw [made.settings] at failed
      exact .actionFailed chooses failed
    · rw [made.settings] at ran
      rw [made.reducer] at failed
      exact .reducerFailed chooses ran failed
  | enterFailed handled chosen performed entered =>
    have chooses := (made.chooses_iff distinct).mpr ⟨_, _, handled, chosen⟩
    obtain ⟨result, ran, _, folded⟩ := performs performed
    have left := (made.leaves_iff distinct runtime _).mpr rfl
    rw [enter_eq] at entered
    split at entered
    · rename_i unknown
      cases entered
      refine .unknownTarget chooses ran folded left ?_
      rw [made.declared_iff_enterable distinct, not_not]
      exact unknown
    · cases entered
  | @taken step position guarded took =>
    have chooses := (made.chooses_iff distinct).mpr ⟨_, _, took.handled, took.chosen⟩
    obtain ⟨result, ran, outputs, folded⟩ := performs took.performed
    have left := (made.leaves_iff distinct runtime _).mpr rfl
    have known : Declared definition.states (guarded.target.resolve (machine.leave runtime)) := by
      rw [← took.entered]
      exact made.declared_of_contains took.notRoot took.known
    have micro : definition.MicroStep settings data runtime event external _ :=
      .entered chooses ran folded left known
    have next : step.next =
        ⟨guarded.target.resolve (machine.leave runtime), step.next.ext, machine.leave runtime⟩ := by
      rw [← took.entered, ← took.recorded]
    rw [outputs, ← next] at micro
    exact micro

/-- The micro-step on an event is the step that the machine takes. -/
theorem MadeFrom.microStep_iff {data : M.Data} {runtime : Runtime M} {event : String}
    {external : Bool} {result : Except (DispatchError M) (MicroOutcome M)} :
    definition.MicroStep settings data runtime event external result ↔
      (machine.step runtime event data external).map StepResult.outcome = result := by
  constructor
  · exact made.step_of_microStep distinct
  · intro same
    rw [← same]
    exact made.microStep_of_step distinct data runtime event external

end

end Machine

end Statechart
