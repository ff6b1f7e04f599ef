import Statechart.Proofs.Machine.Run

set_option autoImplicit false

namespace Statechart

variable {M : Model}

namespace TakenStep

theorem mem_reports_iff {depth : Nat} {steps : List (TakenStep M)} {report : TraceKind} :
    report ∈ reports depth steps ↔
      ∃ earlier step later, steps = earlier ++ step :: later ∧
      report = step.report (depth + earlier.length) := by
  induction steps generalizing depth with
  | nil => simp [reports]
  | cons first rest ih =>
    rw [reports, List.mem_cons, ih]
    constructor
    · intro either
      rcases either with rfl | ⟨earlier, step, later, rfl, rfl⟩
      · exact ⟨[], first, rest, rfl, rfl⟩
      · refine ⟨first :: earlier, step, later, rfl, ?_⟩
        rw [List.length_cons, Nat.add_assoc, Nat.add_comm 1]
    · intro found
      obtain ⟨earlier, step, later, split, rfl⟩ := found
      cases earlier with
      | nil =>
        cases split
        exact Or.inl rfl
      | cons head earlier =>
        cases split
        refine Or.inr ⟨earlier, step, later, rfl, ?_⟩
        rw [List.length_cons, Nat.add_assoc, Nat.add_comm 1]

end TakenStep

namespace Machine

open TakenStep

variable {machine : Machine M} {data : M.Data} {external : Bool} {runtime last : Runtime M}
  {event : String}

namespace Chain

/-- A chain whose last state raised an event is one step longer once that event was handled. -/
theorem snoc {earlier : List (TakenStep M)} {pending : String} {step : TakenStep M}
    (chain : Chain machine data external runtime event earlier last (some pending))
    (taken : machine.step last pending data (external && earlier.isEmpty) = .ok (.taken step)) :
    Chain machine data external runtime event (earlier ++ [step]) step.next
      (machine.cascadeEvent step.next.control) := by
  generalize waiting : some pending = still at chain
  induction chain with
  | start external runtime event =>
    cases waiting
    rw [List.isEmpty_nil, Bool.and_true] at taken
    cases raises : machine.cascadeEvent step.next.control with
    | none => exact Chain.rest taken raises
    | some raised => exact Chain.follow taken raises (Chain.start false step.next raised)
  | rest _ _ => cases waiting
  | follow first raises _ ih =>
    rw [List.isEmpty_cons, Bool.and_false] at taken
    rw [Bool.false_and] at ih
    exact Chain.follow first raises (ih taken waiting)

/-- Every step of a chain comes after a chain of those before it. -/
theorem split {earlier later : List (TakenStep M)} {step : TakenStep M} {pending : Option String}
    (chain : Chain machine data external runtime event (earlier ++ step :: later) last pending) :
    ∃ before raised, Chain machine data external runtime event earlier before (some raised) ∧
      machine.step before raised data (external && earlier.isEmpty) = .ok (.taken step) := by
  induction earlier generalizing external runtime event with
  | nil =>
    refine ⟨runtime, event, Chain.start external runtime event, ?_⟩
    rw [List.isEmpty_nil, Bool.and_true]
    exact chain.first
  | cons first between ih =>
    rw [List.isEmpty_cons, Bool.and_false]
    rw [List.cons_append] at chain
    generalize whole : between ++ step :: later = rest at chain
    cases chain with
    | rest _ _ =>
      exact absurd whole (List.append_ne_nil_of_right_ne_nil between (List.cons_ne_nil step later))
    | follow taken raises onward =>
      subst whole
      obtain ⟨before, raised, chain, here⟩ := ih onward
      exact ⟨before, raised, Chain.follow taken raises chain, here⟩

/-- At the end of a chain the recursion of a dispatch is where it would be if it had started
there, with less room. -/
theorem cascade_goesOn {earlier : List (TakenStep M)} {pending : String}
    (chain : Chain machine data external runtime event earlier last (some pending))
    (room depth : Nat)
    (flag : external = decide (depth = 0)) :
    (machine.cascade data (earlier.length + room) depth runtime event).reports
        = reports depth earlier ++
          (machine.cascade data room (depth + earlier.length) last pending).reports ∧
      (machine.cascade data (earlier.length + room) depth runtime event).result.map Prod.snd
        = (machine.cascade data room (depth + earlier.length) last pending).result.map
          Prod.snd := by
  generalize waiting : some pending = still at chain
  induction chain generalizing depth with
  | start external runtime event =>
    cases waiting
    rw [List.length_nil, Nat.zero_add, Nat.add_zero]
    exact ⟨rfl, rfl⟩
  | rest _ _ => cases waiting
  | @follow external runtime event step raised steps last pending taken raises onward ih =>
    obtain ⟨reported, came⟩ := ih (depth + 1) (by simp) waiting
    have further : depth + (step :: steps).length = depth + 1 + steps.length := by
      rw [List.length_cons]
      omega
    have unfolded : machine.cascade data ((step :: steps).length + room) depth runtime event
        = .prepend step depth
          (machine.cascade data (steps.length + room) (depth + 1) step.next raised) := by
      rw [List.length_cons, Nat.add_right_comm, cascade, advance, ← flag, taken]
      dsimp only
      rw [raises]
    rw [further, unfolded]
    refine ⟨congrArg (step.report depth :: ·) reported, ?_⟩
    -- A step in front changes the outputs only.
    rw [← came, CascadeResult.prepend]
    cases (machine.cascade data (steps.length + room) (depth + 1) step.next raised).result with
    | error error => rfl
    | ok result => rfl

/-- If the recursion fails from the end of a chain on, it fails as a whole. -/
theorem cascade_fails {earlier : List (TakenStep M)} {pending : String}
    (chain : Chain machine data external runtime event earlier last (some pending))
    (room depth : Nat) (flag : external = decide (depth = 0)) {error : DispatchError M}
    (failed : (machine.cascade data room (depth + earlier.length) last pending).result =
      .error error) :
    (machine.cascade data (earlier.length + room) depth runtime event).result = .error error := by
  have came := (chain.cascade_goesOn room depth flag).2
  rw [failed] at came
  cases result : (machine.cascade data (earlier.length + room) depth runtime event).result with
  | error other =>
    rw [result] at came
    cases came
    rfl
  | ok result =>
    rw [result] at came
    cases came

end Chain

theorem Finishes.chain_le {room : Nat} {steps : List (TakenStep M)}
    {result : Except (DispatchError M) (DispatchOutcome M.Output × Runtime M)}
    (finished : Finishes machine data room external runtime event steps result) :
    steps.length ≤ room + 1 ∧ ∃ last pending,
    Chain machine data external runtime event steps last pending := by
  cases finished with
  | rested chain bound => exact ⟨bound, _, _, chain⟩
  | unhandled chain bound _ => exact ⟨Nat.le_succ_of_le bound, _, _, chain⟩
  | noGuardSatisfied chain bound _ => exact ⟨Nat.le_succ_of_le bound, _, _, chain⟩
  | failed chain bound _ => exact ⟨Nat.le_succ_of_le bound, _, _, chain⟩
  | exceeded chain bound => exact ⟨Nat.le_of_eq bound, _, _, chain⟩

/-- A transition that is taken in a dispatch, by a target of a row, after earlier ones of the
same dispatch led to the runtime before it. Whether the dispatch fails later does not matter. -/
structure Takes (machine : Machine M) (event : Event M.Data) (earlier : List (TakenStep M))
    (before : Runtime M) (step : TakenStep M) (guarded : GuardedTarget M) : Prop where
  named : event.name ≠ ""
  bound : earlier.length ≤ machine.settings.maxCascadeDepth
  chain : Chain machine event.data true machine.runtime event.name earlier before (some step.event)
  taken : machine.step before step.event event.data earlier.isEmpty = .ok (.taken step)
  chosen : ∃ position, Took machine event.data before step.event earlier.isEmpty step
    position guarded

section

variable {event : Event M.Data}

theorem takes_of_step {earlier : List (TakenStep M)} {before : Runtime M} {step : TakenStep M}
    {raised : String} (named : event.name ≠ "")
    (bound : earlier.length ≤ machine.settings.maxCascadeDepth)
    (chain : Chain machine event.data true machine.runtime event.name earlier before (some raised))
    (taken : machine.step before raised event.data earlier.isEmpty = .ok (.taken step)) :
    ∃ guarded, machine.Takes event earlier before step guarded := by
  obtain ⟨position, guarded, took⟩ := took_of_step taken
  have same := took.event
  subst same
  exact ⟨guarded, named, bound, chain, taken, position, took⟩

theorem mem_reports_of_mem_cascade (named : event.name ≠ "") {report : TraceKind}
    (member : report ∈
      (machine.cascade event.data machine.settings.maxCascadeDepth 0 machine.runtime
        event.name).reports) :
    report ∈ (machine.dispatch event).reports := by
  unfold dispatch
  rw [if_neg named]
  dsimp only
  split <;> exact List.mem_append_left _ (List.mem_cons_of_mem _ member)

theorem dispatch_error_of_cascade (named : event.name ≠ "") {error : DispatchError M}
    (failed : (machine.cascade event.data machine.settings.maxCascadeDepth 0 machine.runtime
      event.name).result = .error error) : (machine.dispatch event).result = .error error := by
  unfold dispatch
  rw [if_neg named]
  dsimp only
  rw [failed]

/-- A step that fails after others makes the dispatch fail. -/
theorem Chain.dispatch_fails {earlier : List (TakenStep M)} {pending : String}
    {error : DispatchError M} (named : event.name ≠ "")
    (bound : earlier.length ≤ machine.settings.maxCascadeDepth)
    (chain : Chain machine event.data true machine.runtime event.name earlier last (some pending))
    (failed : machine.step last pending event.data earlier.isEmpty = .error error) :
    (machine.dispatch event).result = .error error := by
  obtain ⟨room, enough⟩ := Nat.exists_eq_add_of_le bound
  apply dispatch_error_of_cascade named
  rw [enough]
  apply chain.cascade_fails room 0 rfl
  have flag : decide (0 + earlier.length = 0) = earlier.isEmpty := by cases earlier <;> simp
  rw [← flag] at failed
  obtain ⟨follow, unfolded⟩ :=
    machine.cascade_eq_advance event.data room (0 + earlier.length) last pending
  rw [unfolded, advance, failed]

/-- Where a state raises an event after as many steps as there may be, the dispatch fails. -/
theorem Takes.dispatch_exceeds {earlier : List (TakenStep M)} {before : Runtime M}
    {step : TakenStep M} {guarded : GuardedTarget M} {raised : String}
    (takes : machine.Takes event earlier before step guarded)
    (last : earlier.length = machine.settings.maxCascadeDepth)
    (raises : machine.cascadeEvent step.next.control = some raised) :
    (machine.dispatch event).result =
      .error (.cascadeLimitExceeded step.next.control machine.settings.maxCascadeDepth) := by
  apply dispatch_error_of_cascade takes.named
  rw [← Nat.add_zero machine.settings.maxCascadeDepth, ← last]
  apply takes.chain.cascade_fails 0 0 rfl
  rw [last]
  have flag : decide (0 + machine.settings.maxCascadeDepth = 0) = earlier.isEmpty := by
    rw [← last]
    cases earlier <;> simp
  rw [cascade, advance, flag, takes.taken]
  dsimp only
  rw [raises]
  rfl

theorem Takes.chain_concat {earlier : List (TakenStep M)} {before : Runtime M} {step : TakenStep M}
    {guarded : GuardedTarget M} (takes : machine.Takes event earlier before step guarded) :
    Chain machine event.data true machine.runtime event.name (earlier ++ [step]) step.next
      (machine.cascadeEvent step.next.control) :=
  takes.chain.snoc takes.taken

/-- The transitions that are taken are those that the dispatch reports. -/
theorem mem_reports_dispatch_iff {report : TraceKind} (isTransition : report.isTransition = true) :
    report ∈ (machine.dispatch event).reports ↔
      ∃ earlier before step guarded, machine.Takes event earlier before step guarded ∧
        report = step.report earlier.length := by
  constructor
  · intro member
    have taken {steps : List (TakenStep M)}
        {result : Except (DispatchError M) (DispatchOutcome M.Output × Runtime M)}
        (named : event.name ≠ "")
        (finished : Finishes machine event.data machine.settings.maxCascadeDepth true
          machine.runtime event.name steps result) (inSteps : report ∈ reports 0 steps) :
        ∃ earlier before step guarded, machine.Takes event earlier before step guarded ∧
          report = step.report earlier.length := by
      obtain ⟨earlier, step, later, rfl, rfl⟩ := mem_reports_iff.mp inSteps
      obtain ⟨bound, _, _, chain⟩ := finished.chain_le
      obtain ⟨before, raised, chainBefore, here⟩ := chain.split
      rw [List.length_append, List.length_cons] at bound
      obtain ⟨guarded, takes⟩ := takes_of_step named (by omega) chainBefore here
      exact ⟨earlier, before, step, guarded, takes, congrArg step.report (Nat.zero_add _)⟩
    have settles := machine.dispatch_settles event
    generalize machine.dispatch event = result at settles member
    cases settles with
    | nameless _ => cases member
    | settled named finished =>
      rw [List.cons_append, List.mem_cons, List.mem_append, List.mem_singleton] at member
      rcases member with rfl | inSteps | rfl
      · cases isTransition
      · exact taken named finished inSteps
      · cases isTransition
    | failed named finished =>
      rw [List.cons_append, List.mem_cons, List.mem_append, List.mem_singleton] at member
      rcases member with rfl | inSteps | rfl
      · cases isTransition
      · exact taken named finished inSteps
      · cases isTransition
  · rintro ⟨earlier, before, step, guarded, takes, rfl⟩
    apply mem_reports_of_mem_cascade takes.named
    obtain ⟨room, enough⟩ := Nat.exists_eq_add_of_le takes.bound
    rw [enough, (takes.chain.cascade_goesOn room 0 rfl).1]
    apply List.mem_append_right
    have flag : decide (0 + earlier.length = 0) = earlier.isEmpty := by cases earlier <;> simp
    have taken := takes.taken
    rw [← flag] at taken
    obtain ⟨follow, unfolded⟩ :=
      machine.cascade_eq_advance event.data room (0 + earlier.length) before step.event
    rw [unfolded, advance, taken]
    dsimp only
    rw [Nat.zero_add]
    cases machine.cascadeEvent step.next.control with
    | none => exact List.mem_cons_self
    | some raised => exact List.mem_cons_self

end

end Machine

end Statechart
