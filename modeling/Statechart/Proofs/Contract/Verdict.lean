import Statechart.Contract.Verdict
import Statechart.Proofs.Contract.Accepted

set_option autoImplicit false

namespace Statechart

namespace Validation

variable {ε α β : Type}

@[simp] theorem errors_map (change : α → β) (validation : Validation ε α) :
    (validation.map change).errors = validation.errors := by
  cases validation <;> rfl

theorem eq_success_iff (validation : Validation ε Unit) :
    validation = .success () ↔ validation.errors = [] := by
  cases validation with
  | success _ => exact iff_of_true rfl rfl
  | failure _ _ => exact iff_of_false nofun nofun

theorem isFailure_iff (validation : Validation ε Unit) :
    validation.isFailure = true ↔ ¬ validation = .success () := by
  cases validation with
  | success _ => exact iff_of_false nofun (absurd rfl)
  | failure _ _ => exact iff_of_true rfl nofun

theorem collect_inOrder : InOrder (collect : List (Validation ε α) → Validation ε (List α)) := by
  intro parts
  induction parts with
  | nil => rfl
  | cons part rest ih =>
    rw [List.flatMap_cons, ← ih]
    show (cons part (collect rest)).errors = part.errors ++ (collect rest).errors
    cases part with
    | failure _ _ => rfl
    | success _ => cases collect rest <;> rfl

/-- A verdict tells what was found, in the order in which it was found. -/
theorem errors_verdict {all : List (Validation ε Unit) → Validation ε (List Unit)}
    (inOrder : InOrder all) (found : List ε) : (verdict all found).errors = found := by
  by_cases nothing : found = []
  · rw [verdict, if_pos nothing, nothing]
    rfl
  · rw [verdict, if_neg nothing, errors_map, inOrder, List.flatMap_map]
    exact List.flatMap_singleton' found

end Validation

namespace Inspection

open Validation

variable {all : List (Validation Violation Unit) → Validation Violation (List Unit)}
  {context : ContractContext}

theorem verdicts_of_stops {inspection : Inspection} (stops : inspection.Stops context)
    (rest : List Inspection) :
    verdicts context (inspection :: rest) = [inspection.verdict context] := by
  rw [verdicts]
  exact if_pos (by rw [(isFailure_iff _).mpr stops.2, stops.1, Bool.true_and])

theorem verdicts_of_not_stops {inspection : Inspection} (goesOn : ¬ inspection.Stops context)
    (rest : List Inspection) :
    verdicts context (inspection :: rest) =
      inspection.verdict context :: verdicts context rest := by
  rw [verdicts]
  refine if_neg (fun flagged => goesOn ?_)
  rw [Bool.and_eq_true] at flagged
  exact ⟨flagged.2, (isFailure_iff _).mp flagged.1⟩

theorem verdicts_append {before : List Inspection}
    (none : ∀ inspection ∈ before, ¬ inspection.Stops context) (after : List Inspection) :
    verdicts context (before ++ after) =
      before.map (fun inspection => inspection.verdict context) ++ verdicts context after := by
  induction before with
  | nil => rfl
  | cons first rest ih =>
    obtain ⟨goesOn, others⟩ := List.forall_mem_cons.mp none
    rw [List.cons_append, verdicts_of_not_stops goesOn, ih others]
    rfl

theorem Examined.verdicts_eq {inspections examined : List Inspection}
    (ran : Examined context inspections examined) :
    verdicts context inspections = examined.map (fun inspection => inspection.verdict context) := by
  cases ran with
  | all none =>
    have whole := verdicts_append none []
    rwa [List.append_nil, verdicts, List.append_nil] at whole
  | upTo none stops =>
    rw [verdicts_append none, verdicts_of_stops stops, List.map_append]
    rfl

theorem exists_examined (context : ContractContext) (inspections : List Inspection) :
    ∃ examined, Examined context inspections examined := by
  induction inspections with
  | nil => exact ⟨[], .all (List.forall_mem_nil _)⟩
  | cons first rest ih =>
    by_cases stops : first.Stops context
    · exact ⟨_, .upTo (List.forall_mem_nil _) stops⟩
    · obtain ⟨_, ran⟩ := ih
      cases ran with
      | all none => exact ⟨_, .all (List.forall_mem_cons.mpr ⟨stops, none⟩)⟩
      | @upTo before after last none stopsThere =>
        exact ⟨_, @Examined.upTo _ (first :: before) _ _
          (List.forall_mem_cons.mpr ⟨stops, none⟩) stopsThere⟩

theorem Examined.passes_iff {inspections examined : List Inspection}
    (ran : Examined context inspections examined) :
    (∀ inspection ∈ examined, inspection.Passes context) ↔
    ∀ inspection ∈ inspections, inspection.Passes context := by
  cases ran with
  | all _ => exact Iff.rfl
  | upTo _ stops =>
    exact iff_of_false (fun passes => stops.2 (passes _ (by simp)))
      (fun passes => stops.2 (passes _ (by simp)))

theorem checkAll_eq (context : ContractContext) (inspections : List Inspection) :
    checkAll all context inspections
      = match (all (verdicts context inspections)).errors with
        | [] => .ok ()
        | found => .error ⟨found⟩ := by
  rw [checkAll]
  cases all (verdicts context inspections) <;> rfl

section

variable (inOrder : InOrder all)

include inOrder

theorem Examined.errors_all {inspections examined : List Inspection}
    (ran : Examined context inspections examined) :
    (all (verdicts context inspections)).errors =
      examined.flatMap (fun inspection => (inspection.verdict context).errors) := by
  rw [inOrder, ran.verdicts_eq, List.flatMap_map]

theorem checkAll_eq_ok_iff (inspections : List Inspection) :
    checkAll all context inspections = .ok () ↔
    ∀ inspection ∈ inspections, inspection.Passes context := by
  obtain ⟨examined, ran⟩ := exists_examined context inspections
  -- Contracts that are not run do not count: if there are any, one that was run fails.
  rw [← ran.passes_iff, checkAll_eq, ran.errors_all inOrder]
  have clean : examined.flatMap (fun inspection => (inspection.verdict context).errors) = [] ↔
      ∀ inspection ∈ examined, inspection.Passes context := by
    rw [List.flatMap_eq_nil_iff]
    exact forall₂_congr (fun inspection _ => (eq_success_iff _).symm)
  rw [← clean]
  cases examined.flatMap (fun inspection => (inspection.verdict context).errors) with
  | nil => exact iff_of_true rfl rfl
  | cons _ _ => exact iff_of_false nofun nofun

theorem checkAll_eq_error_iff (inspections : List Inspection) (found : List Violation) :
    checkAll all context inspections = .error ⟨found⟩ ↔
      found ≠ [] ∧ ∃ examined, Examined context inspections examined ∧
      found = examined.flatMap (fun inspection => (inspection.verdict context).errors) := by
  have reported : checkAll all context inspections = .error ⟨found⟩ ↔
      found ≠ [] ∧ found = (all (verdicts context inspections)).errors := by
    rw [checkAll_eq]
    cases (all (verdicts context inspections)).errors with
    | nil => exact iff_of_false nofun (fun both => both.1 both.2)
    | cons first rest =>
      constructor
      · intro failed
        cases failed
        exact ⟨List.cons_ne_nil _ _, rfl⟩
      · rintro ⟨_, rfl⟩
        rfl
  rw [reported]
  refine and_congr_right (fun _ => ⟨?_, ?_⟩)
  · intro same
    obtain ⟨examined, ran⟩ := exists_examined context inspections
    exact ⟨examined, ran, same.trans (ran.errors_all inOrder)⟩
  · rintro ⟨examined, ran, same⟩
    exact same.trans (ran.errors_all inOrder).symm

/-- What is found by contracts that are run is what they find in the order in which they are run. -/
theorem errors_verdicts_inspection (contracts : List Contract) :
    (all (verdicts context (contracts.map (Contract.inspection all)))).errors =
      Contract.violations context contracts := by
  rw [inOrder]
  induction contracts with
  | nil => rfl
  | cons contract rest ih =>
    have told : ((contract.inspection all).verdict context).errors = contract.check context :=
      errors_verdict inOrder _
    have stops : (contract.inspection all).Stops context ↔
        contract.stopsAtOnce ∧ contract.check context ≠ [] :=
      and_congr_right (fun _ => not_congr (by rw [Passes, eq_success_iff, told]))
    rw [List.map_cons, Contract.violations]
    by_cases flagged : (contract.inspection all).Stops context
    · rw [verdicts_of_stops flagged, if_pos (stops.mp flagged), List.flatMap_singleton, told]
    · rw [verdicts_of_not_stops flagged, if_neg (mt stops.mpr flagged), List.flatMap_cons, told, ih]

end

/-- Contracts are all run, or up to the first flagged one that fails; what they find is reported
in their order, and within each in that of its rule. Flags have no part in whether there is
something to report. -/
theorem checkAll_accumulates (all : List (Validation Violation Unit) →
    Validation Violation (List Unit)) (inOrder : InOrder all) (context : ContractContext) :
    (∀ inspections, checkAll all context inspections = .ok () ↔
      ∀ inspection ∈ inspections, inspection.Passes context) ∧
    (∀ inspections others, inspections.map verdict = others.map verdict →
      (checkAll all context inspections = .ok () ↔ checkAll all context others = .ok ())) ∧
    (∀ inspections found, checkAll all context inspections = .error ⟨found⟩ ↔
      found ≠ [] ∧ ∃ examined, Examined context inspections examined ∧
        found = examined.flatMap (fun inspection => (inspection.verdict context).errors)) ∧
    (∀ contract : Contract, ((contract.inspection all).verdict context).errors =
      contract.check context) ∧
    ∀ contracts, checkAll all context (contracts.map (Contract.inspection all)) =
      Contract.checkAll context contracts := by
  refine ⟨checkAll_eq_ok_iff inOrder, ?_, checkAll_eq_error_iff inOrder, fun _ =>
    errors_verdict inOrder _, ?_⟩
  · intro inspections others alike
    have passing (inspections : List Inspection) :
        (∀ inspection ∈ inspections, inspection.Passes context) ↔
        ∀ judge ∈ inspections.map verdict, judge context = .success () := by
      rw [List.forall_mem_map]
      rfl
    rw [checkAll_eq_ok_iff inOrder, checkAll_eq_ok_iff inOrder, passing, passing, alike]
  · intro contracts
    rw [checkAll_eq, errors_verdicts_inspection inOrder]
    rfl

end Inspection

namespace Player

/-- The player with a second state to be off in, and an event that nothing uses. -/
def muddled : ContractContext :=
  { definition with states := states ++ [StateNode.atomic "Off"], events :=
    "eject" :: definition.events }.context {}

/-- State names have to differ, or nothing else is looked at. -/
def differing : Contract :=
  { Contract.ofRule "unique_state_names" "" ContractContext.uniqueStateNames with stopsAtOnce :=
    true }

/-- Rules before and after that one; a flagged one is there before, too. -/
def flagged : List Contract := [
  { Contract.ofRule "at_least_one_state" "" ContractContext.atLeastOneState with stopsAtOnce :=
    true },
  Contract.ofRule "events_match_transitions" "" ContractContext.eventsMatchTransitions,
  differing,
  Contract.ofRule "states_match_transitions" "" ContractContext.statesMatchTransitions]

end Player

namespace Inspection

open Validation

/-- The event is reported with the name, after which the rules are left. -/
theorem muddled_reported :
    checkAll collect Player.muddled (Player.flagged.map (Contract.inspection collect))
      = .error ⟨[(Finding.unusedEvent "eject").violation "events_match_transitions",
          (Finding.repeatedState "Off").violation "unique_state_names"]⟩ := by
  obtain ⟨_, _, reported, _⟩ := checkAll_accumulates collect collect_inOrder Player.muddled
  refine (reported _ _).mpr
    ⟨List.cons_ne_nil _ _, (Player.flagged.take 3).map (Contract.inspection collect), ?_, ?_⟩
  · have none : ∀ inspection ∈ (Player.flagged.take 2).map (Contract.inspection collect),
        ¬ inspection.Stops Player.muddled := by
      decide +kernel
    have stops : (Player.differing.inspection collect).Stops Player.muddled := by decide +kernel
    exact @Examined.upTo _ _ ((Player.flagged.drop 3).map (Contract.inspection collect)) _
      none stops
  · decide +kernel

end Inspection

end Statechart
