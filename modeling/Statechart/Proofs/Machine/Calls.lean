import Statechart.Machine.Run
import Statechart.Proofs.Machine.Run

set_option autoImplicit false

namespace Statechart

variable {M : Model}

namespace Machine

theorem dispatch_eq_self {machine : Machine M} {event : Event M.Data}
    (still : ∀ outcome, (machine.dispatch event).result = .ok outcome →
      outcome.isTransitioned = false) :
    (machine.dispatch event).machine = machine := by
  cases result : (machine.dispatch event).result with
  | error error => exact (dispatch_of_error result).1
  | ok outcome =>
    obtain ⟨steps, last, finished, same, _⟩ := dispatch_of_ok result
    have none := finished.eq_nil_of_still (still outcome result)
    subst none
    rw [same, finished.of_nil.1]

theorem call_eq_self {machine : Machine M} {payload : PayloadReader M.Data} {call : Call M}
    (ineffective : AnsweredCall.isEffective ⟨call, (machine.call payload call).result⟩ = false) :
    (machine.call payload call).machine = machine := by
  have dispatched {event : Event M.Data}
      (ineffective : AnsweredCall.isEffective ⟨call, (machine.dispatch event).result⟩ = false) :
      (machine.dispatch event).machine = machine := by
    apply dispatch_eq_self
    intro outcome settled
    rw [settled] at ineffective
    exact ineffective
  cases call with
  | event event => exact dispatched ineffective
  | envelope value =>
    unfold Machine.call dispatchEnvelope at ineffective ⊢
    dsimp only at ineffective ⊢
    cases read : Event.ofEnvelope M.noData payload value with
    | ok event =>
      rw [read] at ineffective
      exact dispatched ineffective
    | error reason => rfl

/-- Calls without effect can be left out: the others then answer as before, and leave the same
machine. -/
theorem ineffective_calls_erased (machine : Machine M) (payload : PayloadReader M.Data)
    (calls : List (Call M)) : machine.transcript payload
          (((machine.transcript payload calls).filter AnsweredCall.isEffective).map
            AnsweredCall.call)
        = (machine.transcript payload calls).filter AnsweredCall.isEffective ∧
      machine.afterCalls payload
          (((machine.transcript payload calls).filter AnsweredCall.isEffective).map
            AnsweredCall.call)
        = machine.afterCalls payload calls := by
  induction calls generalizing machine with
  | nil => exact ⟨rfl, rfl⟩
  | cons call rest ih =>
    rw [transcript, afterCalls]
    cases effective : AnsweredCall.isEffective ⟨call, (machine.call payload call).result⟩ with
    | true =>
      rw [List.filter_cons_of_pos effective, List.map_cons, transcript, afterCalls]
      obtain ⟨answers, last⟩ := ih (machine.call payload call).machine
      exact ⟨congrArg _ answers, last⟩
    | false =>
      rw [List.filter_cons_of_neg (by rw [effective]; exact Bool.false_ne_true),
        call_eq_self effective]
      exact ih machine

end Machine

end Statechart
