import Statechart.Proofs.Json.Form
import Statechart.Proofs.Trace.Timestamp
import Statechart.Proofs.Trace.Uuid
import Statechart.Trace.Record

set_option autoImplicit false

namespace Statechart

open Json

theorem Json.word?_nat {n : Nat} (fits : n < UInt64.size) : word? (nat n) = some n := by
  have whole : 0 ≤ (n : Int) ∧ (n : Int).toNat < UInt64.size := ⟨Int.natCast_nonneg n, fits⟩
  exact if_pos whole

namespace TraceKind

/-- The counts of a report fit a word. -/
def Fits : TraceKind → Prop
  | .machineCreated states transitions => states < UInt64.size ∧ transitions < UInt64.size
  | .internalTransition _ _ _ _ _ _ depth => depth < UInt64.size
  | .eventReceived _ _ | .eventSettled _ _ _ | .eventFailed _ _ _ => True

theorem ofJson?_toJson {kind : TraceKind} (fits : kind.Fits) :
    ofJson? kind.toJson = some kind := by
  cases kind with
  | machineCreated states transitions =>
    change ((word? (nat states)).bind (fun s => (word? (nat transitions)).bind (fun t =>
      some (machineCreated s t)))) = _
    rw [word?_nat fits.1, word?_nat fits.2]
    rfl
  | eventReceived event state => rfl
  | internalTransition origin event handler guard action target depth =>
    have read : ofJson? (internalTransition origin event handler guard action target depth).toJson =
        (word? (nat depth)).bind
          (some <| internalTransition origin event handler guard action target ·) := by
      cases guard <;> rfl
    rw [read, word?_nat fits]
    rfl
  | eventSettled event state transitioned => rfl
  | eventFailed event state error => rfl

end TraceKind

namespace TraceRecord

theorem ofJson?_toJson {record : TraceRecord} (time : record.time.InRange)
    (fits : record.kind.Fits) : ofJson? record.toJson = some record := by
  have fields : record.toJson.record? ["machine_id", "timestamp", "kind"] =
    some [some (.string record.machine.text), some (.string record.time.text),
      some record.kind.toJson] := rfl
  rw [ofJson?, fields]
  simp only [Option.bind_eq_bind, Option.bind_some, string?, (Uuid.ofText?_spellings _).1,
    Timestamp.ofText?_text time, TraceKind.ofJson?_toJson fits]
  rfl

end TraceRecord

end Statechart
