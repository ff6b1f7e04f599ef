import Statechart.Machine.Create
import Statechart.Event.Envelope
import Statechart.Proofs.Contract.Accepted
import Statechart.Proofs.Table

set_option autoImplicit false

namespace Statechart

namespace Json

theorem normalFields_eq_map (fields : List (String × Json)) :
    normalFields fields = fields.map (fun field => (field.1, field.2.normal)) := by
  induction fields with
  | nil => rfl
  | cons field rest ih => rw [normalFields, ih, List.map_cons]

theorem normal_eq_null_iff (value : Json) : value.normal = .null ↔ value = .null := by
  cases value <;> simp [normal]

theorem normal_eq_number_iff (value : Json) (n : Number) :
    value.normal = .number n ↔ value = .number n := by
  cases value <;> simp [normal]

theorem HoldsOnly.getLast?_eq {fields : List (String × Json)} {name : String} {content : Json}
    (holds : (object fields).HoldsOnly name content) : fields.getLast? = some (name, content) := by
  obtain ⟨earlier, written, _⟩ := holds
  cases written
  exact List.getLast?_concat

theorem normal_eq_single_iff (value : Json) (name : String) (content : Json) :
    value.normal = .object [(name, content)] ↔
    ∃ inner, value.HoldsOnly name inner ∧ inner.normal = content := by
  cases value with
  | object fields =>
    rw [normal, Json.object.injEq, normalFields_eq_map, Table.entries_ofList_eq_singleton_iff]
    constructor
    · rintro ⟨earlier, split, same⟩
      obtain ⟨before, after, rfl, rfl, last⟩ := List.map_eq_append_iff.mp split
      obtain ⟨field, rfl, written⟩ := List.map_eq_singleton_iff.mp last
      cases written
      exact ⟨field.2, ⟨before, rfl, List.forall_mem_map.mp same⟩, rfl⟩
    · rintro ⟨inner, ⟨earlier, written, same⟩, rfl⟩
      cases written
      exact ⟨earlier.map (fun field => (field.1, field.2.normal)),
        by simp, List.forall_mem_map.mpr same⟩
  | null | bool _ | number _ | string _ | array _ | unreadable =>
    refine iff_of_false (by simp [normal]) ?_
    rintro ⟨_, ⟨_, written, _⟩, _⟩
    cases written

end Json

namespace Event

variable {α : Type}

theorem ofEnvelope_of_null (default : α) (payload : PayloadReader α) {value : Json} {name : String}
    (single : value.normal = .object [(name, .null)]) :
    ofEnvelope default payload value = .ok ⟨name, default⟩ := by
  rw [ofEnvelope, single]

theorem ofEnvelope_of_content (default : α) (payload : PayloadReader α) {value content : Json}
    {name : String} (notNull : content ≠ .null)
    (single : value.normal = .object [(name, content)]) :
    ofEnvelope default payload value =
      ((payload content).map (Event.mk name)).mapError (EventError.badData name) := by
  rw [ofEnvelope, single]
  cases content with
  | null => exact absurd rfl notNull
  | bool _ | number _ | string _ | array _ | object _ | unreadable =>
    dsimp only
    cases payload _ <;> rfl

theorem ofEnvelope_of_not_single (default : α) (payload : PayloadReader α) {value : Json}
    (several : ∀ name content, value.normal ≠ .object [(name, content)]) :
    ∃ reason, ofEnvelope default payload value = .error reason := by
  rw [ofEnvelope]
  cases same : value.normal with
  | object fields =>
    match fields with
    | [] => exact ⟨_, rfl⟩
    | [(name, content)] => exact absurd same (several name content)
    | (_, content) :: _ :: _ => cases content <;> exact ⟨_, rfl⟩
  | null | bool _ | number _ | string _ | array _ | unreadable => exact ⟨_, rfl⟩

/-- An event is read from an object with a single name: null stands for the default, and the
data of all else are left to their reader, which is given the normal form. -/
theorem ofEnvelope_eq_ok_iff (default : α) (payload : PayloadReader α) (value : Json)
    (event : Event α) : ofEnvelope default payload value = .ok event ↔
      value.HoldsOnly event.name .null ∧ event.data = default ∨
        ∃ content, content ≠ .null ∧ value.HoldsOnly event.name content ∧
        payload content.normal = .ok event.data := by
  obtain ⟨name, data⟩ := event
  constructor
  · intro read
    by_cases single : ∃ other content, value.normal = .object [(other, content)]
    · obtain ⟨other, content, single⟩ := single
      obtain ⟨inner, holds, rfl⟩ := (Json.normal_eq_single_iff value other content).mp single
      by_cases isNull : inner.normal = .null
      · rw [isNull] at single
        cases read.symm.trans (ofEnvelope_of_null default payload single)
        exact Or.inl ⟨(Json.normal_eq_null_iff inner).mp isNull ▸ holds, rfl⟩
      · rw [ofEnvelope_of_content default payload isNull single] at read
        cases answer : payload inner.normal with
        | error reason =>
          rw [answer] at read
          cases read
        | ok found =>
          rw [answer] at read
          cases read
          exact Or.inr ⟨inner, mt (Json.normal_eq_null_iff inner).mpr isNull, holds, answer⟩
    · obtain ⟨reason, failed⟩ :=
        ofEnvelope_of_not_single default payload
          (fun name content same => single ⟨name, content, same⟩)
      cases read.symm.trans failed
  · rintro (⟨holds, rfl⟩ | ⟨content, notNull, holds, answer⟩)
    · exact ofEnvelope_of_null data payload
        ((Json.normal_eq_single_iff value name .null).mpr ⟨.null, holds, rfl⟩)
    · rw [ofEnvelope_of_content default payload (mt (Json.normal_eq_null_iff content).mp notNull)
        ((Json.normal_eq_single_iff value name _).mpr ⟨content, holds, rfl⟩), answer]
      rfl

/-- With integers for data, these are the envelopes and those of events without a name. -/
theorem ofEnvelope_int64_eq_ok_iff {payload : PayloadReader Int64} (decodes : payload.DecodesInt64)
    (value : Json) (event : Event Int64) : ofEnvelope 0 payload value = .ok event ↔
      value.HoldsOnly event.name (.int event.data.toInt) ∨
      value.HoldsOnly event.name .null ∧ event.data = 0 := by
  rw [ofEnvelope_eq_ok_iff, or_comm]
  refine or_congr_left ⟨?_, ?_⟩
  · rintro ⟨content, _, holds, answer⟩
    rw [decodes] at answer
    rwa [(Json.normal_eq_number_iff content _).mp answer] at holds
  · intro holds
    exact ⟨.int event.data.toInt, nofun, holds, (decodes _ _).mpr rfl⟩

end Event

theorem PayloadReader.int64_decodes : int64.DecodesInt64 := by
  intro value n
  cases value with
  | number number =>
    cases number with
    | integer m =>
      show (if _ then _ else _ : Except PayloadError Int).map Int64.ofInt = _ ↔
        Json.number (.integer m) = .number (.integer n.toInt)
      rw [Json.number.injEq, Json.Number.integer.injEq]
      by_cases inRange : Int64.minValue.toInt ≤ m ∧ m ≤ Int64.maxValue.toInt
      · rw [if_pos inRange]
        show Except.ok (Int64.ofInt m) = _ ↔ _
        rw [Except.ok.injEq]
        constructor
        · rintro rfl
          have below : m < 2 ^ 63 := by
            have most := inRange.2
            rw [Int64.toInt_maxValue] at most
            omega
          exact (Int64.toInt_ofInt_of_le inRange.1 below).symm
        · rintro rfl
          exact Int64.ofInt_toInt n
      · rw [if_neg inRange]
        refine iff_of_false nofun ?_
        rintro rfl
        exact inRange ⟨n.minValue_le_toInt, n.toInt_le⟩
    | float _ => exact iff_of_false nofun nofun
  | null | bool _ | string _ | array _ | object _ | unreadable => exact iff_of_false nofun nofun

namespace Machine

variable {M : Model}

theorem dispatch_nameless (machine : Machine M) {event : Event M.Data}
    (nameless : event.name = "") :
    machine.dispatch event = ⟨.error (.malformed .emptyName), machine, []⟩ := by
  rw [dispatch, if_pos nameless]

theorem dispatchEnvelope_of_ok (machine : Machine M) {payload : PayloadReader M.Data} {value : Json}
    {event : Event M.Data} (read : Event.ofEnvelope M.noData payload value = .ok event) :
    machine.dispatchEnvelope payload value = machine.dispatch event := by
  rw [dispatchEnvelope, read]

theorem dispatchEnvelope_of_error (machine : Machine M) {payload : PayloadReader M.Data}
    {value : Json} {reason : EventError}
    (refused : Event.ofEnvelope M.noData payload value = .error reason) :
    machine.dispatchEnvelope payload value = ⟨.error (.malformed reason), machine, []⟩ := by
  rw [dispatchEnvelope, refused]

/-- Where data are integers, dispatching the envelope of an event does what dispatching the
event does. Any other value is refused as malformed, and nothing is done or reported. -/
theorem dispatchEnvelope_agrees {payload : PayloadReader Int64} (decodes : payload.DecodesInt64)
    (machine : Machine M.withInt64) :
    (∀ value event, Event.Envelops value event →
      machine.dispatchEnvelope payload value = machine.dispatch event) ∧
    (∀ value, (∀ event, ¬ Event.Envelops value event) →
      ∃ reason, machine.dispatchEnvelope payload value =
        ⟨.error (.malformed reason), machine, []⟩) ∧
    ∀ (name : String) (n : Int64), name ≠ "" →
      machine.dispatchEnvelope payload (.object [(name, .int n.toInt)]) =
        machine.dispatch ⟨name, n⟩ := by
  have agrees (value : Json) (event : Event Int64) (envelops : Event.Envelops value event) :
      machine.dispatchEnvelope payload value = machine.dispatch event :=
    machine.dispatchEnvelope_of_ok
      ((Event.ofEnvelope_int64_eq_ok_iff decodes value event).mpr envelops.holds)
  refine ⟨agrees, ?_, ?_⟩
  · intro value noEnvelope
    cases read : Event.ofEnvelope (0 : Int64) payload value with
    | error reason => exact ⟨reason, machine.dispatchEnvelope_of_error read⟩
    | ok event =>
      have holds := (Event.ofEnvelope_int64_eq_ok_iff decodes value event).mp read
      have nameless : event.name = "" := by
        by_contra named
        exact noEnvelope event ⟨named, holds⟩
      exact ⟨.emptyName, (machine.dispatchEnvelope_of_ok read).trans
        (machine.dispatch_nameless nameless)⟩
  · intro name n named
    exact agrees _ ⟨name, n⟩ ⟨named, Or.inl ⟨[], rfl, List.forall_mem_nil _⟩⟩

end Machine

namespace Dial

/-- The extended state is the number turned to. -/
abbrev model : Model :=
  Model.withInt64
    { Player.model with
      Ext := Int64
      Update := Int64
      extText := fun n => toString n.toInt
      updatesText := fun _ => "" }

def turn : Action model where
  name := "turn"
  run _ data _ := .ok ⟨[data], none⟩

def definition : MachineDefinition model where
  states := [.atomic "Dial"]
  events := ["turn"]
  transitions := [.onEvent "Dial" "turn" (.state "Dial") turn]
  initialExt := (0 : Int64)
  initialState := some "Dial"
  reducer := fun (ext : Int64) (updates : List Int64) => .ok (updates.getLastD ext)

/-- The dial once it has settled. -/
def machine : Machine model :=
  ((Machine.unstarted definition {}).dispatch ⟨initEvent, (0 : Int64)⟩).machine

end Dial

namespace Machine

/-- The dial is turned to what an envelope holds last. A number too large is refused, and the
dial stays. -/
theorem dial_turned : PayloadReader.int64.DecodesInt64 ∧
    (Dial.machine.dispatchEnvelope PayloadReader.int64
        (.object [("turn", .int 3), ("turn", .int (-4))])).machine.runtime.ext = (-4 : Int64) ∧
      Dial.machine.dispatchEnvelope PayloadReader.int64 (.object [("turn", .null)]) =
        Dial.machine.dispatch ⟨"turn", (0 : Int64)⟩ ∧
      ∃ reason, Dial.machine.dispatchEnvelope PayloadReader.int64
        (.object [("turn", .int 9223372036854775808)])
        = ⟨.error (.malformed reason), Dial.machine, []⟩ := by
  obtain ⟨agrees, refuses, _⟩ := dispatchEnvelope_agrees PayloadReader.int64_decodes Dial.machine
  refine ⟨PayloadReader.int64_decodes, ?_, ?_, ?_⟩
  · have twice : Event.Envelops (.object [("turn", .int 3), ("turn", .int (-4))]) ⟨"turn", -4⟩ :=
      ⟨by decide, Or.inl ⟨[("turn", .int 3)], rfl, by decide⟩⟩
    rw [agrees _ _ twice]
    rfl
  · exact agrees _ ⟨"turn", 0⟩ ⟨by decide, Or.inr ⟨⟨[], rfl, List.forall_mem_nil _⟩, rfl⟩⟩
  · apply refuses
    rintro ⟨name, n⟩ ⟨_, holds | ⟨holds, _⟩⟩
    · have last : 9223372036854775808 = n.toInt := by
        simpa [Json.int] using congrArg (Option.map Prod.snd) holds.getLast?_eq
      have below := n.toInt_lt
      omega
    · cases holds.getLast?_eq

end Machine

end Statechart
