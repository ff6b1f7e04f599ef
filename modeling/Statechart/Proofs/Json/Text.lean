import Statechart.Proofs.Decimal.Reading
import Statechart.Proofs.Json.Token
import Statechart.Proofs.Text.Layout

set_option autoImplicit false

namespace Statechart.Json

open Token Reader

/-- The text of a number is read as that number. -/
def Number.ReadsBack (n : Number) : Prop :=
  ofNumeral? n.text.toList = some (.scalar (.number n))

instance (n : Number) : Decidable n.ReadsBack :=
  inferInstanceAs (Decidable (_ = _))

theorem Number.readsBack_integer_iff (n : Int) :
    (Number.integer n).ReadsBack ↔ -2 ^ 63 ≤ n ∧ n < 2 ^ 64 := by
  rw [← Numeral.integer?_toString_iff, ReadsBack, ofNumeral?, Number.text]
  cases Numeral.ofChars? (toString n).toList with
  | none => simp
  | some numeral =>
    cases integer : numeral.integer? <;> cases float : numeral.float? <;>
      simp [integer, float]

theorem Number.readsBack_float {x : Binary64} (normal : x.Normal)
    (short : ∀ n ∈ Numeral.ofChars? x.text.toList, n.significand < 2 ^ 53 ∧ |n.power| ≤ 22) :
    (Number.float x).ReadsBack := by
  obtain ⟨n, read, -, -, form⟩ := Binary64.text_writes normal
  have ⟨bits, near⟩ := short n read
  have noInteger : n.integer? = none := by
    unfold Numeral.integer?
    split
    case h_1 fraction exponent => exact absurd form (by simp [fraction, exponent])
    case h_2 => rfl
  have isFloat := Numeral.float?_of_text normal read bits near
  rw [ReadsBack, ofNumeral?, Number.text, read]
  simp [noInteger, isFloat]

-- Beyond these bounds a number can be read as its neighbour.
example : (Binary64.round? false 1 (10 ^ 23)).map (fun x => decide (Number.float x).ReadsBack) =
    some false := by decide +kernel

mutual

/-- The numbers in a value. -/
def numbers : Json → List Number
  | .number n => [n]
  | .array items => itemNumbers items
  | .object fields => fieldNumbers fields
  | .null | .bool _ | .string _ | .unreadable => []

def itemNumbers : List Json → List Number
  | [] => []
  | item :: rest => numbers item ++ itemNumbers rest

def fieldNumbers : List (String × Json) → List Number
  | [] => []
  | (_, value) :: rest => numbers value ++ fieldNumbers rest

end

mutual

/-- What is read of the text of a value where so many containers may still be opened: what
denotes nothing is written as null, and what is nested too deeply is unreadable. -/
def asRead (room : Nat) : Json → Json
  | .array items => if room = 0 then .unreadable else .array (itemsAsRead (room - 1) items)
  | .object fields => if room = 0 then .unreadable else .object (fieldsAsRead (room - 1) fields)
  | .unreadable => .null
  | .null => .null
  | .bool b => .bool b
  | .number n => .number n
  | .string s => .string s

def itemsAsRead (room : Nat) : List Json → List Json
  | [] => []
  | item :: rest => asRead room item :: itemsAsRead room rest

def fieldsAsRead (room : Nat) : List (String × Json) → List (String × Json)
  | [] => []
  | (name, value) :: rest => (name, asRead room value) :: fieldsAsRead room rest

end

/-- The reader after a text, where no token is begun. -/
def readFrom? (reader : Reader) (cs : List Char) : Option Reader :=
  (scan? .between cs).bind (fun tokens => tokens.foldlM next? reader)

theorem readFrom?_token {token : Token} {text cs : List Char}
    (spelled : scan? .between (text ++ cs) = (scan? .between cs).map (token :: ·))
    (reader : Reader) :
    readFrom? reader (text ++ cs) =
      (reader.next? token).bind (fun after => readFrom? after cs) := by
  unfold readFrom?
  rw [spelled]
  cases scan? .between cs with
  | none => cases reader.next? token <;> rfl
  | some tokens => rfl

theorem readFrom?_mark {c : Char} (token : Token)
    (start : start? c = some ([token], .between)) (reader : Reader) (cs : List Char) :
    readFrom? reader (c :: cs) = (reader.next? token).bind (fun after => readFrom? after cs) := by
  have spelled : scan? .between ([c] ++ cs) = (scan? .between cs).map (token :: ·) := by
    rw [List.singleton_append, scan?_cons, Token.next?, start]
    rfl
  exact readFrom?_token spelled reader

/-- A value may stand after nothing, a colon or a comma, or at the front of an array. -/
theorem next?_of_value? {phase : Phase} (awaits : phase = .value ∨ phase = .itemOrClose)
    {frames : List Frame} {token : Token} {after : Reader}
    (read : value? frames token = some after) :
    (Reader.mk frames phase).next? token = some after := by
  have stays : close? frames token = none := by
    fun_cases close? frames token with
    | case1 => cases read
    | case2 => cases read
    | case3 => rfl
  rcases awaits with rfl | rfl
  · exact read
  · show (close? frames token).or (value? frames token) = some after
    rw [stays, read, Option.none_or]

theorem readFrom?_scalar {value : Json} {text cs : List Char}
    (spelled : scan? .between (text ++ cs) = (scan? .between cs).map (.scalar value :: ·))
    {phase : Phase} (awaits : phase = .value ∨ phase = .itemOrClose) (frames : List Frame) :
    readFrom? ⟨frames, phase⟩ (text ++ cs) = readFrom? (give frames value) cs := by
  rw [readFrom?_token spelled, next?_of_value? awaits rfl, Option.bind_some]

theorem ends_of_further (texts : List String) {closing : Char}
    (isClosing : closing = ']' ∨ closing = '\x7d') (cs : List Char) :
    Ends (texts.flatMap (fun next => ",".toList ++ next.toList) ++ closing :: cs) := by
  cases texts with
  | nil =>
    rintro c ⟨⟩
    exact Or.inr isClosing
  | cons next rest =>
    rintro c ⟨⟩
    exact Or.inl rfl

theorem closed_eq (frames : List Frame) (value : Json) :
    close frames value =
      give frames (if maxNesting - frames.length = 0 then .unreadable else value) := by
  by_cases deep : frames.length < maxNesting
  · rw [close, if_pos deep, if_neg (by omega)]
  · rw [close, if_neg deep, if_pos (by omega)]

theorem readFrom?_name {phase : Phase} (awaits : phase = .fieldOrClose ∨ phase = .field)
    (name : String) (before : List (String × Json)) (outer : List Frame) (cs : List Char) :
    readFrom? ⟨.object before false none :: outer, phase⟩
        ((stringText name).toList ++ ':' :: cs) =
      readFrom? ⟨.object before false (some name) :: outer, .value⟩ cs := by
  have named : (Reader.mk (.object before false none :: outer) phase).next?
      (.scalar (.string name)) = some ⟨.object before false (some name) :: outer, .colon⟩ := by
    rcases awaits with rfl | rfl <;> rfl
  rw [readFrom?_token (scan?_stringText name _), named, Option.bind_some,
    readFrom?_mark (c := ':') .colon rfl]
  rfl

mutual

theorem readFrom?_value (value : Json) (reads : ∀ n ∈ value.numbers, n.ReadsBack)
    {phase : Phase} (awaits : phase = .value ∨ phase = .itemOrClose) (frames : List Frame)
    {cs : List Char} (ends : Ends cs) :
    readFrom? ⟨frames, phase⟩ (value.text.toList ++ cs) =
      readFrom? (give frames (value.asRead (maxNesting - frames.length))) cs := by
  match value with
  | .null => exact readFrom?_scalar (scan?_null ends) awaits frames
  | .unreadable => exact readFrom?_scalar (scan?_null ends) awaits frames
  | .bool b => exact readFrom?_scalar (scan?_bool b ends) awaits frames
  | .string s => exact readFrom?_scalar (scan?_stringText s cs) awaits frames
  | .number n =>
    exact readFrom?_scalar (scan?_ofNumeral? (reads n List.mem_cons_self) ends) awaits frames
  | .array items =>
    have opened := next?_of_value? awaits (show value? frames .openArray = _ from rfl)
    have asRead_eq := closed_eq frames (.array (itemsAsRead (maxNesting - frames.length - 1) items))
    cases items with
    | nil =>
      have shape : (Json.array []).text.toList ++ cs = '[' :: ']' :: cs := by
        simp [text, itemTexts]
      rw [shape, readFrom?_mark (c := '[') .openArray rfl, opened, Option.bind_some,
        readFrom?_mark (c := ']') .closeArray rfl, asRead, ← asRead_eq]
      rfl
    | cons item rest =>
      have shape : (Json.array (item :: rest)).text.toList ++ cs = '[' :: (item.text.toList ++
          ((itemTexts rest).flatMap (fun next => ",".toList ++ next.toList) ++ ']' :: cs)) := by
        rw [text, itemTexts, String.toList_append, String.toList_append,
          Text.toList_intercalate_cons]
        simp
      rw [numbers, itemNumbers, List.forall_mem_append] at reads
      rw [shape, readFrom?_mark (c := '[') .openArray rfl, opened, Option.bind_some,
        readFrom?_value item reads.1 (Or.inr rfl) _ (ends_of_further _ (Or.inl rfl) cs), give,
        readFrom?_items rest reads.2, asRead, ← asRead_eq]
      rfl
  | .object fields =>
    have opened := next?_of_value? awaits (show value? frames .openObject = _ from rfl)
    have asRead_eq :=
      closed_eq frames (.object (fieldsAsRead (maxNesting - frames.length - 1) fields))
    cases fields with
    | nil =>
      have shape : (Json.object []).text.toList ++ cs = '\x7b' :: '\x7d' :: cs := by
        simp [text, fieldTexts]
      rw [shape, readFrom?_mark (c := '\x7b') .openObject rfl, opened, Option.bind_some,
        readFrom?_mark (c := '\x7d') .closeObject rfl, asRead, ← asRead_eq]
      rfl
    | cons field rest =>
      obtain ⟨name, value⟩ := field
      have shape : (Json.object ((name, value) :: rest)).text.toList ++ cs =
          '\x7b' :: ((stringText name).toList ++ ':' :: (value.text.toList ++
            ((fieldTexts rest).flatMap (fun next => ",".toList ++ next.toList) ++
              '\x7d' :: cs))) := by
        rw [text, fieldTexts, String.toList_append, String.toList_append,
          Text.toList_intercalate_cons]
        simp
      rw [numbers, fieldNumbers, List.forall_mem_append] at reads
      rw [shape, readFrom?_mark (c := '\x7b') .openObject rfl, opened, Option.bind_some,
        readFrom?_name (Or.inl rfl),
        readFrom?_value value reads.1 (Or.inl rfl) _ (ends_of_further _ (Or.inr rfl) cs), give,
        readFrom?_fields rest reads.2, asRead, ← asRead_eq]
      rfl

theorem readFrom?_items (items : List Json) (reads : ∀ n ∈ itemNumbers items, n.ReadsBack)
    (before : List Json) (outer : List Frame) (cs : List Char) :
    readFrom? ⟨.array before :: outer, .commaOrClose⟩
        ((itemTexts items).flatMap (fun next => ",".toList ++ next.toList) ++ ']' :: cs) =
      readFrom? (close outer (.array (before.reverse ++
        itemsAsRead (maxNesting - (outer.length + 1)) items))) cs := by
  match items with
  | [] =>
    rw [itemTexts, List.flatMap_nil, List.nil_append, itemsAsRead, List.append_nil]
    exact readFrom?_mark (c := ']') .closeArray rfl _ cs
  | item :: rest =>
    have shape : (itemTexts (item :: rest)).flatMap (fun next => ",".toList ++ next.toList) ++
        ']' :: cs = ',' :: (item.text.toList ++
          ((itemTexts rest).flatMap (fun next => ",".toList ++ next.toList) ++ ']' :: cs)) := by
      simp [itemTexts]
    have comma : (Reader.mk (.array before :: outer) .commaOrClose).next? .comma =
      some ⟨.array before :: outer, .value⟩ := rfl
    rw [itemNumbers, List.forall_mem_append] at reads
    rw [shape, readFrom?_mark (c := ',') .comma rfl, comma, Option.bind_some,
      readFrom?_value item reads.1 (Or.inl rfl) _ (ends_of_further _ (Or.inl rfl) cs), give,
      readFrom?_items rest reads.2]
    simp [itemsAsRead]

theorem readFrom?_fields (fields : List (String × Json))
    (reads : ∀ n ∈ fieldNumbers fields, n.ReadsBack) (before : List (String × Json))
    (outer : List Frame) (cs : List Char) :
    readFrom? ⟨.object before false none :: outer, .commaOrClose⟩
        ((fieldTexts fields).flatMap (fun next => ",".toList ++ next.toList) ++ '\x7d' :: cs) =
      readFrom? (close outer (.object (before.reverse ++
        fieldsAsRead (maxNesting - (outer.length + 1)) fields))) cs := by
  match fields with
  | [] =>
    rw [fieldTexts, List.flatMap_nil, List.nil_append, fieldsAsRead, List.append_nil]
    exact readFrom?_mark (c := '\x7d') .closeObject rfl _ cs
  | (name, value) :: rest =>
    have shape : (fieldTexts ((name, value) :: rest)).flatMap
        (fun next => ",".toList ++ next.toList) ++ '\x7d' :: cs =
          ',' :: ((stringText name).toList ++ ':' :: (value.text.toList ++
            ((fieldTexts rest).flatMap (fun next => ",".toList ++ next.toList) ++
              '\x7d' :: cs))) := by
      simp [fieldTexts]
    have comma : (Reader.mk (.object before false none :: outer) .commaOrClose).next? .comma =
      some ⟨.object before false none :: outer, .field⟩ := rfl
    rw [fieldNumbers, List.forall_mem_append] at reads
    rw [shape, readFrom?_mark (c := ',') .comma rfl, comma, Option.bind_some,
      readFrom?_name (Or.inr rfl),
      readFrom?_value value reads.1 (Or.inl rfl) _ (ends_of_further _ (Or.inr rfl) cs), give,
      readFrom?_fields rest reads.2]
    simp [fieldsAsRead]

end

theorem ofText?_eq (text : String) :
    ofText? text = (readFrom? ⟨[], .value⟩ text.toList).bind (fun reader =>
      match reader.phase with
      | .done value => some value
      | _ => none) := by
  unfold ofText? readFrom? Token.ofChars?
  cases scan? .between text.toList <;> rfl

/-- The text of a value is read, whatever the value is, if its numbers are. -/
theorem ofText?_text (value : Json) (reads : ∀ n ∈ value.numbers, n.ReadsBack) :
    ofText? value.text = some (value.asRead maxNesting) := by
  have whole := readFrom?_value value reads (Or.inl rfl) [] (show Ends [] from nofun)
  rw [List.append_nil] at whole
  rw [ofText?_eq, whole]
  rfl

mutual

/-- How many containers lie inside one another. -/
def nesting : Json → Nat
  | .array items => itemsNesting items + 1
  | .object fields => fieldsNesting fields + 1
  | .null | .bool _ | .number _ | .string _ | .unreadable => 0

def itemsNesting : List Json → Nat
  | [] => 0
  | item :: rest => max (nesting item) (itemsNesting rest)

def fieldsNesting : List (String × Json) → Nat
  | [] => 0
  | (_, value) :: rest => max (nesting value) (fieldsNesting rest)

end

mutual

theorem asRead_eq_iff (value : Json) (room : Nat) :
    value.asRead room = value ↔ value.readable = true ∧ value.nesting ≤ room := by
  match value with
  | .null | .bool _ | .number _ | .string _ => simp [asRead, readable, nesting]
  | .unreadable => simp [asRead, readable]
  | .array items =>
    have inner := itemsAsRead_eq_iff items (room - 1)
    rw [asRead, readable, nesting]
    by_cases full : room = 0
    · simp [full]
    · rw [if_neg full, Json.array.injEq, inner, show itemsNesting items ≤ room - 1 ↔
        itemsNesting items + 1 ≤ room by omega]
  | .object fields =>
    have inner := fieldsAsRead_eq_iff fields (room - 1)
    rw [asRead, readable, nesting]
    by_cases full : room = 0
    · simp [full]
    · rw [if_neg full, Json.object.injEq, inner, show fieldsNesting fields ≤ room - 1 ↔
        fieldsNesting fields + 1 ≤ room by omega]

theorem itemsAsRead_eq_iff (items : List Json) (room : Nat) :
    itemsAsRead room items = items ↔ readableItems items = true ∧ itemsNesting items ≤ room := by
  match items with
  | [] => simp [itemsAsRead, readableItems, itemsNesting]
  | item :: rest =>
    rw [itemsAsRead, List.cons.injEq, asRead_eq_iff item, itemsAsRead_eq_iff rest, readableItems,
      itemsNesting, Bool.and_eq_true, Nat.max_le]
    tauto

theorem fieldsAsRead_eq_iff (fields : List (String × Json)) (room : Nat) :
    fieldsAsRead room fields = fields ↔
      readableFields fields = true ∧ fieldsNesting fields ≤ room := by
  match fields with
  | [] => simp [fieldsAsRead, readableFields, fieldsNesting]
  | (name, value) :: rest =>
    rw [fieldsAsRead, List.cons.injEq, Prod.mk.injEq, asRead_eq_iff value,
      fieldsAsRead_eq_iff rest, readableFields, fieldsNesting, Bool.and_eq_true, Nat.max_le]
    tauto

end

/-- A value is read back from its text exactly if all of it denotes something and it is nested no
deeper than containers may be open. -/
theorem ofText?_text_eq_iff (value : Json) (reads : ∀ n ∈ value.numbers, n.ReadsBack) :
    ofText? value.text = some value ↔ value.readable = true ∧ value.nesting ≤ maxNesting := by
  rw [ofText?_text value reads, Option.some_inj, asRead_eq_iff]

end Statechart.Json
