import Mathlib.Data.List.Basic
import Mathlib.Data.List.TakeWhile
import Statechart.Proofs.Trace.Calendar

set_option autoImplicit false

namespace Statechart.Timestamp

theorem toList_padded (width n : Nat) : (padded width n).toList =
    List.replicate (width - (Nat.toDigits 10 n).length) '0' ++ Nat.toDigits 10 n := by
  simp [padded, Nat.repr_eq_ofList_toDigits]

theorem toList_append_padded {mark : String} {c : Char} (single : mark.toList = [c])
    (width n : Nat) (rest : List Char) : (mark ++ padded width n).toList ++ rest =
      c :: ((padded width n).toList ++ rest) := by
  rw [String.toList_append, single, List.append_assoc, List.singleton_append]

theorem isDigit_of_mem_padded {width n : Nat} {c : Char} (mem : c ∈ (padded width n).toList) :
    c.isDigit = true := by
  rw [toList_padded, List.mem_append] at mem
  obtain zero | digit := mem
  · rw [List.eq_of_mem_replicate zero]
    rfl
  · exact Nat.isDigit_of_mem_toDigits (by decide) (by decide) digit

theorem length_padded {width n : Nat} (positive : 0 < width) (fits : n < 10 ^ width) :
    (padded width n).toList.length = width := by
  have few := (Nat.length_toDigits_le_iff (by decide : 1 < 10) positive).mpr fits
  rw [toList_padded, List.length_append, List.length_replicate]
  omega

theorem foldl_padded (width n : Nat) : (padded width n).toList.foldl
    (fun n c => 10 * n + (c.toNat - '0'.toNat)) 0 = n := by
  rw [← Nat.ofDigitChars_eq_foldl, toList_padded, Nat.ofDigitChars_append,
    Nat.ofDigitChars_replicate_zero, Nat.mul_zero, Nat.ofDigitChars_ten_toDigits]

section

variable {most width n : Nat} {rest : List Char}

/-- The digits written are those that are read, if no more of them could be or none follows. -/
theorem takeWhile_padded (fits : (padded width n).toList.length ≤ most)
    (stop : (padded width n).toList.length = most ∨ ∀ c ∈ rest.head?, c.isDigit = false) :
    (((padded width n).toList ++ rest).take most).takeWhile Char.isDigit =
      (padded width n).toList := by
  rw [List.take_append, List.take_of_length_le fits,
    List.takeWhile_append_of_pos (fun c => isDigit_of_mem_padded)]
  cases stop with
  | inl all => simp [all]
  | inr stop =>
    cases rest with
    | nil => simp
    | cons c rest =>
      have notDigit := stop c rfl
      cases most - (padded width n).toList.length <;> simp [notDigit]

theorem number?_padded (fits : (padded width n).toList.length ≤ most)
    (stop : (padded width n).toList.length = most ∨ ∀ c ∈ rest.head?, c.isDigit = false) :
    number? most ((padded width n).toList ++ rest) = some (n, rest) := by
  have nonempty : (padded width n).toList ≠ [] := by simp [toList_padded, Nat.toDigits_ne_nil]
  rw [number?, takeWhile_padded fits stop, foldl_padded]
  simp [nonempty]

theorem skipBlanks_cons {c : Char} (seen : Text.isBlank c = false) :
    skipBlanks (c :: rest) = c :: rest := by
  simp [skipBlanks, seen]

theorem isBlank_of_isDigit {c : Char} (digit : c.isDigit = true) : Text.isBlank c = false := by
  rw [Char.isDigit_iff_toNat] at digit
  simp only [Text.isBlank]
  grind

theorem skipBlanks_padded : skipBlanks ((padded width n).toList ++ rest) =
    (padded width n).toList ++ rest := by
  cases chars : (padded width n).toList with
  | nil => simp [toList_padded, Nat.toDigits_ne_nil] at chars
  | cons c cs =>
    exact skipBlanks_cons (isBlank_of_isDigit (isDigit_of_mem_padded (chars ▸ List.mem_cons_self)))

theorem twoDigits?_padded (small : n < 100) :
    twoDigits? ((padded 2 n).toList ++ rest) = some (n, rest) := by
  have length := length_padded (by decide : 0 < 2) small
  rw [twoDigits?, skipBlanks_padded, number?_padded (le_of_eq length) (.inl length)]

theorem mark?_cons {mark : Char} (seen : Text.isBlank mark = false) :
    mark? mark (mark :: rest) = some rest := by
  simp [mark?, skipBlanks_cons seen]

theorem year?_yearText (year : Int) (stop : ∀ c ∈ rest.head?, c.isDigit = false) :
    year? ((yearText year).toList ++ rest) = some (year, rest) := by
  by_cases plain : 0 ≤ year ∧ year ≤ 9999
  · have length : (padded 4 year.toNat).toList.length = 4 :=
      length_padded (by decide) (by omega)
    have read : number? 4 ((padded 4 year.toNat).toList ++ rest) = some (year.toNat, rest) :=
      number?_padded (le_of_eq length) (.inl length)
    have unsigned : ∀ c ∈ ((padded 4 year.toNat).toList ++ rest).head?, c.isDigit = true := by
      intro c front
      cases chars : (padded 4 year.toNat).toList with
      | nil => simp [chars] at length
      | cons first more =>
        rw [chars] at front
        cases front
        exact isDigit_of_mem_padded (chars ▸ List.mem_cons_self)
    rw [yearText, if_pos plain, year?, skipBlanks_padded]
    split
    case h_1 same => exact absurd (unsigned '-' (by rw [same]; rfl)) (by decide)
    case h_2 same => exact absurd (unsigned '+' (by rw [same]; rfl)) (by decide)
    case h_3 =>
      simp only [read, Option.map_some, Option.some_inj, Prod.mk.injEq, and_true]
      omega
  · have read : number? ((padded 4 year.natAbs).toList ++ rest).length
        ((padded 4 year.natAbs).toList ++ rest) = some (year.natAbs, rest) :=
      number?_padded (by simp) (.inr stop)
    rw [yearText, if_neg plain]
    by_cases negative : year < 0
    · rw [if_pos negative, toList_append_padded (c := '-') rfl, year?, skipBlanks_cons (by decide)]
      simp only [read, Option.map_some, Option.some_inj, Prod.mk.injEq, and_true]
      omega
    · rw [if_neg negative, toList_append_padded (c := '+') rfl, year?, skipBlanks_cons (by decide)]
      simp only [read, Option.map_some, Option.some_inj, Prod.mk.injEq, and_true]
      omega

theorem decimals?_padded {width n : Nat} (positive : 0 < width) (le : width ≤ 9)
    (fits : n < 10 ^ width) (stop : ∀ c ∈ rest.head?, c.isDigit = false) :
    decimals? ('.' :: ((padded width n).toList ++ rest)) =
      some (n * 10 ^ (9 - width), rest) := by
  have length := length_padded positive fits
  have short : (padded width n).toList.length ≤ 9 := by omega
  have front := takeWhile_padded short (.inr stop)
  have back : ((padded width n).toList ++ rest).dropWhile Char.isDigit = rest := by
    rw [List.dropWhile_append_of_pos (fun c => isDigit_of_mem_padded)]
    cases rest with
    | nil => rfl
    | cons c rest => simp [stop c rfl]
  simp only [decimals?, number?_padded short (.inr stop), front, back, length, Nat.pow_eq,
    Option.bind_eq_bind, Option.bind_some, Option.pure_def]

theorem decimals?_decimalsText {nanos : Nat} (small : nanos < 1000000000)
    (stop : ∀ c ∈ rest.head?, c.isDigit = false ∧ c ≠ '.') :
    decimals? ((decimalsText nanos).toList ++ rest) = some (nanos, rest) := by
  have noDigit : ∀ c ∈ rest.head?, c.isDigit = false := fun c front => (stop c front).1
  fun_cases decimalsText nanos with
  | case1 =>
    subst nanos
    cases rest with
    | nil => rfl
    | cons c rest =>
      rw [String.toList_empty, List.nil_append, decimals?]
      rintro rest ⟨⟩
      exact (stop '.' rfl).2 rfl
  | case2 _ millis =>
    have read := decimals?_padded (by decide) (by decide) (show nanos / 1000000 < 10 ^ 3 by omega)
      noDigit
    rw [toList_append_padded (c := '.') rfl, read,
      show nanos / 1000000 * 10 ^ (9 - 3) = nanos by omega]
  | case3 _ _ micros =>
    have read := decimals?_padded (by decide) (by decide) (show nanos / 1000 < 10 ^ 6 by omega)
      noDigit
    rw [toList_append_padded (c := '.') rfl, read,
      show nanos / 1000 * 10 ^ (9 - 6) = nanos by omega]
  | case4 =>
    have read := decimals?_padded (by decide) (by decide) (show nanos < 10 ^ 9 from small) noDigit
    rw [toList_append_padded (c := '.') rfl, read, Nat.sub_self, Nat.pow_zero, Nat.mul_one]

end

/-- The instant at the end of a reading of all parts, in universal time. -/
def ofFields? (year : Int) (month day hour minute second nanos : Nat) : Option Timestamp :=
  let (second, nanos) := if second = 60 then (59, nanos + 1000000000) else (second, nanos)
  let seconds := dayNumber year month day * 86400 + hour * 3600 + minute * 60 + second
  if isYear (ofDayNumber (seconds.fdiv 86400)).1 then some ⟨seconds, nanos⟩ else none

theorem ofText?_of_parts {text : String} {year : Int} {month day hour minute second nanos : Nat}
    {ofMonth ofMonth' ofDay ofDay' ofHour ofMinute ofMinute' ofSecond ofSecond' ofNanos : List Char}
    (year_read : year? text.toList = some (year, ofMonth))
    (month_marked : mark? '-' ofMonth = some ofMonth')
    (month_read : twoDigits? ofMonth' = some (month, ofDay))
    (day_marked : mark? '-' ofDay = some ofDay')
    (day_read : twoDigits? ofDay' = some (day, 'T' :: ofHour))
    (hour_read : twoDigits? ofHour = some (hour, ofMinute))
    (minute_marked : mark? ':' ofMinute = some ofMinute')
    (minute_read : twoDigits? ofMinute' = some (minute, ofSecond))
    (second_marked : mark? ':' ofSecond = some ofSecond')
    (second_read : twoDigits? ofSecond' = some (second, ofNanos))
    (nanos_read : decimals? ofNanos = some (nanos, ['Z']))
    (fits : isYear year ∧ isDate year month day ∧ hour < 24 ∧ minute < 60 ∧ second ≤ 60) :
    ofText? text = ofFields? year month day hour minute second nanos := by
  have universal : offset? (skipBlanks ['Z']) = some (0, []) := by decide
  have step {α β : Type} {x : Option α} {a : α} {f : α → Option β} (read : x = some a) :
      (x >>= f) = f a := by rw [read, Option.bind_eq_bind, Option.bind_some]
  have isT : 'T' = 'T' ∨ 'T' = 't' ∨ 'T' = ' ' := .inl rfl
  refine (step year_read).trans ?_
  refine (step month_marked).trans ((step month_read).trans ?_)
  refine (step day_marked).trans ((step day_read).trans ?_)
  refine (if_pos isT).trans ((step rfl).trans ?_)
  refine (step hour_read).trans ?_
  refine (step minute_marked).trans ((step minute_read).trans ?_)
  refine (step second_marked).trans ((step second_read).trans ?_)
  refine (step nanos_read).trans ((step universal).trans ((if_pos ⟨rfl, fits⟩).trans ?_))
  rw [ofFields?]
  simp only [Int.sub_zero]

theorem ofText?_fields {year : Int} {month day hour minute second nanos : Nat}
    (inRange : isYear year) (date : isDate year month day) (hour_lt : hour < 24)
    (minute_lt : minute < 60) (second_le : second ≤ 60) (nanos_lt : nanos < 1000000000) :
    ofText? (yearText year ++ "-" ++ padded 2 month ++ "-" ++ padded 2 day ++ "T" ++
      padded 2 hour ++ ":" ++ padded 2 minute ++ ":" ++ padded 2 second ++ decimalsText nanos ++
      "Z") = ofFields? year month day hour minute second nanos := by
  have ⟨⟨_, month_le⟩, _, day_le⟩ := (isDate_iff year month day).mp date
  have day_lt : day < 100 := by
    unfold daysIn at day_le
    grind
  have marks : "-".toList = ['-'] ∧ "T".toList = ['T'] ∧ ":".toList = [':'] ∧ "Z".toList = ['Z'] :=
    ⟨rfl, rfl, rfl, rfl⟩
  apply ofText?_of_parts
  · simp only [String.toList_append, marks, List.append_assoc, List.cons_append, List.nil_append]
    exact year?_yearText year (by simp)
  · exact mark?_cons (by decide)
  · exact twoDigits?_padded (by omega)
  · exact mark?_cons (by decide)
  · exact twoDigits?_padded day_lt
  · exact twoDigits?_padded (by omega)
  · exact mark?_cons (by decide)
  · exact twoDigits?_padded (by omega)
  · exact mark?_cons (by decide)
  · exact twoDigits?_padded (by omega)
  · exact decimals?_decimalsText nanos_lt (by simp)
  · exact ⟨inRange, date, hour_lt, minute_lt, second_le⟩

/-- The instants that some text spells: their year is in range, and only the last second of a
minute can have a leap second after it. -/
structure InRange (t : Timestamp) : Prop where
  year : isYear (ofDayNumber (t.seconds.fdiv 86400)).1
  nanos : t.nanos < 1000000000 ∨ t.seconds.fmod 60 = 59 ∧ t.nanos < 2000000000

theorem ofText?_text {t : Timestamp} (inRange : t.InRange) : ofText? t.text = some t := by
  obtain ⟨seconds, nanos⟩ := t
  obtain ⟨year_ok, (nanos_lt : nanos < _ ∨ seconds.fmod 60 = 59 ∧ nanos < _)⟩ := inRange
  obtain ⟨year, month, day, date⟩ : ∃ year month day,
      ofDayNumber (seconds.fdiv 86400) = (year, month, day) := ⟨_, _, _, rfl⟩
  have ⟨month_mem, day_mem, number⟩ := (ofDayNumber_eq_iff _ year month day).mp date
  have exists' := (isDate_iff year month day).mpr ⟨month_mem, day_mem⟩
  rw [date] at year_ok
  obtain ⟨inDay, inDay_eq⟩ : ∃ inDay, inDay = (seconds.fmod 86400).toNat := ⟨_, rfl⟩
  have whole : seconds.fdiv 86400 * 86400 + inDay = seconds ∧ inDay < 86400 := by
    rw [inDay_eq, Int.fdiv_eq_ediv_of_nonneg _ (by decide),
      Int.fmod_eq_emod_of_nonneg _ (by decide)]
    omega
  have minutes : seconds.fmod 60 = (inDay % 60 : Nat) := by
    rw [Int.fmod_eq_emod_of_nonneg _ (by decide)]
    omega
  -- A leap second is written as the sixtieth of its minute.
  have shown (second nanos' : Nat)
      (same : (if second = 60 then (59, nanos' + 1000000000) else (second, nanos')) =
        (inDay % 60, nanos)) :
      ofFields? year month day (inDay / 3600) (inDay / 60 % 60) second nanos' =
        some ⟨seconds, nanos⟩ := by
    have total : (seconds.fdiv 86400) * 86400 + (inDay / 3600 : Nat) * 3600 +
        (inDay / 60 % 60 : Nat) * 60 + (inDay % 60 : Nat) = seconds := by omega
    rw [ofFields?, same]
    simp only [number, total, date, year_ok, if_true]
  rw [text, date, ← inDay_eq]
  dsimp only
  by_cases leap : 1000000000 ≤ nanos
  · have last : inDay % 60 = 59 := by omega
    rw [if_pos leap, ofText?_fields year_ok exists' (by omega) (by omega) (by omega) (by omega)]
    exact shown _ _ (by rw [last, if_pos rfl, Nat.sub_add_cancel leap])
  · rw [if_neg leap, ofText?_fields year_ok exists' (by omega) (by omega) (by omega) (by omega)]
    exact shown _ _ (if_neg (by omega))

theorem foldl_digits_lt (cs : List Char) (all : ∀ c ∈ cs, c.isDigit = true) (before : Nat) :
    cs.foldl (fun n c => 10 * n + (c.toNat - '0'.toNat)) before <
      (before + 1) * 10 ^ cs.length := by
  induction cs generalizing before with
  | nil => simp
  | cons c cs ih =>
    have digit := Char.isDigit_iff_toNat.mp (all c List.mem_cons_self)
    have below : 10 * before + (c.toNat - '0'.toNat) + 1 ≤ (before + 1) * 10 := by
      have := digit.2
      simp only [Char.reduceToNat] at this ⊢
      omega
    calc (c :: cs).foldl _ before
        < (10 * before + (c.toNat - '0'.toNat) + 1) * 10 ^ cs.length :=
          ih (fun c mem => all c (List.mem_cons_of_mem _ mem)) _
      _ ≤ (before + 1) * 10 * 10 ^ cs.length := Nat.mul_le_mul_right _ below
      _ = (before + 1) * 10 ^ (c :: cs).length := by
          rw [List.length_cons, Nat.pow_succ', Nat.mul_assoc]

theorem number?_lt {most n : Nat} {cs rest : List Char} (read : number? most cs = some (n, rest)) :
    n < 10 ^ ((cs.take most).takeWhile Char.isDigit).length := by
  rw [number?] at read
  split at read
  · cases read
  · cases read
    have all : ∀ c ∈ (cs.take most).takeWhile Char.isDigit, c.isDigit = true :=
      fun c mem => List.mem_takeWhile_imp mem
    simpa using foldl_digits_lt _ all 0

theorem decimals?_lt {cs rest : List Char} {nanos : Nat}
    (read : decimals? cs = some (nanos, rest)) :
    nanos < 1000000000 := by
  unfold decimals? at read
  split at read
  case h_1 rest' =>
    obtain ⟨⟨n, rest''⟩, number, done⟩ := Option.bind_eq_some_iff.mp read
    have count : ((rest'.take 9).takeWhile Char.isDigit).length ≤ 9 :=
      (List.takeWhile_sublist _).length_le.trans (List.length_take_le 9 rest')
    have below := number?_lt number
    simp only [Option.pure_def, Option.some_inj, Prod.mk.injEq] at done
    rw [← done.1]
    calc n * 10 ^ (9 - ((rest'.take 9).takeWhile Char.isDigit).length)
        < 10 ^ ((rest'.take 9).takeWhile Char.isDigit).length *
            10 ^ (9 - ((rest'.take 9).takeWhile Char.isDigit).length) :=
          Nat.mul_lt_mul_of_pos_right below (Nat.pow_pos (by decide))
      _ = 1000000000 := by rw [← Nat.pow_add, Nat.add_sub_cancel' count]
  case h_2 => cases read; decide

theorem offset?_minutes {cs rest : List Char} {offset : Int}
    (read : offset? cs = some (offset, rest)) : offset % 60 = 0 := by
  have signed (negative : Bool) (hours minutes : Nat) :
      (if negative then -((hours : Int) * 3600 + minutes * 60) else hours * 3600 + minutes * 60)
        % 60 = 0 := by
    split <;> omega
  simp only [offset?, Option.bind_eq_bind, Option.bind_some, Option.bind_none] at read
  grind [Option.bind_eq_some_iff]

/-- What a text is read as can be read. -/
theorem inRange_of_ofText? {text : String} {t : Timestamp} (read : ofText? text = some t) :
    t.InRange := by
  obtain ⟨⟨year, cs⟩, -, read⟩ := Option.bind_eq_some_iff.mp read
  obtain ⟨cs, -, read⟩ := Option.bind_eq_some_iff.mp read
  obtain ⟨⟨month, cs⟩, -, read⟩ := Option.bind_eq_some_iff.mp read
  obtain ⟨cs, -, read⟩ := Option.bind_eq_some_iff.mp read
  obtain ⟨⟨day, cs⟩, -, read⟩ := Option.bind_eq_some_iff.mp read
  cases cs with
  | nil => cases read
  | cons c cs =>
    dsimp only at read
    split at read
    case isFalse => cases read
    case isTrue =>
      obtain ⟨cs, -, read⟩ := Option.bind_eq_some_iff.mp read
      obtain ⟨⟨hour, cs⟩, -, read⟩ := Option.bind_eq_some_iff.mp read
      obtain ⟨cs, -, read⟩ := Option.bind_eq_some_iff.mp read
      obtain ⟨⟨minute, cs⟩, -, read⟩ := Option.bind_eq_some_iff.mp read
      obtain ⟨cs, -, read⟩ := Option.bind_eq_some_iff.mp read
      obtain ⟨⟨second, cs⟩, -, read⟩ := Option.bind_eq_some_iff.mp read
      obtain ⟨⟨nanos, cs⟩, decimals, read⟩ := Option.bind_eq_some_iff.mp read
      obtain ⟨⟨offset, cs⟩, zone, read⟩ := Option.bind_eq_some_iff.mp read
      have nanos_lt := decimals?_lt decimals
      have minutes := offset?_minutes zone
      dsimp only at read
      split at read
      case isFalse => cases read
      case isTrue fits =>
        by_cases leap : second = 60
        · rw [if_pos leap] at read
          dsimp only at read
          split at read
          case isFalse => cases read
          case isTrue year_ok =>
            cases read
            refine ⟨year_ok, .inr ?_⟩
            rw [Int.fmod_eq_emod_of_nonneg _ (by decide)]
            dsimp only
            omega
        · rw [if_neg leap] at read
          dsimp only at read
          split at read
          case isFalse => cases read
          case isTrue year_ok =>
            cases read
            exact ⟨year_ok, .inl nanos_lt⟩

/-- Of the instants, those that some text spells are read back from their own text. -/
theorem ofText?_text_iff (t : Timestamp) :
    ofText? t.text = some t ↔ ∃ text, ofText? text = some t :=
  ⟨fun read => ⟨t.text, read⟩, fun ⟨_, read⟩ => ofText?_text (inRange_of_ofText? read)⟩

example : (ofText? "2024-02-29T12:34:56.5+02:00").map text = some "2024-02-29T10:34:56.500Z" := by
  decide +kernel

end Statechart.Timestamp
