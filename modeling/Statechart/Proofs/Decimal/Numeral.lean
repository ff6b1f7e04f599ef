import Mathlib.Algebra.Ring.Int.Defs
import Mathlib.Data.List.Basic
import Mathlib.Data.List.TakeWhile
import Statechart.Decimal.Numeral

set_option autoImplicit false

namespace Statechart.Numeral

theorem head?_toDigits_ne {n : Nat} (positive : 0 < n) : (Nat.toDigits 10 n).head? ≠ some '0' := by
  induction n using Nat.strongRecOn with
  | ind n ih =>
    rw [Nat.toDigits_eq_if (by decide)]
    split
    case isTrue small =>
      rw [List.head?_cons, Ne, Option.some_inj, Nat.digitChar_eq_zero]
      omega
    case isFalse large =>
      have front := ih (n / 10) (by omega) (by omega)
      rwa [List.head?_append_of_ne_nil _ Nat.toDigits_ne_nil]

/-- The digits that some characters are. -/
def valuesOf (cs : List Char) : List Nat :=
  cs.map (fun c => c.toNat - '0'.toNat)

theorem ofDigits_valuesOf (cs : List Char) : ofDigits (valuesOf cs) = Nat.ofDigitChars 10 cs 0 := by
  rw [valuesOf, ofDigits, List.foldl_map, ← Nat.ofDigitChars_eq_foldl]

theorem isDigit_of_mem_toDigits {n : Nat} {c : Char} (mem : c ∈ Nat.toDigits 10 n) :
    c.isDigit = true :=
  Nat.isDigit_of_mem_toDigits (by decide) (by decide) mem

section

variable {cs : List Char} (all : ∀ c ∈ cs, c.isDigit = true)

include all

theorem valuesOf_ne_zero_cons (front : cs.head? ≠ some '0') (rest : List Nat) :
    valuesOf cs ≠ 0 :: rest := by
  intro same
  cases cs with
  | nil => cases same
  | cons c cs =>
    have digit := Char.isDigit_iff_toNat.mp (all c List.mem_cons_self)
    have value : c.toNat - '0'.toNat = 0 := (List.cons.inj same).1
    have isZero : c.toNat = '0'.toNat := by omega
    exact front (congrArg some (Char.toNat_inj.mp isZero))

theorem digits_append {rest : List Char} (stop : ∀ c ∈ rest.head?, c.isDigit = false) :
    digits (cs ++ rest) = (valuesOf cs, rest) := by
  have front : rest.takeWhile Char.isDigit = [] := by
    cases rest with
    | nil => rfl
    | cons c rest => simp [stop c rfl]
  have back : rest.dropWhile Char.isDigit = rest := by
    cases rest with
    | nil => rfl
    | cons c rest => simp [stop c rfl]
  rw [digits, List.takeWhile_append_of_pos all, List.dropWhile_append_of_pos all, front, back,
    List.append_nil, valuesOf]

end

/-- The digits of a number as a numeral has them. -/
def digitsOf (n : Nat) : List Nat :=
  valuesOf (Nat.toDigits 10 n)

theorem ofDigits_digitsOf (n : Nat) : ofDigits (digitsOf n) = n := by
  rw [digitsOf, ofDigits_valuesOf, Nat.ofDigitChars_ten_toDigits]

theorem digitsOf_ne_nil (n : Nat) : digitsOf n ≠ [] := by
  simp [digitsOf, valuesOf, Nat.toDigits_ne_nil]

theorem digitsOf_ne_zero_cons (n second : Nat) (rest : List Nat) :
    digitsOf n ≠ 0 :: second :: rest := by
  obtain rfl | positive := Nat.eq_zero_or_pos n
  · exact nofun
  · exact valuesOf_ne_zero_cons (fun _ => isDigit_of_mem_toDigits) (head?_toDigits_ne positive) _

theorem digits_toDigits (n : Nat) : digits (Nat.toDigits 10 n) = (digitsOf n, []) := by
  have read : digits (Nat.toDigits 10 n ++ []) = (digitsOf n, []) :=
    digits_append (fun _ => isDigit_of_mem_toDigits) nofun
  rwa [List.append_nil] at read

theorem begins_of_digits {cs rest : List Char} {ds : List Nat} (read : digits cs = (ds, rest))
    (nonempty : ds ≠ []) : ∃ c more, cs = c :: more ∧ c.isDigit = true := by
  cases read
  cases cs with
  | nil => exact absurd rfl nonempty
  | cons c more =>
    refine ⟨c, more, rfl, ?_⟩
    by_contra notDigit
    simp [notDigit] at nonempty

theorem signed_eq (negative : Bool) {body : List Char}
    (begins : ∃ c more, body = c :: more ∧ c.isDigit = true) :
    (match if negative then '-' :: body else body with
      | '-' :: body => (true, body)
      | body => (false, body)) = (negative, body) := by
  obtain ⟨c, more, rfl, digit⟩ := begins
  cases negative with
  | true => rfl
  | false =>
    split
    case h_1 inner same =>
      cases same
      cases digit
    case h_2 => rfl

section

variable (negative : Bool) {body rest : List Char} {whole : List Nat}
  (front : digits body = (whole, rest))
  (nonempty : whole ≠ []) (noZero : ∀ second more, whole ≠ 0 :: second :: more)

include front nonempty noZero

theorem ofChars?_whole (stop : rest.head? ≠ some '.') :
    ofChars? (if negative then '-' :: body else body) =
      (exponentPart? rest).map (⟨negative, whole, none, ·⟩) := by
  have sign := signed_eq negative (begins_of_digits front nonempty)
  fun_cases ofChars? (if negative then '-' :: body else body) with
  | case1 negative' body' sign' rest read =>
    cases sign.symm.trans sign'
    cases front.symm.trans read
    exact absurd rfl nonempty
  | case2 negative' body' sign' second more' rest read =>
    cases sign.symm.trans sign'
    cases front.symm.trans read
    exact absurd rfl (noZero _ _)
  | case3 negative' body' sign' whole' rest' _ _ read =>
    cases sign.symm.trans sign'
    cases front.symm.trans read
    exact absurd rfl stop
  | case4 negative' body' sign' whole' rest' _ _ read =>
    cases sign.symm.trans sign'
    cases front.symm.trans read
    exact absurd rfl stop
  | case5 negative' body' sign' whole' rest' _ _ _ read =>
    cases sign.symm.trans sign'
    cases front.symm.trans read
    rfl

theorem ofChars?_fraction {tail after : List Char} {fraction : List Nat}
    (point : rest = '.' :: tail) (back : digits tail = (fraction, after))
    (some' : fraction ≠ []) :
    ofChars? (if negative then '-' :: body else body) =
      (exponentPart? after).map (⟨negative, whole, some fraction, ·⟩) := by
  have sign := signed_eq negative (begins_of_digits front nonempty)
  fun_cases ofChars? (if negative then '-' :: body else body) with
  | case1 negative' body' sign' rest read =>
    cases sign.symm.trans sign'
    cases front.symm.trans read
    exact absurd rfl nonempty
  | case2 negative' body' sign' second more' rest read =>
    cases sign.symm.trans sign'
    cases front.symm.trans read
    exact absurd rfl (noZero _ _)
  | case3 negative' body' sign' whole' rest' _ _ read rest'' further =>
    cases sign.symm.trans sign'
    cases point
    cases front.symm.trans read
    cases back.symm.trans further
    exact absurd rfl some'
  | case4 negative' body' sign' whole' rest' _ _ read fraction' rest'' _ further =>
    cases sign.symm.trans sign'
    cases point
    cases front.symm.trans read
    cases back.symm.trans further
    rfl
  | case5 negative' body' sign' whole' rest' _ _ noPoint read =>
    cases sign.symm.trans sign'
    cases point
    cases front.symm.trans read
    exact absurd rfl (noPoint tail)

end

theorem ofChars?_toString (n : Int) :
    ofChars? (toString n).toList = some ⟨decide (n < 0), digitsOf n.natAbs, none, none⟩ := by
  have text : (toString n).toList = if decide (n < 0) then '-' :: Nat.toDigits 10 n.natAbs
      else Nat.toDigits 10 n.natAbs := by
    cases n with
    | ofNat m => simp [Int.toString_eq_repr, Int.repr]
    | negSucc m => simp [Int.toString_eq_repr, Int.repr]
  rw [text, ofChars?_whole _ (digits_toDigits _) (digitsOf_ne_nil _) (digitsOf_ne_zero_cons _)
    nofun]
  rfl

/-- Integers of a 64-bit word are read back from their numerals, and no others are. -/
theorem integer?_toString_iff (n : Int) :
    (ofChars? (toString n).toList).bind integer? = some n ↔ -2 ^ 63 ≤ n ∧ n < 2 ^ 64 := by
  rw [ofChars?_toString, Option.bind_some]
  simp only [integer?, ofDigits_digitsOf, decide_eq_true_eq, UInt64.size, Nat.pow_eq]
  split_ifs with negative fits fits
  · rw [Option.some_inj]
    omega
  · simp only [false_iff]
    omega
  · rw [Option.some_inj]
    omega
  · simp only [false_iff]
    omega

end Statechart.Numeral
