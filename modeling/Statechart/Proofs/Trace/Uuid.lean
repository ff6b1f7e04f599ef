import Mathlib.Tactic.Ring
import Statechart.Proofs.Json.Token
import Statechart.Trace.Uuid

set_option autoImplicit false

namespace Statechart

open Json

namespace Uuid

/-- So many digits at the end of a number, zeros in front included. -/
def lastDigits (count n : Nat) : List Char :=
  (List.range count).map (fun place => Nat.digitChar (n / 16 ^ (count - 1 - place) % 16))

theorem lastDigits_succ (count n : Nat) :
    lastDigits (count + 1) n = Nat.digitChar (n / 16 ^ count % 16) :: lastDigits count n := by
  simp only [lastDigits, List.range_succ_eq_map, List.map_cons, List.map_map]
  congr 1
  apply List.map_congr_left
  intro place inRange
  have below := List.mem_range.mp inRange
  simp only [Function.comp, show count + 1 - 1 - place.succ = count - 1 - place by omega]

theorem length_lastDigits (count n : Nat) : (lastDigits count n).length = count := by
  simp [lastDigits]

theorem hexNumber?_lastDigits (count n : Nat) :
    hexNumber? (lastDigits count n) = some (n % 16 ^ count) := by
  -- What was read so far moves up by as many places as there are digits to come.
  have onto (before : Nat) :
      (lastDigits count n).foldlM (fun n c => (Token.hexValue? c).map (16 * n + ·)) before =
        some (before * 16 ^ count + n % 16 ^ count) := by
    induction count generalizing before with
    | zero => simp [lastDigits, Nat.mod_one]
    | succ count ih =>
      have digit := Token.hexValue?_digitChar (Nat.mod_lt (n / 16 ^ count) (by decide : 0 < 16))
      rw [lastDigits_succ, List.foldlM_cons, digit]
      simp only [Option.map_some, Option.bind_eq_bind, Option.bind_some, ih, Nat.mod_pow_succ]
      congr 1
      ring
  simpa [hexNumber?] using onto 0

theorem ofNat_lastDigits (id : Uuid) :
    (hexNumber? (lastDigits 32 id.bits.toNat)).map (fun n => (⟨BitVec.ofNat 128 n⟩ : Uuid)) =
      some id := by
  have small : id.bits.toNat < 16 ^ 32 := id.bits.isLt
  rw [hexNumber?_lastDigits, Nat.mod_eq_of_lt small]
  simp

/-- Digits in five groups, joined by hyphens. -/
def grouped (digits : List Char) : List Char :=
  digits.take 8 ++ '-' :: (digits.drop 8).take 4 ++ '-' :: (digits.drop 12).take 4 ++
    '-' :: (digits.drop 16).take 4 ++ '-' :: digits.drop 20

theorem toList_text (id : Uuid) : id.text.toList = grouped (lastDigits 32 id.bits.toNat) := by
  rw [text, String.toList_ofList]
  rfl

section

variable {digits : List Char} (length : digits.length = 32)

include length

theorem length_grouped : (grouped digits).length = 36 := by
  simp [grouped]
  omega

theorem ofGroups?_grouped :
    ofGroups? (grouped digits) = (hexNumber? digits).map (fun n => ⟨BitVec.ofNat 128 n⟩) := by
  have hyphens : [8, 13, 18, 23].all (fun place => (grouped digits)[place]? = some '-') := by
    simp [grouped, List.getElem?_append, length]
  have split (start count : Nat) : (digits.drop start).take count ++ digits.drop (start + count) =
      digits.drop start := by
    rw [← List.drop_drop, List.take_append_drop]
  have whole : digits.take 8 ++ ((digits.drop 8).take 4 ++ ((digits.drop 12).take 4 ++
      ((digits.drop 16).take 4 ++ digits.drop 20))) = digits := by
    rw [split 16 4, split 12 4, split 8 4, List.take_append_drop]
  have ungrouped : (grouped digits).take 8 ++ ((grouped digits).drop 9).take 4 ++
      ((grouped digits).drop 14).take 4 ++ ((grouped digits).drop 19).take 4 ++
      (grouped digits).drop 24 = digits := by
    simpa [grouped, List.drop_append, List.drop_take, length] using whole
  rw [ofGroups?, if_pos ⟨length_grouped length, hyphens⟩, ungrouped]

end

theorem ofGroups?_text (id : Uuid) : ofGroups? id.text.toList = some id := by
  rw [toList_text, ofGroups?_grouped (length_lastDigits 32 _), ofNat_lastDigits]

/-- An identifier is read back from its text, also between braces or as a URN, and from its
digits alone. -/
theorem ofText?_spellings (id : Uuid) :
    ofText? id.text = some id ∧ ofText? ("\x7b" ++ id.text ++ "\x7d") = some id ∧
      ofText? ("urn:uuid:" ++ id.text) = some id ∧
      ofText? (String.ofList (lastDigits 32 id.bits.toNat)) = some id := by
  have length : id.text.toList.length = 36 := by
    rw [toList_text, length_grouped (length_lastDigits 32 _)]
  refine ⟨?_, ?_, ?_, ?_⟩
  · simp only [ofText?, length, ofGroups?_text]
    rfl
  · have around : ("\x7b" ++ id.text ++ "\x7d").toList = '\x7b' :: id.text.toList ++ ['\x7d'] := by
      simp
    have closed : ('\x7b' :: (id.text.toList ++ ['\x7d'])).getLast? = some '\x7d' := by
      rw [← List.cons_append, List.getLast?_concat]
    simp [ofText?, around, closed, length, ofGroups?_text]
  · simp [ofText?, length, ofGroups?_text]
  · simp [ofText?, length_lastDigits, ofNat_lastDigits]

end Uuid

end Statechart
