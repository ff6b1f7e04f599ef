import Mathlib.Data.List.Infix
import Statechart.Indices.Agreement

set_option autoImplicit false

namespace Statechart

def numeral (position : Nat) : List Char :=
  (toString position).toList

theorem numeral_eq (position : Nat) : numeral position = Nat.toDigits 10 position := by
  rw [numeral, Nat.toString_eq_repr, Nat.toList_repr]

theorem dot_not_mem_numeral (position : Nat) : '.' ∉ numeral position := by
  intro member
  rw [numeral_eq] at member
  have digit := Nat.isDigit_of_mem_toDigits (by decide) (by decide) member
  cases digit

theorem numeral_injective : Function.Injective numeral := by
  intro first second same
  rw [numeral_eq, numeral_eq] at same
  calc
    first = Nat.ofDigitChars 10 (Nat.toDigits 10 first) 0 := Nat.ofDigitChars_ten_toDigits.symm
    _ = Nat.ofDigitChars 10 (Nat.toDigits 10 second) 0 := by rw [same]
    _ = second := Nat.ofDigitChars_ten_toDigits

theorem toList_pathText (path : List Nat) :
    (Indices.pathText path).toList = ['.'].intercalate ((0 :: path).map numeral) := by
  rw [Indices.pathText, String.toList_intercalate, List.map_map]
  rfl

/-- Two texts that begin with words without a dot, each followed by a dot, begin alike only if
the words are the same. -/
theorem append_dot_prefix_iff {first second : List Char} (firstPlain : '.' ∉ first)
    (secondPlain : '.' ∉ second)
    (rest more : List Char) : first ++ '.' :: rest <+: second ++ '.' :: more ↔
    first = second ∧ rest <+: more := by
  induction first generalizing second with
  | nil =>
    cases second with
    | nil => simp
    | cons letter second =>
      simp only [List.mem_cons, not_or] at secondPlain
      simp [secondPlain.1]
  | cons letter first ih =>
    simp only [List.mem_cons, not_or] at firstPlain
    cases second with
    | nil => simp [Ne.symm firstPlain.1]
    | cons other second =>
      simp only [List.mem_cons, not_or] at secondPlain
      simp only [List.cons_append, List.cons_prefix_cons, ih firstPlain.2 secondPlain.2,
        List.cons.injEq, and_assoc]

theorem not_append_dot_prefix {second : List Char} (plain : '.' ∉ second) (first rest : List Char) :
    ¬ first ++ '.' :: rest <+: second :=
  fun begins => plain (begins.subset (by simp))

/-- A text of words without a dot goes on from another with a dot exactly if it has all its
words and more. -/
theorem intercalate_dot_prefix_iff (first second : List Char) (outer inner : List (List Char))
    (outerPlain : ∀ word ∈ first :: outer, '.' ∉ word)
    (innerPlain : ∀ word ∈ second :: inner, '.' ∉ word) :
    ['.'].intercalate (first :: outer) ++ ['.'] <+: ['.'].intercalate (second :: inner) ↔
      first :: outer <+: second :: inner ∧ outer.length < inner.length := by
  induction outer generalizing first second inner with
  | nil =>
    have firstPlain := outerPlain first List.mem_cons_self
    have secondPlain := innerPlain second List.mem_cons_self
    cases inner with
    | nil => simpa using not_append_dot_prefix secondPlain first []
    | cons next inner =>
      rw [List.intercalate_singleton, List.intercalate_cons_cons, List.append_assoc,
        List.singleton_append, append_dot_prefix_iff firstPlain secondPlain]
      simp [List.cons_prefix_cons]
  | cons word outer ih =>
    have firstPlain := outerPlain first List.mem_cons_self
    have secondPlain := innerPlain second List.mem_cons_self
    cases inner with
    | nil => simpa [List.intercalate_cons_cons] using not_append_dot_prefix secondPlain first _
    | cons next inner =>
      have further := ih word next inner
        (fun other member => outerPlain other (List.mem_cons_of_mem _ member))
        (fun other member => innerPlain other (List.mem_cons_of_mem _ member))
      rw [List.intercalate_cons_cons, List.intercalate_cons_cons, List.append_assoc,
        List.append_assoc, List.append_assoc, List.singleton_append, List.singleton_append,
        append_dot_prefix_iff firstPlain secondPlain, further,
        List.cons_prefix_cons (a := first), List.length_cons, List.length_cons,
        Nat.add_lt_add_iff_right, and_assoc]

theorem pathText_startsWith_iff (outer inner : List Nat) :
    (Indices.pathText inner).startsWith (Indices.pathText outer ++ ".") = true ↔
      outer <+: inner ∧ outer.length < inner.length := by
  have plain (path : List Nat) : ∀ word ∈ numeral 0 :: path.map numeral, '.' ∉ word := by
    intro word member
    obtain ⟨position, _, rfl⟩ := List.mem_map.mp (show word ∈ (0 :: path).map numeral from member)
    exact dot_not_mem_numeral position
  rw [String.startsWith_string_iff, String.toList_append, toList_pathText, toList_pathText,
    List.map_cons, List.map_cons]
  have words := intercalate_dot_prefix_iff (numeral 0) (numeral 0) _ _ (plain outer) (plain inner)
  rw [List.cons_prefix_cons, List.prefix_map_iff_of_injective numeral_injective, List.length_map,
    List.length_map] at words
  simpa using words

/-- Paths and their texts say the same of who is inside whom. -/
theorem Hierarchy.isDottedAncestor_eq (hierarchy : Hierarchy) (ancestor state : String) :
    hierarchy.isDottedAncestor ancestor state = hierarchy.isStrictAncestor ancestor state := by
  unfold isDottedAncestor isStrictAncestor
  cases hierarchy.paths.find? ancestor with
  | none => rfl
  | some outer =>
    cases hierarchy.paths.find? state with
    | none => rfl
    | some inner =>
      rw [Bool.eq_iff_iff]
      simp only [pathText_startsWith_iff, Bool.and_eq_true, List.isPrefixOf_iff_prefix,
        decide_eq_true_eq]

end Statechart
