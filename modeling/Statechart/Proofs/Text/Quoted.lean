import Mathlib.Tactic.SplitIfs
import Statechart.Text.Layout

set_option autoImplicit false

namespace Statechart

namespace Text

theorem isSeen_iff (c : Char) :
    isSeen c = true ↔ ∀ range ∈ unseenRanges, ¬ (range.1 ≤ c.toNat ∧ c.toNat ≤ range.2) := by
  -- Below the first delete only the first range counts, and that is what the short way asks.
  have early : ∀ range ∈ unseenRanges, range = (0, 0x1f) ∨ 0x7f ≤ range.1 := by decide +kernel
  have first : (0, 0x1f) ∈ unseenRanges := by decide +kernel
  by_cases ascii : c.toNat < 0x7f
  · rw [isSeen, if_pos ascii, decide_eq_true_eq]
    constructor
    · intro seen range listed
      rcases early range listed with rfl | late <;> omega
    · intro outside
      have := outside _ first
      omega
  · simp only [isSeen, if_neg ascii, Bool.not_eq_true', List.any_eq_false, Bool.and_eq_true,
      decide_eq_true_eq]

example : isSeen 'é' ∧ ¬isSeen '\u0301' := by decide +kernel

theorem eq_space_of_isBlank {c : Char} (blank : isBlank c = true) (seen : isSeen c = true) :
    c = ' ' := by
  have outside := (isSeen_iff c).mp seen
  have control := outside (0x0, 0x1f) (by decide +kernel)
  have later := outside (0x7f, 0xa0) (by decide +kernel)
  have ogham := outside (0x1680, 0x1680) (by decide +kernel)
  have spaces := outside (0x1fff, 0x200f) (by decide +kernel)
  have lines := outside (0x2028, 0x202f) (by decide +kernel)
  have formats := outside (0x205f, 0x206f) (by decide +kernel)
  have wide := outside (0x3000, 0x3000) (by decide +kernel)
  simp only [isBlank, Bool.or_eq_true, Bool.and_eq_true, decide_eq_true_eq] at blank
  have only : c.toNat = 32 := by omega
  rw [← Char.ofNat_toNat c, only]

theorem hexDigits_injective {m n : Nat} (same : hexDigits m = hexDigits n) : m = n := by
  have digits : ∀ m < 16, ∀ n < 16, Nat.digitChar m = Nat.digitChar n → m = n := by decide
  induction m using Nat.strongRecOn generalizing n with
  | ind m ih =>
    have mMore := List.length_pos_iff.mpr (Nat.toDigits_ne_nil (n := m / 16) (b := 16))
    have nMore := List.length_pos_iff.mpr (Nat.toDigits_ne_nil (n := n / 16) (b := 16))
    have lengths := congrArg List.length same
    rw [hexDigits, hexDigits, Nat.toDigits_eq_if (by decide) (n := m),
      Nat.toDigits_eq_if (by decide) (n := n)] at same lengths
    by_cases mSmall : m < 16 <;> by_cases nSmall : n < 16 <;>
      simp only [mSmall, nSmall, if_true, if_false, List.length_append, List.length_singleton]
        at same lengths
    · exact digits m mSmall n nSmall (List.cons.inj same).1
    · omega
    · omega
    · obtain ⟨high, low⟩ := List.append_inj' same rfl
      have highs := ih (m / 16) (by omega) high
      have lows := digits _ (by omega) _ (by omega) (List.cons.inj low).1
      omega

theorem digitChar_of_mem_hexDigits {n : Nat} {c : Char} (member : c ∈ hexDigits n) :
    ∃ digit < 16, c = Nat.digitChar digit := by
  induction n using Nat.strongRecOn with
  | ind n ih =>
    rw [hexDigits, Nat.toDigits_eq_if (by decide)] at member
    split at member
    case isTrue small => exact ⟨n, small, List.mem_singleton.mp member⟩
    case isFalse large =>
      rcases List.mem_append.mp member with high | low
      · exact ih (n / 16) (by omega) high
      · exact ⟨n % 16, by omega, List.mem_singleton.mp low⟩

/-- Digits up to a closing brace are the number of that brace. -/
theorem hexDigits_append_inj {m n : Nat} {s t : List Char}
    (same : hexDigits m ++ '\x7d' :: s = hexDigits n ++ '\x7d' :: t) : m = n ∧ s = t := by
  have open' (k : Nat) : ∀ c ∈ hexDigits k, (c ≠ '\x7d' : Bool) = true := by
    have digits : ∀ digit < 16, (Nat.digitChar digit ≠ '\x7d' : Bool) = true := by decide
    intro c member
    obtain ⟨digit, small, rfl⟩ := digitChar_of_mem_hexDigits member
    exact digits digit small
  have word (k : Nat) (rest : List Char) :
      (hexDigits k ++ '\x7d' :: rest).takeWhile (· ≠ '\x7d') = hexDigits k := by
    rw [List.takeWhile_append_of_pos (open' k)]
    simp
  have words := congrArg (List.takeWhile (· ≠ '\x7d')) same
  rw [word, word] at words
  cases hexDigits_injective words
  exact ⟨rfl, (List.cons.inj (List.append_cancel_left same)).2⟩

/-- The characters with a form of two characters, and the second of these. -/
def shortForms : List (Char × Char) :=
  [('\x00', '0'), ('\t', 't'), ('\r', 'r'), ('\n', 'n'), ('"', '"'), ('\\', '\\')]

theorem quoteChar_cases (c : Char) :
    (∃ mark, (c, mark) ∈ shortForms ∧ quoteChar c = ['\\', mark]) ∨
      (quoteChar c = [c] ∧ isSeen c = true ∧ c ≠ '"' ∧ c ≠ '\\') ∨
      quoteChar c = '\\' :: 'u' :: '\x7b' :: hexDigits c.toNat ++ ['\x7d'] := by
  by_cases short : c ∈ shortForms.map Prod.fst
  · obtain ⟨⟨_, mark⟩, listed, rfl⟩ := List.mem_map.mp short
    refine Or.inl ⟨mark, listed, ?_⟩
    have forms : ∀ form ∈ shortForms, quoteChar form.1 = ['\\', form.2] := by decide
    exact forms _ listed
  · simp only [shortForms, List.map_cons, List.map_nil, List.mem_cons, List.not_mem_nil, or_false,
      not_or] at short
    obtain ⟨nul, tab, line, feed, quote, backslash⟩ := short
    refine Or.inr ?_
    simp only [quoteChar, nul, tab, line, feed, quote, backslash, if_false]
    by_cases seen : isSeen c = true
    · exact Or.inl ⟨by rw [if_pos seen], seen, quote, backslash⟩
    · exact Or.inr (by rw [if_neg seen]; rfl)

theorem quoteChar_append_inj {c d : Char} {s t : List Char}
    (same : quoteChar c ++ s = quoteChar d ++ t) : c = d ∧ s = t := by
  have short : ∀ form ∈ shortForms, form.2 ≠ 'u' := by decide
  have distinct : ∀ form ∈ shortForms, ∀ other ∈ shortForms,
      form.2 = other.2 → form.1 = other.1 := by decide
  rcases quoteChar_cases c with ⟨mark, listed, form⟩ | ⟨form, _, _, plain⟩ | form <;>
    rcases quoteChar_cases d with ⟨other, otherListed, otherForm⟩ | ⟨otherForm, _, _, otherPlain⟩ |
      otherForm <;>
    rw [form, otherForm] at same
  · simp only [List.cons_append, List.nil_append, List.cons.injEq, true_and] at same
    exact ⟨distinct _ listed _ otherListed same.1, same.2⟩
  · exact absurd (List.cons.inj same).1.symm otherPlain
  · exact absurd (List.cons.inj (List.cons.inj same).2).1 (short _ listed)
  · exact absurd (List.cons.inj same).1 plain
  · exact List.cons.inj same
  · exact absurd (List.cons.inj same).1 plain
  · exact absurd (List.cons.inj (List.cons.inj same).2).1.symm (short _ otherListed)
  · exact absurd (List.cons.inj same).1.symm otherPlain
  · simp only [List.cons_append, List.append_assoc, List.nil_append, List.cons.injEq,
      true_and] at same
    obtain ⟨codes, rest⟩ := hexDigits_append_inj same
    exact ⟨Char.toNat_inj.mp codes, rest⟩

theorem quoteChar_append_ne {c : Char} {s t : List Char} : quoteChar c ++ s ≠ '"' :: t := by
  intro same
  rcases quoteChar_cases c with ⟨mark, _, form⟩ | ⟨form, _, plain, _⟩ | form <;>
    rw [form] at same
  · exact absurd (List.cons.inj same).1 (by decide)
  · exact plain (List.cons.inj same).1
  · exact absurd (List.cons.inj same).1 (by decide)

/-- All that is put between quotation marks can be seen. -/
theorem isSeen_of_mem_quoteChar {c d : Char} (member : d ∈ quoteChar c) : isSeen d = true := by
  have short : ∀ form ∈ shortForms, isSeen form.2 = true := by decide +kernel
  have digits : ∀ digit < 16, isSeen (Nat.digitChar digit) = true := by decide +kernel
  rcases quoteChar_cases c with ⟨mark, listed, form⟩ | ⟨form, seen, _⟩ | form <;>
    rw [form] at member
  · simp only [List.mem_cons, List.not_mem_nil, or_false] at member
    rcases member with rfl | rfl
    · decide +kernel
    · exact short _ listed
  · rw [List.mem_singleton.mp member]
    exact seen
  · simp only [List.cons_append, List.mem_cons, List.mem_append, List.not_mem_nil,
      or_false] at member
    rcases member with rfl | rfl | rfl | inside | rfl
    · decide +kernel
    · decide +kernel
    · decide +kernel
    · obtain ⟨digit, small, rfl⟩ := digitChar_of_mem_hexDigits inside
      exact digits digit small
    · decide +kernel

/-- The text of a value tells where it ends and what it is of, whatever follows. -/
def Delimits {α : Type} (form : α → String) (a : α) : Prop :=
  ∀ (b : α) (s t : List Char), (form a).toList ++ s = (form b).toList ++ t → a = b ∧ s = t

theorem injective_of_delimits {α : Type} {form : α → String} (delimits : ∀ a, Delimits form a) :
    Function.Injective form := by
  intro a b same
  exact (delimits a b [] [] (by rw [same])).1

theorem quoted_delimits (s : String) : Delimits quoted s := by
  have inside (cs ds s t : List Char)
      (same : cs.flatMap quoteChar ++ '"' :: s = ds.flatMap quoteChar ++ '"' :: t) :
      cs = ds ∧ s = t := by
    induction cs generalizing ds with
    | nil =>
      cases ds with
      | nil => exact ⟨rfl, (List.cons.inj same).2⟩
      | cons d ds =>
        rw [List.flatMap_cons, List.append_assoc] at same
        exact absurd same.symm quoteChar_append_ne
    | cons c cs ih =>
      rw [List.flatMap_cons, List.append_assoc] at same
      cases ds with
      | nil => exact absurd same quoteChar_append_ne
      | cons d ds =>
        rw [List.flatMap_cons, List.append_assoc] at same
        obtain ⟨rfl, rest⟩ := quoteChar_append_inj same
        obtain ⟨rfl, rfl⟩ := ih ds rest
        exact ⟨rfl, rfl⟩
  intro other rest more same
  simp only [quoted, String.toList_ofList, List.cons_append, List.append_assoc, List.nil_append,
    List.cons.injEq, true_and] at same
  obtain ⟨chars, rests⟩ := inside _ _ _ _ same
  exact ⟨String.toList_inj.mp chars, rests⟩

example : quoted "it's\u200b" = "\"it's\\u\x7b200b\x7d\"" := by decide +kernel

end Text

end Statechart
