import Mathlib.Tactic.IntervalCases
import Statechart.Json.Reader
import Statechart.Json.Writer
import Statechart.Proofs.Decimal.Numeral

set_option autoImplicit false

namespace Statechart.Json

namespace Token

theorem scan?_cons (mode : Mode) (c : Char) (cs : List Char) :
    scan? mode (c :: cs) =
      (next? mode c).bind (fun read => (scan? read.2 cs).map (read.1 ++ ·)) := by
  have unfolded : scan? mode (c :: cs) = (next? mode c).bind (fun read =>
      (scan? read.2 cs).bind (fun tokens => some (read.1 ++ tokens))) := by
    cases mode <;> rw [scan?] <;> rfl
  simp only [unfolded, Option.map_eq_bind, Function.comp_def]

/-- A character that makes no token of its own. -/
theorem scan?_step {mode after : Mode} {c : Char} (step : next? mode c = some ([], after))
    (cs : List Char) : scan? mode (c :: cs) = scan? after cs := by
  rw [scan?_cons, step]
  cases rest : scan? after cs <;> simp [rest]

/-- The characters with an escape of two characters, and the second of these. -/
def shortEscapes : List (Char × Char) :=
  [('"', '"'), ('\\', '\\'), ('\n', 'n'), ('\r', 'r'), ('\t', 't'), ('\x08', 'b'), ('\x0c', 'f')]

theorem escapeChar_cases (c : Char) :
    (∃ mark, (c, mark) ∈ shortEscapes ∧ escapeChar c = ['\\', mark]) ∨
      (escapeChar c = '\\' :: 'u' :: fourHex c.toNat ∧ c.toNat < 0x20) ∨
      (escapeChar c = [c] ∧ c ≠ '"' ∧ c ≠ '\\' ∧ 0x20 ≤ c.toNat) := by
  by_cases short : c ∈ shortEscapes.map Prod.fst
  · obtain ⟨⟨_, mark⟩, listed, rfl⟩ := List.mem_map.mp short
    have escapes : ∀ escape ∈ shortEscapes, escapeChar escape.1 = ['\\', escape.2] := by decide
    exact Or.inl ⟨mark, listed, escapes _ listed⟩
  · simp only [shortEscapes, List.map_cons, List.map_nil, List.mem_cons, List.not_mem_nil,
      or_false, not_or] at short
    obtain ⟨quote, backslash, line, feed, tab, back, form⟩ := short
    refine Or.inr ?_
    simp only [escapeChar, quote, backslash, line, feed, tab, back, form, if_false]
    by_cases control : c.toNat < 0x20
    · exact Or.inl ⟨by rw [if_pos control]; rfl, control⟩
    · exact Or.inr ⟨by rw [if_neg control], quote, backslash, by omega⟩

theorem hexValue?_digitChar {n : Nat} (small : n < 16) :
    hexValue? (Nat.digitChar n) = some n := by
  interval_cases n <;> decide

theorem scan?_escapeChar (c : Char) (before cs : List Char) :
    scan? (.quote before false) (escapeChar c ++ cs) =
      scan? (.quote ((escapeChar c).reverse ++ before) false) cs := by
  have open' (before cs : List Char) : scan? (.quote before false) ('\\' :: cs) =
      scan? (.quote ('\\' :: before) true) cs := scan?_step rfl cs
  have escaped (before : List Char) (c : Char) (cs : List Char) :
      scan? (.quote before true) (c :: cs) = scan? (.quote (c :: before) false) cs :=
    scan?_step rfl cs
  have plain (before : List Char) {c : Char} (quote : c ≠ '"') (backslash : c ≠ '\\')
      (cs : List Char) : scan? (.quote before false) (c :: cs) =
        scan? (.quote (c :: before) false) cs :=
    scan?_step (by simp [next?, quote, backslash]) cs
  rcases escapeChar_cases c with ⟨mark, listed, escape⟩ | ⟨escape, control⟩ |
    ⟨escape, quote, backslash, _⟩
  · rw [escape]
    simp only [List.cons_append, List.nil_append, List.reverse_cons, List.reverse_nil, open',
      escaped]
  · have digits : ∀ digit < 16, Nat.digitChar digit ≠ '"' ∧ Nat.digitChar digit ≠ '\\' := by decide
    have digit (n : Nat) := digits (n % 16) (Nat.mod_lt n (by decide))
    rw [escape, fourHex]
    simp only [List.map_cons, List.map_nil, List.cons_append, List.nil_append, List.reverse_cons,
      List.reverse_nil, open', escaped, plain _ (digit _).1 (digit _).2]
  · rw [escape]
    simp only [List.cons_append, List.nil_append, List.reverse_cons, List.reverse_nil,
      plain _ quote backslash]

theorem scan?_quoted (body : List Char) (before cs : List Char) :
    scan? (.quote before false) (body.flatMap escapeChar ++ '"' :: cs) =
      (ofQuoted? (before.reverse ++ body.flatMap escapeChar)).bind (fun token =>
        (scan? .between cs).map (token :: ·)) := by
  induction body generalizing before with
  | nil =>
    simp only [List.flatMap_nil, List.nil_append, List.append_nil, scan?_cons, next?, if_true]
    cases ofQuoted? before.reverse <;> rfl
  | cons c body ih =>
    rw [List.flatMap_cons, List.append_assoc, scan?_escapeChar, ih]
    simp

/-- What is read of the escape of a character. -/
def pieceOf (c : Char) : Piece :=
  if (escapeChar c).length = 6 then .unit c.toNat else .char c

theorem pieces?_escapeChar (c : Char) (cs : List Char) :
    pieces? (escapeChar c ++ cs) = (pieces? cs).map (pieceOf c :: ·) := by
  rcases escapeChar_cases c with ⟨mark, listed, escape⟩ | ⟨escape, control⟩ |
    ⟨escape, quote, backslash, plain⟩
  · have meaning : ∀ escape ∈ shortEscapes, escape.2 ≠ 'u' ∧
        shortEscape? escape.2 = some escape.1 := by decide
    obtain ⟨notUnit, means⟩ := meaning _ listed
    rw [pieceOf, escape]
    simp only [List.cons_append, List.nil_append]
    rw [pieces?, means]
    · cases pieces? cs <;> rfl
    · exact fun _ _ _ _ _ same => absurd same notUnit
  · have digit (n : Nat) := hexValue?_digitChar (Nat.mod_lt n (by decide : 0 < 16))
    have code : 4096 * (c.toNat / 4096 % 16) + 256 * (c.toNat / 256 % 16) +
        16 * (c.toNat / 16 % 16) + c.toNat % 16 = c.toNat := by omega
    rw [pieceOf, escape, fourHex]
    simp only [List.map_cons, List.map_nil, List.cons_append, List.nil_append, pieces?, digit,
      Option.bind_eq_bind, Option.bind_some, code]
    cases pieces? cs <;> rfl
  · rw [pieceOf, escape]
    simp only [List.cons_append, List.nil_append]
    rw [pieces?, if_neg (not_or.mpr ⟨backslash, by omega⟩)]
    · cases pieces? cs <;> rfl
    · exact fun _ _ _ _ _ same => absurd same backslash
    · exact fun _ _ same => absurd same backslash

theorem join?_unit {code : Nat} (single : code < 0xd800) (pieces : List Piece) :
    join? (.unit code :: pieces) = (join? pieces).map (Char.ofNat code :: ·) := by
  have high : ¬ (0xd800 ≤ code ∧ code < 0xdc00) := by omega
  have low : ¬ (0xdc00 ≤ code ∧ code < 0xe000) := by omega
  have half : ¬ (0xd800 ≤ code ∧ code < 0xe000) := by omega
  match pieces with
  | [] => simp [join?, half]
  | .char c :: rest => simp [join?, half]
  | .unit next :: rest => rw [join?, if_neg high, if_neg low]

theorem join?_pieceOf (cs : List Char) : join? (cs.map pieceOf) = some cs := by
  induction cs with
  | nil => rfl
  | cons c cs ih =>
    rw [List.map_cons, pieceOf]
    split
    case isTrue long =>
      rcases escapeChar_cases c with ⟨mark, _, escape⟩ | ⟨_, control⟩ | ⟨escape, _⟩
      · simp [escape] at long
      · rw [join?_unit (by omega), ih, Char.ofNat_toNat]
        rfl
      · simp [escape] at long
    case isFalse => rw [join?, ih]; rfl

/-- The text of a string is the token of the string. -/
theorem scan?_stringText (s : String) (cs : List Char) :
    scan? .between ((stringText s).toList ++ cs) =
      (scan? .between cs).map (.scalar (.string s) :: ·) := by
  have pieces (cs : List Char) : pieces? (cs.flatMap escapeChar) = some (cs.map pieceOf) := by
    induction cs with
    | nil => rfl
    | cons c cs ih => rw [List.flatMap_cons, pieces?_escapeChar, ih]; rfl
  have quoted : ofQuoted? (s.toList.flatMap escapeChar) = some (.scalar (.string s)) := by
    rw [ofQuoted?, pieces, Option.map_some, join?_pieceOf]
    simp
  have opened : next? .between '"' = some ([], .quote [] false) := rfl
  rw [stringText, String.toList_ofList, List.cons_append, List.cons_append, List.append_assoc,
    scan?_step opened, List.singleton_append, scan?_quoted, List.reverse_nil, List.nil_append,
    quoted, Option.bind_some]

/-- What may follow a value in a text: its end, a comma, or the end of a container. -/
def Ends (cs : List Char) : Prop :=
  ∀ c ∈ cs.head?, c = ',' ∨ c = ']' ∨ c = '\x7d'

/-- A token that ends where the next one begins. -/
theorem scan?_ends {mode : Mode} {finished : Option Token}
    (atEnd : scan? mode [] = finished.map ([·]))
    (atMark : ∀ c, c = ',' ∨ c = ']' ∨ c = '\x7d' → next? mode c = finished.bind (fun token =>
      (start? c).map (fun read => (token :: read.1, read.2))))
    {cs : List Char} (ends : Ends cs) :
    scan? mode cs = finished.bind (fun token => (scan? .between cs).map (token :: ·)) := by
  cases cs with
  | nil =>
    rw [atEnd]
    cases finished <;> rfl
  | cons c rest =>
    rw [scan?_cons, scan?_cons, atMark c (ends c rfl), next?]
    cases finished with
    | none => rfl
    | some token =>
      cases start? c with
      | none => rfl
      | some read =>
        simp only [Option.bind_some, Option.map_some, Option.map_map]
        rfl

theorem scan?_numeral_ends {cs : List Char} (ends : Ends cs) (before : List Char) :
    scan? (.numeral before) cs = (ofNumeral? before.reverse).bind (fun token =>
      (scan? .between cs).map (token :: ·)) := by
  apply scan?_ends rfl _ ends
  intro c mark
  have numeric : isNumeric c = false := by rcases mark with rfl | rfl | rfl <;> rfl
  rw [next?, numeric]
  cases ofNumeral? before.reverse <;> cases start? c <;> rfl

theorem scan?_word_ends {cs : List Char} (ends : Ends cs) (before : List Char) :
    scan? (.word before) cs = (ofWord? before.reverse).bind (fun token =>
      (scan? .between cs).map (token :: ·)) := by
  apply scan?_ends rfl _ ends
  intro c mark
  have lower : c.isLower = false := by rcases mark with rfl | rfl | rfl <;> rfl
  rw [next?, lower]
  cases ofWord? before.reverse <;> cases start? c <;> rfl

/-- Characters that go on with a token. -/
theorem scan?_run {enter : List Char → Mode} {taken : Char → Bool}
    (onward : ∀ before c, taken c = true → next? (enter before) c = some ([], enter (c :: before)))
    {run : List Char} (all : ∀ c ∈ run, taken c = true) (before cs : List Char) :
    scan? (enter before) (run ++ cs) = scan? (enter (run.reverse ++ before)) cs := by
  induction run generalizing before with
  | nil => rfl
  | cons c run ih =>
    rw [List.cons_append, scan?_step (onward before c (all c List.mem_cons_self)),
      ih (fun next member => all next (List.mem_cons_of_mem _ member))]
    simp

theorem scan?_word {c : Char} {word : List Char} {token : Token}
    (start : start? c = some ([], .word [c])) (lower : ∀ c ∈ word, c.isLower = true)
    (read : ofWord? (c :: word) = some token) {cs : List Char} (ends : Ends cs) :
    scan? .between (c :: word ++ cs) = (scan? .between cs).map (token :: ·) := by
  rw [List.cons_append, scan?_step (show next? .between c = _ from start),
    scan?_run (fun before c lower => by rw [next?, if_pos lower]) lower, scan?_word_ends ends]
  simp [read]

theorem scan?_numeral {c : Char} {numeral : List Char} {token : Token}
    (start : start? c = some ([], .numeral [c])) (numeric : ∀ c ∈ numeral, isNumeric c = true)
    (read : ofNumeral? (c :: numeral) = some token) {cs : List Char} (ends : Ends cs) :
    scan? .between (c :: numeral ++ cs) = (scan? .between cs).map (token :: ·) := by
  rw [List.cons_append, scan?_step (show next? .between c = _ from start),
    scan?_run (fun before c numeric => by rw [next?, if_pos numeric]) numeric,
    scan?_numeral_ends ends]
  simp [read]

theorem scan?_null {cs : List Char} (ends : Ends cs) :
    scan? .between ("null".toList ++ cs) = (scan? .between cs).map (.scalar .null :: ·) :=
  scan?_word rfl (List.all_eq_true.mp rfl) rfl ends

theorem scan?_bool (b : Bool) {cs : List Char} (ends : Ends cs) :
    scan? .between ((if b then "true" else "false").toList ++ cs) =
      (scan? .between cs).map (.scalar (.bool b) :: ·) := by
  cases b with
  | false => exact scan?_word rfl (List.all_eq_true.mp rfl) rfl ends
  | true => exact scan?_word rfl (List.all_eq_true.mp rfl) rfl ends

theorem isNumeric_of_isDigit {c : Char} (digit : c.isDigit = true) : isNumeric c = true := by
  simp [isNumeric, digit]

theorem isNumeric_of_digits {cs rest : List Char} {ds : List Nat}
    (read : Numeral.digits cs = (ds, rest)) (further : ∀ c ∈ rest, isNumeric c = true) :
    ∀ c ∈ cs, isNumeric c = true := by
  cases read
  intro c member
  rw [← List.takeWhile_append_dropWhile (p := Char.isDigit) (l := cs)] at member
  rcases List.mem_append.mp member with front | back
  · exact isNumeric_of_isDigit (List.all_eq_true.mp List.all_takeWhile c front)
  · exact further c back

theorem isNumeric_of_exponentPart? {cs : List Char} {exponent : Option Int}
    (read : Numeral.exponentPart? cs = some exponent) : ∀ c ∈ cs, isNumeric c = true := by
  revert read
  fun_cases Numeral.exponentPart? cs with
  | case1 => exact fun _ => List.forall_mem_nil _
  | case2 => nofun
  | case3 mark rest isMark negative body signed ds _ read =>
    intro _
    have markNumeric : isNumeric mark = true := by
      rcases isMark with rfl | rfl <;> decide
    have bodyNumeric := isNumeric_of_digits read (List.forall_mem_nil _)
    rw [List.forall_mem_cons]
    refine ⟨markNumeric, ?_⟩
    split at signed <;> cases signed
    · exact List.forall_mem_cons.mpr ⟨by decide, bodyNumeric⟩
    · exact List.forall_mem_cons.mpr ⟨by decide, bodyNumeric⟩
    · exact bodyNumeric
  | case4 => nofun
  | case5 => nofun

theorem numeric_of_signed {cs body : List Char} {negative : Bool}
    (sign : (match cs with
      | '-' :: body => (true, body)
      | body => (false, body)) = (negative, body))
    (numeric : ∀ c ∈ body, isNumeric c = true) (begins : ∃ c more, body = c :: more ∧ c.isDigit) :
    (∀ c ∈ cs, isNumeric c = true) ∧ ∃ c more, cs = c :: more ∧ (c.isDigit = true ∨ c = '-') := by
  split at sign <;> cases sign
  · exact ⟨List.forall_mem_cons.mpr ⟨by decide, numeric⟩, _, _, rfl, Or.inr rfl⟩
  · obtain ⟨c, more, same, digit⟩ := begins
    exact ⟨numeric, c, more, same, Or.inl digit⟩

/-- A numeral has no characters but numeric ones, and begins with a digit or a minus sign. -/
theorem numeric_of_ofChars? {cs : List Char} {numeral : Numeral}
    (read : Numeral.ofChars? cs = some numeral) :
    (∀ c ∈ cs, isNumeric c = true) ∧ ∃ c more, cs = c :: more ∧ (c.isDigit = true ∨ c = '-') := by
  revert read
  fun_cases Numeral.ofChars? cs with
  | case1 => intro read; cases read
  | case2 => intro read; cases read
  | case3 => intro read; cases read
  | case4 negative body sign whole rest some' _ front fraction tail _ back =>
    intro read
    obtain ⟨exponent, ends, _⟩ := Option.map_eq_some_iff.mp read
    have fractionNumeric := isNumeric_of_digits back (isNumeric_of_exponentPart? ends)
    exact numeric_of_signed sign
      (isNumeric_of_digits front (List.forall_mem_cons.mpr ⟨by decide, fractionNumeric⟩))
      (Numeral.begins_of_digits front some')
  | case5 negative body sign whole rest some' _ _ front =>
    intro read
    obtain ⟨exponent, ends, _⟩ := Option.map_eq_some_iff.mp read
    exact numeric_of_signed sign (isNumeric_of_digits front (isNumeric_of_exponentPart? ends))
      (Numeral.begins_of_digits front some')

theorem start?_numeral {c : Char} (begins : c.isDigit = true ∨ c = '-') :
    start? c = some ([], .numeral [c]) := by
  rcases begins with digit | rfl
  · unfold start?
    split <;> first | (simp only [digit, true_or, if_true]) | cases digit
  · rfl

/-- The text of a number that is read back is the token of the number. -/
theorem scan?_ofNumeral? {text : String} {token : Token}
    (read : ofNumeral? text.toList = some token) {cs : List Char} (ends : Ends cs) :
    scan? .between (text.toList ++ cs) = (scan? .between cs).map (token :: ·) := by
  obtain ⟨numeral, spelled, _⟩ := Option.map_eq_some_iff.mp read
  obtain ⟨numeric, c, more, same, begins⟩ := numeric_of_ofChars? spelled
  rw [same] at read numeric ⊢
  exact scan?_numeral (start?_numeral begins) (List.forall_mem_cons.mp numeric).2 read ends

end Token

end Statechart.Json
