import Statechart.Decimal.Numeral
import Statechart.Json.Value

set_option autoImplicit false

namespace Statechart.Json

/-- A token: a mark of structure, or a scalar with its value. -/
inductive Token where
  | openArray
  | closeArray
  | openObject
  | closeObject
  | comma
  | colon
  | scalar (value : Json)
  deriving DecidableEq

namespace Token

def hexValue? (c : Char) : Option Nat :=
  if c.isDigit then some (c.toNat - '0'.toNat)
  else if 'a' ≤ c ∧ c ≤ 'f' then some (c.toNat - 'a'.toNat + 10)
  else if 'A' ≤ c ∧ c ≤ 'F' then some (c.toNat - 'A'.toNat + 10)
  else none

/-- A piece of a string: a character, or a code unit given by number. -/
inductive Piece where
  | char (c : Char)
  | unit (code : Nat)

def shortEscape? : Char → Option Char
  | '"' => some '"'
  | '\\' => some '\\'
  | '/' => some '/'
  | 'b' => some '\x08'
  | 'f' => some '\x0c'
  | 'n' => some '\n'
  | 'r' => some '\r'
  | 't' => some '\t'
  | _ => none

/-- The pieces between two quotation marks; a control must be escaped. -/
def pieces? : List Char → Option (List Piece)
  | [] => some []
  | '\\' :: 'u' :: a :: b :: c :: d :: rest => do
    let code := 4096 * (← hexValue? a) + 256 * (← hexValue? b) + 16 * (← hexValue? c) +
      (← hexValue? d)
    return .unit code :: (← pieces? rest)
  | '\\' :: e :: rest => do
    return .char (← shortEscape? e) :: (← pieces? rest)
  | c :: rest => do
    if c = '\\' ∨ c.toNat < 0x20 then none
    else return .char c :: (← pieces? rest)

/-- Joins pieces into characters: two units of a surrogate pair are one character, half a pair
is none. -/
def join? : List Piece → Option (List Char)
  | [] => some []
  | .unit high :: .unit low :: rest =>
    if 0xd800 ≤ high ∧ high < 0xdc00 then
      if 0xdc00 ≤ low ∧ low < 0xe000 then
        (join? rest).map (Char.ofNat (0x10000 + (high - 0xd800) * 0x400 + (low - 0xdc00)) :: ·)
      else none
    else if 0xdc00 ≤ high ∧ high < 0xe000 then none
    else (join? (.unit low :: rest)).map (Char.ofNat high :: ·)
  | .unit code :: rest =>
    if 0xd800 ≤ code ∧ code < 0xe000 then none else (join? rest).map (Char.ofNat code :: ·)
  | .char c :: rest => (join? rest).map (c :: ·)

/-- The token of a string, given what stands between its quotation marks. -/
def ofQuoted? (body : List Char) : Option Token :=
  (pieces? body).map (fun pieces => match join? pieces with
    | some chars => .scalar (.string (String.ofList chars))
    | none => .scalar .unreadable)

def ofNumeral? (cs : List Char) : Option Token :=
  (Numeral.ofChars? cs).map (fun numeral => match numeral.integer?, numeral.float? with
    | some n, _ => .scalar (.number (.integer n))
    | none, some x => .scalar (.number (.float x))
    | none, none => .scalar .unreadable)

def ofWord? (cs : List Char) : Option Token :=
  match String.ofList cs with
  | "null" => some (.scalar .null)
  | "true" => some (.scalar (.bool true))
  | "false" => some (.scalar (.bool false))
  | _ => none

def isNumeric (c : Char) : Bool :=
  c.isDigit || c = '-' || c = '+' || c = '.' || c = 'e' || c = 'E'

/-- What is being read: nothing, a string (its last characters first, and whether a backslash
stands before the next), a numeral, or a word. What a token denotes is settled when it ends. -/
inductive Mode where
  | between
  | quote (before : List Char) (escaped : Bool)
  | numeral (before : List Char)
  | word (before : List Char)

/-- Begins a token, or makes one of a mark; blanks are passed over. -/
def start? (c : Char) : Option (List Token × Mode) :=
  match c with
  | ' ' | '\n' | '\t' | '\r' => some ([], .between)
  | '[' => some ([.openArray], .between)
  | ']' => some ([.closeArray], .between)
  | '\x7b' => some ([.openObject], .between)
  | '\x7d' => some ([.closeObject], .between)
  | ',' => some ([.comma], .between)
  | ':' => some ([.colon], .between)
  | '"' => some ([], .quote [] false)
  | _ =>
    if c.isDigit ∨ c = '-' then some ([], .numeral [c])
    else if c.isLower then some ([], .word [c])
    else none

/-- The tokens that one more character completes, and what is read after it. -/
def next? (mode : Mode) (c : Char) : Option (List Token × Mode) :=
  match mode with
  | .between => start? c
  | .quote before true => some ([], .quote (c :: before) false)
  | .quote before false =>
    if c = '"' then (ofQuoted? before.reverse).map (fun token => ([token], .between))
    else some ([], .quote (c :: before) (c = '\\'))
  | .numeral before =>
    if isNumeric c then some ([], .numeral (c :: before))
    else do
      let token ← ofNumeral? before.reverse
      let (tokens, mode) ← start? c
      return (token :: tokens, mode)
  | .word before =>
    if c.isLower then some ([], .word (c :: before))
    else do
      let token ← ofWord? before.reverse
      let (tokens, mode) ← start? c
      return (token :: tokens, mode)

/-- The tokens of the rest of a text. -/
def scan? : Mode → List Char → Option (List Token)
  | .between, [] => some []
  | .quote _ _, [] => none
  | .numeral before, [] => (ofNumeral? before.reverse).map ([·])
  | .word before, [] => (ofWord? before.reverse).map ([·])
  | mode, c :: rest => do
    let (tokens, mode) ← next? mode c
    return tokens ++ (← scan? mode rest)

def ofChars? (cs : List Char) : Option (List Token) :=
  scan? .between cs

end Token

end Statechart.Json
