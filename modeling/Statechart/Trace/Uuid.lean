import Statechart.Json.Token

set_option autoImplicit false

namespace Statechart

/-- An identifier of 128 bits. -/
structure Uuid where
  bits : BitVec 128
  deriving DecidableEq

namespace Uuid

/-- The number that hexadecimal digits of either case write. -/
def hexNumber? (cs : List Char) : Option Nat :=
  cs.foldlM (fun n c => (Json.Token.hexValue? c).map (16 * n + ·)) 0

/-- The identifier of 32 digits in five groups, joined by hyphens. -/
def ofGroups? (cs : List Char) : Option Uuid :=
  if cs.length = 36 ∧ [8, 13, 18, 23].all (fun place => cs[place]? = some '-') then
    let digits := cs.take 8 ++ (cs.drop 9).take 4 ++ (cs.drop 14).take 4 ++ (cs.drop 19).take 4 ++
      cs.drop 24
    (hexNumber? digits).map (fun n => ⟨BitVec.ofNat 128 n⟩)
  else none

/-- The identifier that a text spells: the digits alone, or in groups, these also in braces or
as a URN, whose prefix may be of either case. -/
def ofText? (text : String) : Option Uuid :=
  let cs := text.toList
  if cs.length = 32 then (hexNumber? cs).map (fun n => ⟨BitVec.ofNat 128 n⟩)
  else if cs.length = 36 then ofGroups? cs
  else if cs.length = 38 ∧ cs.head? = some '\x7b' ∧ cs.getLast? = some '\x7d' then
    ofGroups? (cs.drop 1).dropLast
  else if (cs.take 9).map Char.toLower = "urn:uuid:".toList then ofGroups? (cs.drop 9)
  else none

/-- The digits of an identifier, in lower case and in groups. -/
def text (id : Uuid) : String :=
  let digits := (List.range 32).map
    (fun place => Nat.digitChar (id.bits.toNat / Nat.pow 16 (31 - place) % 16))
  String.ofList (digits.take 8 ++ '-' :: (digits.drop 8).take 4 ++ '-' :: (digits.drop 12).take 4
    ++ '-' :: (digits.drop 16).take 4 ++ '-' :: digits.drop 20)

end Uuid

end Statechart
