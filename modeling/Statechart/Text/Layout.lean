import Statechart.Text.Seen

set_option autoImplicit false

namespace Statechart.Text

/-- The lower-case hexadecimal digits of a number, most significant first. -/
def hexDigits (n : Nat) : List Char :=
  Nat.toDigits 16 n

/-- What stands for one character between quotation marks: NUL, tab, line ends, the quotation
mark and the backslash have short forms, any other character without an appearance is named by
its code point, and the rest are written as they are. -/
def quoteChar (c : Char) : List Char :=
  if c = '\x00' then ['\\', '0']
  else if c = '\t' then ['\\', 't']
  else if c = '\r' then ['\\', 'r']
  else if c = '\n' then ['\\', 'n']
  else if c = '"' then ['\\', '"']
  else if c = '\\' then ['\\', '\\']
  else if isSeen c then [c]
  else ['\\', 'u', '\x7b'] ++ hexDigits c.toNat ++ ['\x7d']

def quoted (s : String) : String :=
  String.ofList ('"' :: s.toList.flatMap quoteChar ++ ['"'])

def list (items : List String) : String :=
  "[" ++ ", ".intercalate items ++ "]"

/-- A case with its contents between parentheses; a case without contents is its bare name. -/
def case (name : String) (contents : List String) : String :=
  if contents.isEmpty then name else name ++ "(" ++ ", ".intercalate contents ++ ")"

def record (name : String) (fields : List (String × String)) : String :=
  name ++ " \x7b " ++ ", ".intercalate (fields.map (fun field => field.1 ++ ": " ++ field.2)) ++
    " \x7d"

/-- A record of which some fields are left out, as two dots at the end say. -/
def partialRecord (name : String) (fields : List (String × String)) : String :=
  name ++ " \x7b " ++ ", ".intercalate (fields.map (fun field => field.1 ++ ": " ++ field.2)) ++
    ", .. \x7d"

/-- Bindings between braces; names are quoted. -/
def mapping (bindings : List (String × String)) : String :=
  "\x7b" ++ ", ".intercalate
    (bindings.map (fun binding => quoted binding.1 ++ ": " ++ binding.2)) ++ "\x7d"

def optional : Option String → String
  | none => "None"
  | some text => case "Some" [text]

def truth (b : Bool) : String :=
  if b then "true" else "false"

end Statechart.Text
