import Statechart.Json.Token

set_option autoImplicit false

namespace Statechart.Json

/-- How many containers may be open at once; what is nested deeper is read as unreadable. -/
def maxNesting : Nat := 127

/-- An open container with what it holds so far, last first. The name in an object belongs to
the value being read. -/
inductive Frame where
  | array (before : List Json)
  | object (before : List (String × Json)) (spoilt : Bool) (name : Option String)

/-- What may follow. -/
inductive Phase where
  | value
  | itemOrClose
  | fieldOrClose
  | field
  | colon
  | commaOrClose
  | done (value : Json)

/-- The open containers, innermost first, and what may follow. A text of any shape is read in
one pass against this stack. -/
structure Reader where
  frames : List Frame
  phase : Phase

namespace Reader

/-- Hands a finished value to the innermost open container, or to the caller when none is open. -/
def give (frames : List Frame) (value : Json) : Reader :=
  match frames with
  | [] => ⟨[], .done value⟩
  | .array before :: outer => ⟨.array (value :: before) :: outer, .commaOrClose⟩
  | .object before _ none :: outer => ⟨.object before true none :: outer, .commaOrClose⟩
  | .object before spoilt (some name) :: outer =>
    ⟨.object ((name, value) :: before) spoilt none :: outer, .commaOrClose⟩

/-- Closes a container, given how many are open around it. -/
def close (outer : List Frame) (value : Json) : Reader :=
  give outer (if outer.length < maxNesting then value else .unreadable)

def value? (frames : List Frame) : Token → Option Reader
  | .scalar value => some (give frames value)
  | .openArray => some ⟨.array [] :: frames, .itemOrClose⟩
  | .openObject => some ⟨.object [] false none :: frames, .fieldOrClose⟩
  | _ => none

def field? (before : List (String × Json)) (spoilt : Bool) (outer : List Frame) :
    Token → Option Reader
  | .scalar (.string name) => some ⟨.object before spoilt (some name) :: outer, .colon⟩
  | .scalar .unreadable => some ⟨.object before true none :: outer, .colon⟩
  | _ => none

def close? : List Frame → Token → Option Reader
  | .array before :: outer, .closeArray => some (close outer (.array before.reverse))
  | .object before spoilt _ :: outer, .closeObject =>
    some (close outer (if spoilt then .unreadable else .object before.reverse))
  | _, _ => none

def next? (reader : Reader) (token : Token) : Option Reader :=
  match reader.phase, reader.frames with
  | .value, frames => value? frames token
  | .itemOrClose, frames => (close? frames token).or (value? frames token)
  | .fieldOrClose, .object before spoilt name :: outer =>
    (close? (.object before spoilt name :: outer) token).or (field? before spoilt outer token)
  | .field, .object before spoilt _ :: outer => field? before spoilt outer token
  | .colon, frames => if token = .colon then some ⟨frames, .value⟩ else none
  | .commaOrClose, frames =>
    match token, frames with
    | .comma, .array _ :: _ => some ⟨frames, .value⟩
    | .comma, .object _ _ _ :: _ => some ⟨frames, .field⟩
    | token, frames => close? frames token
  | _, _ => none

end Reader

/-- The value that a whole text spells. -/
def ofText? (text : String) : Option Json := do
  let tokens ← Token.ofChars? text.toList
  match (← tokens.foldlM Reader.next? ⟨[], .value⟩).phase with
  | .done value => some value
  | _ => none

end Statechart.Json
