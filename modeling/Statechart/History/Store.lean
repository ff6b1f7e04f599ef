import Statechart.Table
import Statechart.Text.Layout

set_option autoImplicit false

namespace Statechart

/-- Which descendant a reference to history means: the direct child, or the innermost state. -/
inductive HistoryMode where
  | shallow
  | deep
  deriving DecidableEq

/-- A reference to the history of a compound state. -/
structure HistoryTarget where
  mode : HistoryMode
  state : String
  deriving DecidableEq

/-- The last active descendants by compound state: the direct children, and the innermost states. -/
structure HistoryStore where
  shallow : Table String
  deep : Table String
  deriving DecidableEq

namespace HistoryMode

def name : HistoryMode → String
  | .shallow => "shallow"
  | .deep => "deep"

def text : HistoryMode → String
  | .shallow => "Shallow"
  | .deep => "Deep"

end HistoryMode

namespace HistoryTarget

/-- The short notation of a reference: `H(state)` or `H*(state)`. -/
def label (target : HistoryTarget) : String :=
  match target.mode with
  | .shallow => "H(" ++ target.state ++ ")"
  | .deep => "H*(" ++ target.state ++ ")"

def text (target : HistoryTarget) : String :=
  Text.record "HistoryTarget" [("mode", target.mode.text), ("state", Text.quoted target.state)]

end HistoryTarget

namespace HistoryStore

/-- The store of a machine that never left a state. -/
def empty : HistoryStore :=
  ⟨.empty, .empty⟩

/-- Goes up the ancestors: each one last held the state below it directly, and the state that
was left innermost. -/
def recordFrom (state : String) (store : HistoryStore) (child : String) : List String → HistoryStore
  | [] => store
  | ancestor :: above =>
    recordFrom state ⟨store.shallow.insert ancestor child, store.deep.insert ancestor state⟩
      ancestor above

/-- Records that a state was left, given the compound states around it from the innermost
outwards. -/
def recordExit (store : HistoryStore) (state : String) (ancestors : List String) : HistoryStore :=
  store.recordFrom state state ancestors

def ofMode (store : HistoryStore) : HistoryMode → Table String
  | .shallow => store.shallow
  | .deep => store.deep

def lastVisited (store : HistoryStore) (mode : HistoryMode) (state : String) : Option String :=
  (store.ofMode mode).find? state

/-- The state a reference stands for; where the compound state was never left, that state itself. -/
def resolve (store : HistoryStore) (target : HistoryTarget) : String :=
  (store.lastVisited target.mode target.state).getD target.state

def isEmpty (store : HistoryStore) : Bool :=
  store.shallow.isEmpty && store.deep.isEmpty

def tableText (table : Table String) : String :=
  Text.mapping (table.entries.map (fun entry => (entry.1, Text.quoted entry.2)))

def text (store : HistoryStore) : String :=
  Text.record "HistoryStore" [("shallow", tableText store.shallow), ("deep", tableText store.deep)]

theorem recordExit_nil (store : HistoryStore) (state : String) :
    store.recordExit state [] = store := rfl

example : (empty.recordExit "X" ["D", "C"]).resolve ⟨.shallow, "C"⟩ = "D" := by decide +kernel

example : (empty.recordExit "X" ["D", "C"]).resolve ⟨.deep, "C"⟩ = "X" := by decide +kernel

end HistoryStore

end Statechart
