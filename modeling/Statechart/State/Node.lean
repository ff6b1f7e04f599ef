import Statechart.Text.Layout

set_option autoImplicit false

namespace Statechart

/-- The virtual root above the declared states. A machine sits in it until its first transition. -/
def rootName : String := "nok"

/-- The event that enters a machine or a compound state. -/
def initEvent : String := "init"

/-- The name under which rows without an event are filed. -/
def eventlessKey : String := ""

/-- A state with the states nested directly in it, in order. -/
structure StateNode where
  name : String
  children : List StateNode

namespace StateNode

instance : Inhabited StateNode := ⟨⟨"", []⟩⟩

mutual

def decEq : (a b : StateNode) → Decidable (a = b)
  | ⟨name, children⟩, ⟨name', children'⟩ =>
    if names : name = name' then match decEqForest children children' with
      | isTrue h => isTrue (names ▸ h ▸ rfl)
      | isFalse h => isFalse (fun same => h (StateNode.mk.inj same).2)
    else isFalse (fun same => names (StateNode.mk.inj same).1)

def decEqForest : (xs ys : List StateNode) → Decidable (xs = ys)
  | [], [] => isTrue rfl
  | [], _ :: _ => isFalse (fun h => nomatch h)
  | _ :: _, [] => isFalse (fun h => nomatch h)
  | x :: xs, y :: ys => match decEq x y, decEqForest xs ys with
    | isTrue h, isTrue h' => isTrue (h ▸ h' ▸ rfl)
    | isFalse h, _ => isFalse (fun same => h (List.cons.inj same).1)
    | _, isFalse h => isFalse (fun same => h (List.cons.inj same).2)

end

instance : DecidableEq StateNode := decEq

def atomic (name : String) : StateNode :=
  ⟨name, []⟩

def compound (name : String) (children : List StateNode) : StateNode :=
  ⟨name, children⟩

def isCompound (node : StateNode) : Bool :=
  !node.children.isEmpty

/-- The declared states under the virtual root. -/
def root (states : List StateNode) : StateNode :=
  compound rootName states

mutual

def declares (name : String) : StateNode → Bool
  | ⟨own, children⟩ => own = name || forestDeclares name children

def forestDeclares (name : String) : List StateNode → Bool
  | [] => false
  | node :: rest => declares name node || forestDeclares name rest

end

mutual

/-- How many levels a tree has. -/
def height : StateNode → Nat
  | ⟨_, children⟩ => forestHeight children + 1

def forestHeight : List StateNode → Nat
  | [] => 0
  | node :: rest => max (height node) (forestHeight rest)

end

mutual

def text : StateNode → String
  | ⟨name, children⟩ =>
    Text.record "StateNode" [("name", Text.quoted name),
      ("children", Text.list (forestTexts children))]

def forestTexts : List StateNode → List String
  | [] => []
  | node :: rest => text node :: forestTexts rest

end

/-- The same trees, with siblings in another order: neighbours may change places, at the top and
inside any tree. -/
inductive Rearranged : List StateNode → List StateNode → Prop where
  | nil : Rearranged [] []
  | cons (name : String) {inner otherInner rest otherRest : List StateNode}
    (below : Rearranged inner otherInner)
    (beside : Rearranged rest otherRest) :
    Rearranged (⟨name, inner⟩ :: rest) (⟨name, otherInner⟩ :: otherRest)
  | swap (first second : StateNode) (rest : List StateNode) :
    Rearranged (first :: second :: rest) (second :: first :: rest)
  | trans {first second third : List StateNode} (onward : Rearranged first second)
    (further : Rearranged second third) : Rearranged first third

end StateNode

end Statechart
