import Statechart.Text.Layout

set_option autoImplicit false

namespace Statechart

/-- Where a frontier takes new nodes. -/
inductive Discipline where
  | queue
  | stack
  deriving DecidableEq

/-- Pending nodes, the next one to leave first. -/
structure Frontier (α : Type) where
  discipline : Discipline
  items : List α

namespace Frontier

variable {α : Type}

def empty (discipline : Discipline) : Frontier α :=
  ⟨discipline, []⟩

/-- Adds siblings, given in tree order. -/
def pushAll (frontier : Frontier α) (siblings : List α) : Frontier α :=
  match frontier.discipline with
  | .queue => { frontier with items := frontier.items ++ siblings }
  | .stack => { frontier with items := siblings ++ frontier.items }

def push (frontier : Frontier α) (item : α) : Frontier α :=
  frontier.pushAll [item]

def pop? (frontier : Frontier α) : Option (α × Frontier α) :=
  match frontier.items with
  | [] => none
  | item :: rest => some (item, { frontier with items := rest })

/-- A frontier as it is shown: a queue front first, a stack with its top last. -/
def text (itemText : α → String) (frontier : Frontier α) : String :=
  match frontier.discipline with
  | .queue => Text.case "Queue" [Text.list (frontier.items.map itemText)]
  | .stack => Text.case "Stack" [Text.list (frontier.items.reverse.map itemText)]

theorem length_flatMap_pushAll {β : Type} (frontier : Frontier α) (siblings : List α)
    (parts : α → List β) : ((frontier.pushAll siblings).items.flatMap parts).length
      = (siblings.flatMap parts).length + (frontier.items.flatMap parts).length := by
  unfold pushAll
  split
  · rw [List.flatMap_append, List.length_append, Nat.add_comm]
  · rw [List.flatMap_append, List.length_append]

end Frontier

end Statechart
