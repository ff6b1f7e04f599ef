import Statechart.Table
import Statechart.Transition.Row

set_option autoImplicit false

namespace Statechart

/-- What a row looks like from outside: how many targets it has, and how many of them are
unconditional. -/
structure RowShape where
  origin : String
  event : Option String
  targets : Nat
  unguarded : Nat
  deriving DecidableEq

/-- One target of one row, with its place in both. -/
structure FlatTransition where
  row : Nat
  position : Nat
  origin : String
  event : Option String
  guard : Option String
  target : Target
  action : String
  deriving DecidableEq

/-- The tables of a list of rows, which are known by their positions. Rows from the virtual root
are kept apart: they start the machine and are never looked up. -/
structure RowTables where
  /-- The shape of each row. -/
  shapes : List RowShape
  /-- All targets of all rows, in order. -/
  flat : List FlatTransition
  /-- The rows of an origin on an event. -/
  byOrigin : Table (Table (List Nat))
  /-- The rows on an event from an origin. -/
  byEvent : Table (Table (List Nat))
  /-- The flat positions that lead to the history of a state. -/
  historyTargets : Table (List Nat)
  /-- The flat positions that lead to a state or its history. -/
  targets : Table (List Nat)
  /-- The rows that start the machine. -/
  startRows : List Nat
  deriving DecidableEq

namespace RowTables

variable {M : Model}

def shapeOf (row : Transition M) : RowShape :=
  ⟨row.origin, row.event, row.targets.length,
    (row.targets.filter (fun guarded => guarded.guard.isNone)).length⟩

def flatten (row : Transition M) (index : Nat) : List FlatTransition :=
  row.targets.zipIdx.map (fun item =>
    ⟨index, item.2, row.origin, row.event, item.1.guard.map Guard.name, item.1.target,
      item.1.action.name⟩)

def flatOf (rows : List (Transition M)) : List FlatTransition :=
  rows.zipIdx.flatMap (fun item => flatten item.1 item.2)

/-- The origin, event and position of each row that is looked up. -/
def filed (rows : List (Transition M)) : List (String × String × Nat) :=
  (rows.zipIdx.filter (fun item => item.1.origin ≠ rootName)).map
    (fun item => (item.1.origin, item.1.eventKey, item.2))

/-- The rows of each origin on each event. -/
def byOriginOf (rows : List (Transition M)) : Table (Table (List Nat)) :=
  (Table.group ((filed rows).map (fun item => (item.1, item.2.1, item.2.2)))).map Table.group

/-- The rows on each event from each origin. -/
def byEventOf (rows : List (Transition M)) : Table (Table (List Nat)) :=
  (Table.group ((filed rows).map (fun item => (item.2.1, item.1, item.2.2)))).map Table.group

/-- The flat positions of each state that a target names. -/
def targetsOf (flat : List FlatTransition) : Table (List Nat) :=
  .group (flat.zipIdx.map (fun item => (item.1.target.stateName, item.2)))

/-- The flat positions of each state that a reference to history names. -/
def historyTargetsOf (flat : List FlatTransition) : Table (List Nat) :=
  .group ((flat.zipIdx.filter (fun item => item.1.target.isHistory)).map
    (fun item => (item.1.target.stateName, item.2)))

/-- The positions of the rows that start the machine. -/
def startRowsOf (rows : List (Transition M)) : List Nat :=
  (rows.zipIdx.filter (fun item => item.1.isStart)).map Prod.snd

def ofRows (rows : List (Transition M)) : RowTables where
  shapes := rows.map shapeOf
  flat := flatOf rows
  byOrigin := byOriginOf rows
  byEvent := byEventOf rows
  historyTargets := historyTargetsOf (flatOf rows)
  targets := targetsOf (flatOf rows)
  startRows := startRowsOf rows

def rowsOn (tables : RowTables) (origin event : String) : List Nat :=
  ((tables.byOrigin.find? origin).bind (fun events => events.find? event)).getD []

def firstByOrigin (tables : RowTables) : Table (Table Nat) :=
  tables.byOrigin.map (fun events => events.map (fun rows => rows.headD 0))

/-- The first row of an origin itself on an event. -/
def ownHandler (tables : RowTables) (origin event : String) : Option Nat :=
  (tables.rowsOn origin event).head?

end RowTables

end Statechart
