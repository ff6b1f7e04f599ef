import Statechart.Indices.Rows

set_option autoImplicit false

namespace Statechart

/-- What a table of tables holds under two names. -/
def Table.findNested? {β : Type} (table : Table (Table β)) (outer inner : String) : Option β :=
  (table.find? outer).bind (fun nested => nested.find? inner)

/-- A list of positions has exactly the chosen ones, each once and in ascending order. -/
structure Ascending (positions : List Nat) (chosen : Nat → Prop) : Prop where
  ordered : positions.Pairwise (· < ·)
  mem_iff : ∀ position, position ∈ positions ↔ chosen position

namespace RowTables

variable {M : Model}

/-- The row at a position is one of an origin on an event, where all rows without an event count
as on the empty one. -/
def Leaves (rows : List (Transition M)) (origin key : String) (position : Nat) : Prop :=
  ∃ row, rows[position]? = some row ∧ row.origin = origin ∧ row.eventKey = key

/-- The target at a flat position names a state. -/
def Names (tables : RowTables) (state : String) (index : Nat) : Prop :=
  ∃ entry, tables.flat[index]? = some entry ∧ entry.target.stateName = state

/-- The target at a flat position is the history of a state. -/
def NamesHistory (tables : RowTables) (state : String) (index : Nat) : Prop :=
  ∃ entry, tables.flat[index]? = some entry ∧ entry.target.isHistory = true ∧
    entry.target.stateName = state

/-- One target of a row comes before another: its row does, or both are in one row and it does
there. -/
def FlatBefore (first second : FlatTransition) : Prop :=
  first.row < second.row ∨ first.row = second.row ∧ first.position < second.position

/-- The tables say all there is to say about a list of rows, and nothing else. -/
structure Exact (rows : List (Transition M)) (tables : RowTables) : Prop where
  shapes : ∀ position : Nat, tables.shapes[position]? = rows[position]?.map shapeOf
  flatOrder : tables.flat.Pairwise FlatBefore
  flat : ∀ entry, entry ∈ tables.flat ↔ ∃ row guarded, rows[entry.row]? = some row ∧
    row.targets[entry.position]? = some guarded ∧
      entry = ⟨entry.row, entry.position, row.origin, row.event,
      guarded.guard.map Guard.name, guarded.target, guarded.action.name⟩
  /-- The rows of an origin on an event are kept if there are any. -/
  byOrigin : ∀ origin, origin ≠ rootName → ∀ key listed,
    tables.byOrigin.findNested? origin key = some listed ↔
    listed ≠ [] ∧ Ascending listed (Leaves rows origin key)
  /-- The first of them is kept besides. -/
  first : ∀ origin key position, tables.firstByOrigin.findNested? origin key = some position ↔
    ∃ rest, tables.byOrigin.findNested? origin key = some (position :: rest)
  /-- It is the row that is looked up. -/
  lookup : ∀ origin key, tables.ownHandler origin key = tables.firstByOrigin.findNested? origin key
  /-- The same rows are kept by the event and then the origin. -/
  byEvent : ∀ origin key, tables.byEvent.findNested? key origin =
    tables.byOrigin.findNested? origin key
  originFilled : ∀ origin events, tables.byOrigin.find? origin = some events →
    ∃ key listed, events.find? key = some listed
  firstFilled : ∀ origin events, tables.firstByOrigin.find? origin = some events →
    ∃ key position, events.find? key = some position
  eventFilled : ∀ key origins, tables.byEvent.find? key = some origins →
    ∃ origin listed, origins.find? origin = some listed
  notFromRoot : tables.byOrigin.find? rootName = none ∧ tables.firstByOrigin.find? rootName = none ∧
    ∀ key, tables.byEvent.findNested? key rootName = none
  starts : Ascending tables.startRows (fun position =>
    ∃ row, rows[position]? = some row ∧ row.origin = rootName ∧ row.event = some initEvent)
  targets : ∀ state listed, tables.targets.find? state = some listed ↔
    listed ≠ [] ∧ Ascending listed (tables.Names state)
  /-- Every flat position is kept under one state. -/
  partition : ∀ index, index < tables.flat.length →
    ∃ state listed, tables.targets.find? state = some listed ∧ index ∈ listed ∧
      ∀ other others, tables.targets.find? other = some others → index ∈ others → other = state
  historyTargets : ∀ state listed, tables.historyTargets.find? state = some listed ↔
    listed ≠ [] ∧ Ascending listed (tables.NamesHistory state)
  /-- Those of history are among those of a state, in the same order. -/
  restricted : ∀ state, (tables.historyTargets.find? state).getD []
    = ((tables.targets.find? state).getD []).filter
      (fun index => tables.flat[index]?.any (fun entry => entry.target.isHistory))

/-- No table refers to a row beyond so many or to a flat position beyond those there are. -/
structure InRange (tables : RowTables) (count : Nat) : Prop where
  shapes : tables.shapes.length = count
  flat : ∀ entry ∈ tables.flat, entry.row < count
  byOrigin : ∀ origin key listed, tables.byOrigin.findNested? origin key = some listed →
    ∀ row ∈ listed, row < count
  first : ∀ origin key row, tables.firstByOrigin.findNested? origin key = some row → row < count
  byEvent : ∀ key origin listed, tables.byEvent.findNested? key origin = some listed →
    ∀ row ∈ listed, row < count
  starts : ∀ row ∈ tables.startRows, row < count
  targets : ∀ state listed, tables.targets.find? state = some listed →
    ∀ index ∈ listed, index < tables.flat.length
  historyTargets : ∀ state listed, tables.historyTargets.find? state = some listed →
    ∀ index ∈ listed, index < tables.flat.length

end RowTables

/-- The tables as one pass over the rows fills them, that of the first rows by itself. -/
structure TablePass where
  tables : RowTables
  first : Table (Table Nat)

namespace TablePass

variable {M : Model}

def empty : TablePass :=
  ⟨⟨[], [], .empty, .empty, .empty, .empty, []⟩, .empty⟩

def push {β : Type} (table : Table (List β)) (name : String) (value : β) : Table (List β) :=
  table.alter name (fun before => before.getD [] ++ [value])

/-- Appends a value to those kept under two names. -/
def pushNested {β : Type} (table : Table (Table (List β))) (outer inner : String) (value : β) :
    Table (Table (List β)) :=
  table.alter outer (fun nested => push (nested.getD .empty) inner value)

/-- Keeps a value under two names unless one is kept already. -/
def keepFirst {β : Type} (table : Table (Table β)) (outer inner : String) (value : β) :
    Table (Table β) :=
  table.alter outer (fun nested => (nested.getD .empty).alter inner (fun kept => kept.getD value))

/-- Adds a target; its flat position is the number of those before it. -/
def addFlat (tables : RowTables) (entry : FlatTransition) : RowTables :=
  { tables with
    flat := tables.flat ++ [entry]
    targets := push tables.targets entry.target.stateName tables.flat.length
    historyTargets :=
      if entry.target.isHistory then
        push tables.historyTargets entry.target.stateName tables.flat.length
      else tables.historyTargets }

def addTargets (tables : RowTables) (row : Transition M) (index : Nat) : RowTables :=
  (RowTables.flatten row index).foldl addFlat
    { tables with shapes := tables.shapes ++ [RowTables.shapeOf row] }

/-- Files a row under its origin and event. A row from the root is filed nowhere, but it may
start the machine. -/
def fileRow (pass : TablePass) (row : Transition M) (index : Nat) : TablePass :=
  if row.origin = rootName then
    if row.eventKey = initEvent then
      { pass with tables := { pass.tables with startRows := pass.tables.startRows ++ [index] } }
    else pass
  else
    { tables := { pass.tables with
        byOrigin := pushNested pass.tables.byOrigin row.origin row.eventKey index
        byEvent := pushNested pass.tables.byEvent row.eventKey row.origin index }
      first := keepFirst pass.first row.origin row.eventKey index }

def addRow (pass : TablePass) (item : Transition M × Nat) : TablePass :=
  fileRow { pass with tables := addTargets pass.tables item.1 item.2 } item.1 item.2

def ofRows (rows : List (Transition M)) : TablePass :=
  rows.zipIdx.foldl addRow empty

end TablePass

end Statechart
