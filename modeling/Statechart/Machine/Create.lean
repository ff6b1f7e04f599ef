import Statechart.Machine.Dispatch

set_option autoImplicit false

namespace Statechart

/-- What creating a machine comes to: the machine or the reason there is none, and the reports
made. -/
structure Creation (M : Model) where
  result : Except (BuildError M) (Machine M)
  reports : List TraceKind

namespace Machine

variable {M : Model}

/-- The machine of a definition before its first step. -/
def unstarted (definition : MachineDefinition M) (settings : Settings) : Machine M where
  settings := settings
  transitions := definition.rows
  reducer := definition.reducer
  indices := definition.indices
  runtime := ⟨rootName, definition.initialExt, .empty⟩
  initialOutputs := []

def creationReport (machine : Machine M) : TraceKind :=
  .machineCreated machine.indices.hierarchy.declaredCount machine.indices.tables.flat.length

def start (machine : Machine M) : Creation M :=
  let run := machine.dispatch ⟨initEvent, M.noData⟩
  let reports := machine.creationReport :: run.reports
  match run.result with
  | .ok outcome => ⟨.ok { run.machine with initialOutputs := outcome.outputs?.getD [] }, reports⟩
  | .error error => ⟨.error (.initialization error), reports⟩

/-- Checks a definition with the battery, if the settings ask for it. -/
def check (definition : MachineDefinition M) (settings : Settings) : Except ContractError Unit :=
  if settings.debug.checkContracts then
    Contract.checkAll (definition.context settings) Contract.battery else .ok ()

/-- The definition is indexed, checked if the settings ask for it, and started. A machine that
was created has already settled. -/
def create (definition : MachineDefinition M) (settings : Settings) : Creation M :=
  match check definition settings with
  | .error error => ⟨.error (.contracts error), []⟩
  | .ok () =>
    if definition.indices.tables.startRows = [] then ⟨.error .missingInitialTransition, []⟩
    else (unstarted definition settings).start

end Machine

namespace MachineDraft

variable {M : Model}

def build (draft : MachineDraft M) (settings : Settings) : Creation M :=
  match draft.definition with
  | .ok definition => Machine.create definition settings
  | .error error => ⟨.error error, []⟩

end MachineDraft

end Statechart
