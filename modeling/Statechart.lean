import Statechart.Machine.Create
import Statechart.Json.Writer
import Statechart.State.Form
import Statechart.Trace.Record
import Statechart.Traversal.Graph
import Statechart.Proofs.Table
import Statechart.Proofs.State.Visits
import Statechart.Proofs.Indices.Ancestors
import Statechart.Proofs.History.Exit
import Statechart.Proofs.Contract.Battery
import Statechart.Proofs.Contract.Rules
import Statechart.Proofs.Contract.Accepted
import Statechart.Machine.Run
import Statechart.Proofs.Machine.Step
import Statechart.Proofs.Machine.Chain
import Statechart.Proofs.Machine.Run
import Statechart.Proofs.History.Replay
import Statechart.Proofs.Machine.Handler
import Statechart.Proofs.Machine.Rest
import Statechart.Proofs.Machine.Start
import Statechart.Proofs.Machine.Safety
import Statechart.Proofs.History.Run
import Statechart.Proofs.Indices.Places
import Statechart.Machine.WellFormed
import Statechart.Proofs.Contract.DeclarationRules
import Statechart.Proofs.Contract.HandlerRules
import Statechart.Proofs.Contract.WellFormed
import Statechart.Proofs.Machine.Taken
import Statechart.Proofs.History.Reentry
import Statechart.Proofs.Machine.Calls
import Statechart.Machine.Protocol
import Statechart.Proofs.Machine.Protocol
import Statechart.Proofs.Indices.Lineage
import Statechart.Machine.Lookup
import Statechart.Proofs.Machine.Lookup
import Statechart.Machine.MicroStep
import Statechart.Proofs.Machine.MicroStep
import Statechart.Proofs.Machine.Evaluation
import Statechart.Proofs.Machine.TransitionKinds
import Statechart.Proofs.History.SelfLoops
import Statechart.State.Node
import Statechart.Proofs.State.Rearranged
import Statechart.Machine.Life
import Statechart.Proofs.Contract.Rearranged
import Statechart.Proofs.Machine.Rearranged
import Statechart.Proofs.Machine.Life
import Statechart.Proofs.Machine.Answer
import Statechart.Proofs.Machine.Limit
import Statechart.Proofs.Machine.AtLimit
import Statechart.Proofs.Machine.InitDepth
import Statechart.Traversal.Place
import Statechart.Proofs.Traversal.Frontier
import Statechart.Proofs.Traversal.Paths
import Statechart.Proofs.Traversal.Orders
import Statechart.Proofs.State.Walks
import Statechart.Indices.Agreement
import Statechart.Proofs.Indices.Dotted
import Statechart.Proofs.Indices.Descendants
import Statechart.Proofs.Indices.Agreement
import Statechart.Indices.Exact
import Statechart.Proofs.Indices.Exact
import Statechart.Proofs.Indices.TablePass
import Statechart.Proofs.Machine.Tables
import Statechart.Machine.Entry
import Statechart.Proofs.Machine.Entry
import Statechart.Proofs.Machine.Stages
import Statechart.Model
import Statechart.Proofs.Action.Chaining
import Statechart.Machine.Failure
import Statechart.Proofs.Machine.Failure
import Statechart.Contract.Verdict
import Statechart.Proofs.Contract.Verdict
import Statechart.Proofs.Contract.Blame
import Statechart.Proofs.Contract.Offenders
import Statechart.Transition.Calls
import Statechart.Proofs.Transition.Draft
import Statechart.Event.Envelope
import Statechart.Proofs.Machine.Envelope
import Statechart.Proofs.Json.Form
import Statechart.Proofs.State.Form
import Statechart.Proofs.Json.RoundTrip
import Statechart.Machine.Definition
import Statechart.Proofs.Contract.HistoryReport
import Statechart.Proofs.History.Effect
import Statechart.Proofs.Text.Layout
import Statechart.Proofs.Decimal.Reading
import Statechart.Proofs.Json.Text
import Statechart.Proofs.Trace.Record
