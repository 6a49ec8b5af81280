import Switchboard.Activity
import Switchboard.Container.Cascade
import Switchboard.Container.Component
import Switchboard.Container.Custody
import Switchboard.Container.Dispatch
import Switchboard.Container.Fault
import Switchboard.Container.Handlers
import Switchboard.Container.Instances
import Switchboard.Container.Ownership
import Switchboard.Container.Store
import Switchboard.Container.Tree
import Switchboard.Directory
import Switchboard.Exporter
import Switchboard.Handler.Class
import Switchboard.Handler.Hook
import Switchboard.Handler.Registration
import Switchboard.Instancing
import Switchboard.Json.Compact
import Switchboard.Json.Number
import Switchboard.Json.Record
import Switchboard.Json.Value
import Switchboard.Keyed
import Switchboard.Lifecycle.Board
import Switchboard.Lifecycle.Phases
import Switchboard.Lifecycle.Polling
import Switchboard.Lifecycle.State
import Switchboard.Meter
import Switchboard.Number.Double
import Switchboard.Number.Literal
import Switchboard.Number.Notation
import Switchboard.Number.Shortest
import Switchboard.Number.Width
import Switchboard.Params
import Switchboard.Payload.Basic
import Switchboard.Payload.Tag
import Switchboard.Proofs.Accounting
import Switchboard.Proofs.Acts
import Switchboard.Proofs.Arguments
import Switchboard.Proofs.Binding
import Switchboard.Proofs.Board
import Switchboard.Proofs.Building
import Switchboard.Proofs.Canonical
import Switchboard.Proofs.Cascades
import Switchboard.Proofs.Charges
import Switchboard.Proofs.Completion
import Switchboard.Proofs.ContextLedger
import Switchboard.Proofs.Custodies
import Switchboard.Proofs.Defaults
import Switchboard.Proofs.Delivery
import Switchboard.Proofs.Desks
import Switchboard.Proofs.Faults
import Switchboard.Proofs.Frames
import Switchboard.Proofs.Guards
import Switchboard.Proofs.Housing
import Switchboard.Proofs.Influence
import Switchboard.Proofs.Integers
import Switchboard.Proofs.Ledger
import Switchboard.Proofs.Listening
import Switchboard.Proofs.Metering
import Switchboard.Proofs.Metrics
import Switchboard.Proofs.Mirroring
import Switchboard.Proofs.Outcomes
import Switchboard.Proofs.PhaseRuns
import Switchboard.Proofs.Planning
import Switchboard.Proofs.Polling
import Switchboard.Proofs.Precedence
import Switchboard.Proofs.Prototypes
import Switchboard.Proofs.Rebuffs
import Switchboard.Proofs.Records
import Switchboard.Proofs.Registries
import Switchboard.Proofs.Relay
import Switchboard.Proofs.Requests
import Switchboard.Proofs.Restriction
import Switchboard.Proofs.Routing
import Switchboard.Proofs.Runs
import Switchboard.Proofs.Scripts
import Switchboard.Proofs.Sharing
import Switchboard.Proofs.Shutdown
import Switchboard.Proofs.Signatures
import Switchboard.Proofs.Snapshots
import Switchboard.Proofs.Subtypes
import Switchboard.Proofs.Tasks
import Switchboard.Proofs.Teardown
import Switchboard.Proofs.Traces
import Switchboard.Proofs.Transfer
import Switchboard.Proofs.Transitions
import Switchboard.Proofs.Uniformity
import Switchboard.Proofs.Validation
import Switchboard.Proofs.Walks
import Switchboard.Report.Fault
import Switchboard.Report.Portrait
import Switchboard.Report.Remote
import Switchboard.Roster
import Switchboard.Rpc.Conversion
import Switchboard.Rpc.Descriptor
import Switchboard.Rpc.Endpoint
import Switchboard.Rpc.Fault
import Switchboard.Rpc.Implementation
import Switchboard.Rpc.Interface
import Switchboard.Rpc.Validation
import Switchboard.Rpc.ValueType
import Switchboard.Schedule
import Switchboard.Settings
import Switchboard.Text.Blank
import Switchboard.Toml.Document
import Switchboard.Toml.Moment
import Switchboard.Toml.Number
import Switchboard.Toml.Quoted
import Switchboard.Toml.Table
import Switchboard.Toml.Value
import Switchboard.Topology.Basic
import Switchboard.Topology.Building
import Switchboard.Topology.Document
import Switchboard.Topology.Plan
import Switchboard.Topology.Record
import Switchboard.Trial.Component
import Switchboard.Trial.Console.Basic
import Switchboard.Trial.Console.Command
import Switchboard.Trial.Console.Components
import Switchboard.Trial.Console.Handlers
import Switchboard.Trial.Console.Loans
import Switchboard.Trial.Console.Records
import Switchboard.Trial.Custody
import Switchboard.Trial.Expectation
import Switchboard.Trial.Fixtures
import Switchboard.Trial.Portrait
import Switchboard.Trial.SampleTypes
import Switchboard.Trial.Service
