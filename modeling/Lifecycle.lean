import Lifecycle.Decimal.Double
import Lifecycle.Decimal.Shortest
import Lifecycle.Engine.Definitions
import Lifecycle.Engine.Fault
import Lifecycle.Engine.Handling
import Lifecycle.Engine.Records
import Lifecycle.Engine.Report
import Lifecycle.Engine.Request
import Lifecycle.Engine.Timeouts
import Lifecycle.Engine.Triggers
import Lifecycle.Engine.Walk
import Lifecycle.Execution.Context
import Lifecycle.Execution.Record
import Lifecycle.Host.Cluster
import Lifecycle.Host.Site
import Lifecycle.Host.Startup
import Lifecycle.Host.Worker
import Lifecycle.Http.Exchange
import Lifecycle.Http.MediaType
import Lifecycle.Http.Refusal
import Lifecycle.Http.RequestTarget
import Lifecycle.Json.Basic
import Lifecycle.Json.Decode
import Lifecycle.Json.Draft
import Lifecycle.Json.Fault
import Lifecycle.Json.Printer
import Lifecycle.Json.Record
import Lifecycle.Mail.Message
import Lifecycle.Mail.Template
import Lifecycle.Program
import Lifecycle.Settings
import Lifecycle.Store.Cell
import Lifecycle.Store.Database
import Lifecycle.Store.Definitions
import Lifecycle.Store.Edit
import Lifecycle.Store.Executions
import Lifecycle.Store.Fault
import Lifecycle.Store.Lexeme
import Lifecycle.Store.Row
import Lifecycle.Store.Statement
import Lifecycle.Store.Tokens
import Lifecycle.Target.Call
import Lifecycle.Target.HostTable
import Lifecycle.Target.Memory
import Lifecycle.Text.Ascii
import Lifecycle.Text.Blank
import Lifecycle.Text.Composed
import Lifecycle.Text.Composite
import Lifecycle.Text.Direction
import Lifecycle.Text.Integer
import Lifecycle.Text.Invisible
import Lifecycle.Text.Joining
import Lifecycle.Text.Mark
import Lifecycle.Text.Packed
import Lifecycle.Text.Percent
import Lifecycle.Text.Quoted
import Lifecycle.Text.Runs
import Lifecycle.Time.Calendar
import Lifecycle.Time.Instant
import Lifecycle.Time.Span
import Lifecycle.Url.Address
import Lifecycle.Url.Basic
import Lifecycle.Url.Domain
import Lifecycle.Url.Fault
import Lifecycle.Url.Host
import Lifecycle.Url.LabelCode
import Lifecycle.Url.Mapping
import Lifecycle.Url.Parser
import Lifecycle.Web.Reply
import Lifecycle.Web.Route
import Lifecycle.Workflow.Definition
import Lifecycle.Workflow.Graph
import Lifecycle.Workflow.Kind
import Lifecycle.Workflow.Names
import Lifecycle.Workflow.Trigger
import Lifecycle.Proofs.Ascending
import Lifecycle.Proofs.Concurrent.Contexts
import Lifecycle.Proofs.Concurrent.Custody
import Lifecycle.Proofs.Concurrent.Deadlines
import Lifecycle.Proofs.Concurrent.Duties
import Lifecycle.Proofs.Concurrent.Effects
import Lifecycle.Proofs.Concurrent.Entering
import Lifecycle.Proofs.Concurrent.Forward
import Lifecycle.Proofs.Concurrent.Identifiers
import Lifecycle.Proofs.Concurrent.Ledger
import Lifecycle.Proofs.Concurrent.Lookups
import Lifecycle.Proofs.Concurrent.Outcomes
import Lifecycle.Proofs.Concurrent.Ownership
import Lifecycle.Proofs.Concurrent.Pool
import Lifecycle.Proofs.Concurrent.Recounting
import Lifecycle.Proofs.Concurrent.Routes
import Lifecycle.Proofs.Concurrent.RunOnce
import Lifecycle.Proofs.Concurrent.Suspension
import Lifecycle.Proofs.Concurrent.Walking
import Lifecycle.Proofs.Concurrent.Writing
import Lifecycle.Proofs.Engine.Course
import Lifecycle.Proofs.Engine.Handling
import Lifecycle.Proofs.Engine.Lookups
import Lifecycle.Proofs.Engine.Operations
import Lifecycle.Proofs.Engine.Outcomes
import Lifecycle.Proofs.Engine.Renaming
import Lifecycle.Proofs.Engine.Replies
import Lifecycle.Proofs.Engine.Sweeping
import Lifecycle.Proofs.Engine.Walk
import Lifecycle.Proofs.Execution.Context
import Lifecycle.Proofs.Host.Abreast
import Lifecycle.Proofs.Host.Activation
import Lifecycle.Proofs.Host.Additions
import Lifecycle.Proofs.Host.Caches
import Lifecycle.Proofs.Host.Chronicle
import Lifecycle.Proofs.Host.Cluster
import Lifecycle.Proofs.Host.Commuting
import Lifecycle.Proofs.Host.Delays
import Lifecycle.Proofs.Host.Draining
import Lifecycle.Proofs.Host.Elapsing
import Lifecycle.Proofs.Host.Frame
import Lifecycle.Proofs.Host.Holdings
import Lifecycle.Proofs.Host.Keeping
import Lifecycle.Proofs.Host.Likeness
import Lifecycle.Proofs.Host.Listing
import Lifecycle.Proofs.Host.Lockstep
import Lifecycle.Proofs.Host.Outline
import Lifecycle.Proofs.Host.Queries
import Lifecycle.Proofs.Host.Records
import Lifecycle.Proofs.Host.Refreshing
import Lifecycle.Proofs.Host.Registry
import Lifecycle.Proofs.Host.Resuming
import Lifecycle.Proofs.Host.Scanning
import Lifecycle.Proofs.Host.Site
import Lifecycle.Proofs.Host.Starting
import Lifecycle.Proofs.Host.Steady
import Lifecycle.Proofs.Host.Storage
import Lifecycle.Proofs.Host.Suspending
import Lifecycle.Proofs.Host.Sweeping
import Lifecycle.Proofs.Host.Twins
import Lifecycle.Proofs.Json.Drafts
import Lifecycle.Proofs.Json.Members
import Lifecycle.Proofs.Json.Ranges
import Lifecycle.Proofs.Json.Readings
import Lifecycle.Proofs.Json.Records
import Lifecycle.Proofs.Json.Renaming
import Lifecycle.Proofs.Json.RoundTrip
import Lifecycle.Proofs.Json.Scalars
import Lifecycle.Proofs.Json.Strictness
import Lifecycle.Proofs.Keyed
import Lifecycle.Proofs.Mail.Renaming
import Lifecycle.Proofs.Mail.Template
import Lifecycle.Proofs.Program.Protocol
import Lifecycle.Proofs.Program.Replies
import Lifecycle.Proofs.Results
import Lifecycle.Proofs.Sequential.Jobs
import Lifecycle.Proofs.Sequential.Runs
import Lifecycle.Proofs.Sequential.Transparency
import Lifecycle.Proofs.Store.Backlog
import Lifecycle.Proofs.Store.Definitions
import Lifecycle.Proofs.Store.Executions
import Lifecycle.Proofs.Store.Forward
import Lifecycle.Proofs.Store.Records
import Lifecycle.Proofs.Store.Renaming
import Lifecycle.Proofs.Store.Rows
import Lifecycle.Proofs.Store.Statements
import Lifecycle.Proofs.Store.Tokens
import Lifecycle.Proofs.Store.Transactions
import Lifecycle.Proofs.Target.Agreement
import Lifecycle.Proofs.Target.Columns
import Lifecycle.Proofs.Target.Finding
import Lifecycle.Proofs.Target.Holdings
import Lifecycle.Proofs.Target.Outline
import Lifecycle.Proofs.Time.Instant
import Lifecycle.Proofs.Time.Span
import Lifecycle.Proofs.Web.Administration
import Lifecycle.Proofs.Web.Clients
import Lifecycle.Proofs.Workflow.Canonical
import Lifecycle.Proofs.Workflow.Configurations
import Lifecycle.Proofs.Workflow.Diagnosis
import Lifecycle.Proofs.Workflow.Graph
import Lifecycle.Proofs.Workflow.Search
import Lifecycle.Proofs.Workflow.Shape
import Lifecycle.Proofs.Workflow.Storage
import Lifecycle.Proofs.Workflow.Trigger
