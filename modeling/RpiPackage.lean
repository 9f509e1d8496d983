import RpiPackage.Lib.Decimal
import RpiPackage.Lib.Json
import RpiPackage.Lib.Serde
import RpiPackage.Lib.Rust
import RpiPackage.Lib.AnchoredLog
import RpiPackage.Lib.Run
import RpiPackage.Lib.FrameStack
import RpiPackage.Lib.Lines
import RpiPackage.Lib.Numbered
import RpiPackage.Lib.Rising
import RpiPackage.Lib.Assoc
import RpiPackage.Lib.Paging
import RpiPackage.Durable.State
import RpiPackage.Durable.Journal
import RpiPackage.Durable.Valid
import RpiPackage.Durable.Action
import RpiPackage.Durable.Commit
import RpiPackage.Durable.Replay
import RpiPackage.Durable.Transition
import RpiPackage.Durable.RoundTrip
import RpiPackage.Durable.Session
import RpiPackage.Durable.Accepted
import RpiPackage.Durable.Core
import RpiPackage.Durable.Readers
import RpiPackage.Durable.FailClosed
import RpiPackage.Durable.Store
import RpiPackage.Durable.Clients
import RpiPackage.Durable.Concurrent
import RpiPackage.Durable.Projection
import RpiPackage.History.Page
import RpiPackage.History.Spool
import RpiPackage.History.Prepare
import RpiPackage.Timings.Record
import RpiPackage.Timings.Query
import RpiPackage.Timings.Incremental
import RpiPackage.Host.Admission
import RpiPackage.Host.Execution
import RpiPackage.Child.Query
import RpiPackage.Child.Traversal
import RpiPackage.Child.Live
import RpiPackage.Child.Once
import RpiPackage.Message.Projection
import RpiPackage.Message.Stream
import RpiPackage.Message.Delivery
import RpiPackage.Host.Publish
import RpiPackage.Host.Ordered
import RpiPackage.Host.Subscription
import RpiPackage.Registry.Persist
import RpiPackage.Deletion.Execute
import RpiPackage.Deletion.Erase
import RpiPackage.Deletion.Retry
import RpiPackage.Todo.Commit
import RpiPackage.Goal.Linear
import RpiPackage.Permissions.Policy
import RpiPackage.Orchestrator.Waves
import RpiPackage.Orchestrator.Completion
import RpiPackage.Mcp.Runtime
import RpiPackage.Mcp.Ownership
import RpiPackage.Mcp.Lifetimes
import RpiPackage.Mcp.Admission
import RpiPackage.PlanMode.State
import RpiPackage.PlanMode.Tools
import RpiPackage.PlanMode.Branch
import RpiPackage.Antigravity.Usage
import RpiPackage.Antigravity.Stream
import RpiPackage.Antigravity.Replay
import RpiPackage.Antigravity.Rebuild
import RpiPackage.Antigravity.Driver
import RpiPackage.Antigravity.Terminal
import RpiPackage.Acp.Options
import RpiPackage.Acp.Configuration
import RpiPackage.Lib.JsonLine
import RpiPackage.Lib.Turns
import RpiPackage.Acp.Writer
import RpiPackage.Acp.Framing
import RpiPackage.Acp.Pending
import RpiPackage.Acp.Message
import RpiPackage.Acp.Dispatch
import RpiPackage.Acp.Registry
import RpiPackage.Acp.Effects
import RpiPackage.Acp.Change
import RpiPackage.Acp.Guarded
import RpiPackage.Acp.Answered
import RpiPackage.Acp.Cancellation
import RpiPackage.Timings.Runs
import RpiPackage.History.Branch
import RpiPackage.History.Stack
import RpiPackage.Durable.ToolRecords
import RpiPackage.Im.Sessions
import RpiPackage.Im.Book
import RpiPackage.Im.Isolation
import RpiPackage.Lib.Trace
import RpiPackage.Http.Security
import RpiPackage.Http.Protection
import RpiPackage.Http.Pacing
import RpiPackage.Langfuse.Tracer
import RpiPackage.Langfuse.Kept
import RpiPackage.Langfuse.Turns
import RpiPackage.Langfuse.Exports
import RpiPackage.Lib.Js
import RpiPackage.Lib.First
import RpiPackage.Web.ExecutionTrace
import RpiPackage.Web.Kept
import RpiPackage.Web.Advance
import RpiPackage.Web.Snapshot
import RpiPackage.Web.Bounded
import RpiPackage.Web.Transcript
import RpiPackage.Web.Rows
import RpiPackage.Web.Pages
import RpiPackage.Host.Settlement
import RpiPackage.Child.Phases
import RpiPackage.Lib.Calendar
import RpiPackage.Catalog.Dates
import RpiPackage.Child.Contiguous
import RpiPackage.Edit.DiffNumbers
import RpiPackage.Edit.Unambiguous
import RpiPackage.Edit.Faithful
import RpiPackage.Lib.Unix
import RpiPackage.Workspace.Resolve
import RpiPackage.Lib.Base64
import RpiPackage.Lib.JsonSize
import RpiPackage.Codemode.Content
import RpiPackage.Codemode.Bridge
import RpiPackage.Codemode.Reading
import RpiPackage.Codemode.Poll
import RpiPackage.Codemode.Settle
import RpiPackage.Codemode.Books
import RpiPackage.Codemode.ToolResult
import RpiPackage.Codemode.Budget
import RpiPackage.Goal.Budget
import RpiPackage.Goal.Turns
import RpiPackage.Todo.Reload
import RpiPackage.Mcp.Catalogs
import RpiPackage.Orchestrator.Acyclic
import RpiPackage.Permissions.Glob
import RpiPackage.Mcp.Sse
import RpiPackage.Antigravity.Sse
import RpiPackage.Antigravity.Sessions
import RpiPackage.Lib.Binary64
import RpiPackage.Lib.JsonText
import RpiPackage.Antigravity.Json
import RpiPackage.Antigravity.Request
import RpiPackage.Antigravity.Project
import RpiPackage.Antigravity.Lookups
import RpiPackage.Lib.JsonSchema
import RpiPackage.Acp.Questions
import RpiPackage.Antigravity.Schema
import RpiPackage.Antigravity.Merging
import RpiPackage.Antigravity.Subset
import RpiPackage.Antigravity.Bounds
import RpiPackage.Child.Identities
import RpiPackage.Codemode.Handoff
import RpiPackage.Codemode.Heap
import RpiPackage.Langfuse.Timestamps
import RpiPackage.AskUser.Plan
import RpiPackage.AskUser.Drive
import RpiPackage.AskUser.Dialogs
import RpiPackage.AskUser.Calls
