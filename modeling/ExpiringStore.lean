import ExpiringStore.Address.Basic
import ExpiringStore.Address.Reader
import ExpiringStore.CommandLine.Config
import ExpiringStore.CommandLine.Help
import ExpiringStore.CommandLine.Parser
import ExpiringStore.CommandLine.Setting
import ExpiringStore.Http.Message
import ExpiringStore.Http.Route
import ExpiringStore.Http.Service
import ExpiringStore.Http.SetBody
import ExpiringStore.Http.Spelling
import ExpiringStore.Json.Basic
import ExpiringStore.Json.Grammar
import ExpiringStore.Json.Lexer
import ExpiringStore.Json.Reader
import ExpiringStore.Limits
import ExpiringStore.Log.Event
import ExpiringStore.Log.Filter
import ExpiringStore.Main
import ExpiringStore.Program
import ExpiringStore.Proofs.Accounting.Ledger
import ExpiringStore.Proofs.Accounting.Runs
import ExpiringStore.Proofs.Accounting.Sessions
import ExpiringStore.Proofs.Address.Canonical
import ExpiringStore.Proofs.Address.Numbers
import ExpiringStore.Proofs.Address.Reader
import ExpiringStore.Proofs.CommandLine.Configuration
import ExpiringStore.Proofs.CommandLine.Occurrences
import ExpiringStore.Proofs.CommandLine.Precedence
import ExpiringStore.Proofs.CommandLine.Readings
import ExpiringStore.Proofs.CommandLine.RoundTrip
import ExpiringStore.Proofs.Commutation
import ExpiringStore.Proofs.Concerns
import ExpiringStore.Proofs.Decimal
import ExpiringStore.Proofs.Expiry
import ExpiringStore.Proofs.FailedRequests
import ExpiringStore.Proofs.FrontEnds
import ExpiringStore.Proofs.Handles.Independence
import ExpiringStore.Proofs.Handles.Isolation
import ExpiringStore.Proofs.Handles.Lifetime
import ExpiringStore.Proofs.Handles.Moves
import ExpiringStore.Proofs.Handles.Sharing
import ExpiringStore.Proofs.Handles.Stopping
import ExpiringStore.Proofs.Http.BodySize
import ExpiringStore.Proofs.Http.Keys
import ExpiringStore.Proofs.Http.Meaning
import ExpiringStore.Proofs.Http.Plain
import ExpiringStore.Proofs.Http.Responses
import ExpiringStore.Proofs.Http.RoundTrip
import ExpiringStore.Proofs.Http.Spelling
import ExpiringStore.Proofs.Interleaving.LiveEntries
import ExpiringStore.Proofs.Json.Lexer
import ExpiringStore.Proofs.Json.Literal
import ExpiringStore.Proofs.Json.Reader
import ExpiringStore.Proofs.Json.Rendering
import ExpiringStore.Proofs.Json.Text
import ExpiringStore.Proofs.Listing
import ExpiringStore.Proofs.Operations
import ExpiringStore.Proofs.Persistence
import ExpiringStore.Proofs.Privacy.Calls
import ExpiringStore.Proofs.Privacy.Logs
import ExpiringStore.Proofs.Privacy.Renaming
import ExpiringStore.Proofs.Process.Course
import ExpiringStore.Proofs.Process.Endings
import ExpiringStore.Proofs.Process.Invariants
import ExpiringStore.Proofs.Process.Lifecycle
import ExpiringStore.Proofs.Process.Moves
import ExpiringStore.Proofs.Process.Parts
import ExpiringStore.Proofs.Process.Return
import ExpiringStore.Proofs.Rpc.Spelling
import ExpiringStore.Proofs.Rpc.Wire
import ExpiringStore.Proofs.Schedule
import ExpiringStore.Proofs.ShownKeys
import ExpiringStore.Proofs.SizeLimits
import ExpiringStore.Proofs.Staleness
import ExpiringStore.Proofs.Supervision.Invariants
import ExpiringStore.Proofs.Supervision.Moves
import ExpiringStore.Proofs.Supervision.Shutdown
import ExpiringStore.Proofs.Sweeps
import ExpiringStore.Proofs.TextOrder
import ExpiringStore.Proofs.TimeToLive
import ExpiringStore.Proofs.TtlMap.Basic
import ExpiringStore.Proofs.TtlMap.Refinement
import ExpiringStore.Proofs.TtlMap.Simulation
import ExpiringStore.Proofs.Wire.Spelling
import ExpiringStore.Rpc.Client
import ExpiringStore.Rpc.Message
import ExpiringStore.Rpc.Reflection
import ExpiringStore.Rpc.Service
import ExpiringStore.Rpc.Spelling
import ExpiringStore.Server.Ending
import ExpiringStore.Server.Error
import ExpiringStore.Server.Listeners
import ExpiringStore.Server.Network
import ExpiringStore.Server.Process
import ExpiringStore.Server.Run
import ExpiringStore.Server.Step
import ExpiringStore.Store.Basic
import ExpiringStore.Store.Entry
import ExpiringStore.Store.Pool
import ExpiringStore.Store.Session
import ExpiringStore.Store.Supervision
import ExpiringStore.Store.Sweeper
import ExpiringStore.Store.Table
import ExpiringStore.Store.Watch
import ExpiringStore.Text.Boundary
import ExpiringStore.Text.Bytes
import ExpiringStore.Text.Integer
import ExpiringStore.Text.Order
import ExpiringStore.Text.Percent
import ExpiringStore.Time
import ExpiringStore.Wire.Field
import ExpiringStore.Wire.Frame
import ExpiringStore.Wire.Spelling
import ExpiringStore.Wire.Varint
