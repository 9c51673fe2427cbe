import Resumable.Abi.Errno
import Resumable.Abi.Pair
import Resumable.Bridge.Basic
import Resumable.Command.Plan
import Resumable.Command.Run
import Resumable.Config.Environment
import Resumable.Config.Host
import Resumable.Config.Runtime
import Resumable.Core.Activation
import Resumable.Core.Memory
import Resumable.Files.Open
import Resumable.Files.Tree
import Resumable.Gate.Basic
import Resumable.Gate.Exclusive
import Resumable.Handle.Table
import Resumable.Host.Arena
import Resumable.Host.Call
import Resumable.Host.Dispatch
import Resumable.Host.Fault
import Resumable.Host.Import
import Resumable.Host.Instance
import Resumable.Host.State
import Resumable.Http.Answer
import Resumable.Http.Exchange
import Resumable.Http.Outbound
import Resumable.Http.Redirect
import Resumable.Http.Token
import Resumable.Json.Reader
import Resumable.Json.Text
import Resumable.Json.Value
import Resumable.Main
import Resumable.Message.Incoming
import Resumable.Message.Outgoing
import Resumable.Message.PerformRequest
import Resumable.Number.Binary64
import Resumable.Number.Shortest
import Resumable.Perform.Outcome
import Resumable.Proofs.Abi.Codec
import Resumable.Proofs.Abi.Pair
import Resumable.Proofs.Bridge.Act
import Resumable.Proofs.Bridge.Balance
import Resumable.Proofs.Bridge.Control
import Resumable.Proofs.Bridge.DirectStyle
import Resumable.Proofs.Bridge.Discipline
import Resumable.Proofs.Bridge.Driving
import Resumable.Proofs.Bridge.Hosting
import Resumable.Proofs.Bridge.Program
import Resumable.Proofs.Bridge.Rest
import Resumable.Proofs.Bridge.Transcript
import Resumable.Proofs.Bridge.Upkeep
import Resumable.Proofs.Config.Cursor
import Resumable.Proofs.Config.Expansion
import Resumable.Proofs.Core.Memory
import Resumable.Proofs.Core.Region
import Resumable.Proofs.Core.Watched
import Resumable.Proofs.Core.Words
import Resumable.Proofs.Gate.Exclusion
import Resumable.Proofs.Gate.Line
import Resumable.Proofs.Gate.Waiting
import Resumable.Proofs.Handle.History
import Resumable.Proofs.Handle.Reuse
import Resumable.Proofs.Handle.Table
import Resumable.Proofs.Host.Arenas
import Resumable.Proofs.Host.Confinement
import Resumable.Proofs.Host.Dispatch
import Resumable.Proofs.Host.Events
import Resumable.Proofs.Host.Frame
import Resumable.Proofs.Host.Halves
import Resumable.Proofs.Host.Header
import Resumable.Proofs.Host.HostRun
import Resumable.Proofs.Host.Identity
import Resumable.Proofs.Host.Invocations
import Resumable.Proofs.Host.Journal
import Resumable.Proofs.Host.Mirrored
import Resumable.Proofs.Host.Passage
import Resumable.Proofs.Host.Performing
import Resumable.Proofs.Host.Ranges
import Resumable.Proofs.Host.Reading
import Resumable.Proofs.Host.Replies
import Resumable.Proofs.Host.Requests
import Resumable.Proofs.Host.Resources
import Resumable.Proofs.Host.Results
import Resumable.Proofs.Host.Resumption
import Resumable.Proofs.Host.Serving
import Resumable.Proofs.Host.Splicing
import Resumable.Proofs.Host.Tables
import Resumable.Proofs.Host.Upkeep
import Resumable.Proofs.Json.Injective
import Resumable.Proofs.Json.Kept
import Resumable.Proofs.Json.Members
import Resumable.Proofs.Json.Numerals
import Resumable.Proofs.Json.Passing
import Resumable.Proofs.Json.Quoting
import Resumable.Proofs.Json.ReadBack
import Resumable.Proofs.Message.Decoding
import Resumable.Proofs.Message.Encoding
import Resumable.Proofs.Message.Fields
import Resumable.Proofs.Message.Reference
import Resumable.Proofs.Number.Layout
import Resumable.Proofs.Number.Shortest
import Resumable.Proofs.Service.Cancellation
import Resumable.Proofs.Service.Ending
import Resumable.Proofs.Service.Exchanges
import Resumable.Proofs.Service.Progress
import Resumable.Proofs.Service.Timers
import Resumable.Proofs.Session.AtRest
import Resumable.Proofs.Session.Attendance
import Resumable.Proofs.Session.Callers
import Resumable.Proofs.Session.Courses
import Resumable.Proofs.Session.Failures
import Resumable.Proofs.Session.Fetches
import Resumable.Proofs.Session.Fidelity
import Resumable.Proofs.Session.History
import Resumable.Proofs.Session.HttpCalls
import Resumable.Proofs.Session.Instances
import Resumable.Proofs.Session.Metrics
import Resumable.Proofs.Session.Mirrored
import Resumable.Proofs.Session.Passages
import Resumable.Proofs.Session.Performs
import Resumable.Proofs.Session.Protocol
import Resumable.Proofs.Session.Reload
import Resumable.Proofs.Session.Salvage
import Resumable.Proofs.Session.Serializable
import Resumable.Proofs.Session.Steps
import Resumable.Proofs.Session.Story
import Resumable.Proofs.Session.Timer
import Resumable.Proofs.Session.Turns
import Resumable.Proofs.Session.Visits
import Resumable.Proofs.Stream.Delivery
import Resumable.Scripted.Document
import Resumable.Scripted.Export
import Resumable.Scripted.Literal
import Resumable.Scripted.Machine
import Resumable.Scripted.Peer
import Resumable.Scripted.Scene
import Resumable.Service.EventStore
import Resumable.Service.Local
import Resumable.Service.Task
import Resumable.Service.Timers
import Resumable.Session.Lifecycle
import Resumable.Session.Load
import Resumable.Session.Perform
import Resumable.Session.Salvage
import Resumable.Session.Slot
import Resumable.Stream.ChunkReader
import Resumable.Text.Base64
import Resumable.Text.Blank
import Resumable.Text.Folding
import Resumable.Text.Hidden
import Resumable.Text.Lossy
import Resumable.Toml.Document
import Resumable.Toml.Quoted
import Resumable.Toml.Scalar
import Resumable.Toml.Value
import Resumable.Url.Address
import Resumable.Url.Basic
import Resumable.Url.Domain
import Resumable.Url.Percent
import Resumable.Url.Punycode
import Resumable.Url.Reader
import Resumable.Url.Reference
