import X402Mesh.Lib.Joined
import X402Mesh.Lib.EventStream
import X402Mesh.Lib.Utf8Decoder
import X402Mesh.Lib.OrderedMap
import X402Mesh.Lib.Transition
import X402Mesh.Shared.Money
import X402Mesh.Shared.Pricing
import X402Mesh.Lib.WriteChain
import X402Mesh.Registry.Accruals
import X402Mesh.Settlement.Types
import X402Mesh.Settlement.Service
import X402Mesh.Settlement.World
import X402Mesh.Settlement.Frame
import X402Mesh.Settlement.Accruing
import X402Mesh.Settlement.Accounting
import X402Mesh.Settlement.Conservation
import X402Mesh.Settlement.Durability
import X402Mesh.Settlement.Recovery
import X402Mesh.Settlement.Carriers
import X402Mesh.Gateway.Algorand
import X402Mesh.Gateway.Notes
import X402Mesh.Gateway.Quotes
import X402Mesh.Registry.Nodes
import X402Mesh.Registry.Selector
import X402Mesh.Gateway.Mesh
import X402Mesh.Gateway.Benched
import X402Mesh.Gateway.Router
import X402Mesh.Gateway.Chat
import X402Mesh.Settlement.Tracking
import X402Mesh.Settlement.Boot
import X402Mesh.Settlement.Partition
import X402Mesh.Settlement.Flush
import X402Mesh.Gateway.Lifecycle
import X402Mesh.Lib.Pool
import X402Mesh.Registry.Redis
import X402Mesh.Registry.Serializable
import X402Mesh.Registry.Fallback
import X402Mesh.Gateway.Relay
import X402Mesh.NodeDaemon.Stream
import X402Mesh.Settlement.Landed
import X402Mesh.Settlement.Replicas
import X402Mesh.Settlement.Lifetimes
import X402Mesh.Settlement.WriteAhead
import X402Mesh.Registry.Schemas
import X402Mesh.Registry.Health
import X402Mesh.Registry.Routable
import X402Mesh.Gateway.Surfaces
import X402Mesh.Registry.Agreement
import X402Mesh.Gateway.NonceCache
import X402Mesh.Lib.JsNumber
import X402Mesh.Lib.JsonText
import X402Mesh.Registry.Signing
import X402Mesh.Registry.Payloads
import X402Mesh.Gateway.Requests
import X402Mesh.Gateway.Authentic
import X402Mesh.Gateway.SelfReport
import X402Mesh.Registry.Marks
import X402Mesh.Settlement.Attempts
import X402Mesh.Settlement.Deadlines
import X402Mesh.Registry.LedgerStore
import X402Mesh.Settlement.History
import X402Mesh.Registry.InFlight
import X402Mesh.Shared.NetGuard
import X402Mesh.Shared.Spellings
import X402Mesh.Shared.ResolutionCache
import X402Mesh.Gateway.Egress
import X402Mesh.Gateway.Pump
import X402Mesh.Shared.Decimals
import X402Mesh.Gateway.RateLimit
import X402Mesh.Gateway.Snippets
import X402Mesh.NodeDaemon.Sse
import X402Mesh.Lib.WeightedDraw
import X402Mesh.Registry.Draws
import X402Mesh.Registry.ScoreLaws
import X402Mesh.Lib.AgeOrder
import X402Mesh.Gateway.NoteAges
import X402Mesh.Settlement.BatchIds
import X402Mesh.Lib.JsValue
import X402Mesh.NodeDaemon.Usage
import X402Mesh.Shared.Details
import X402Mesh.Lib.Base32
import X402Mesh.NodeDaemon.Keys
import X402Mesh.NodeDaemon.Backoff
import X402Mesh.NodeDaemon.HeartbeatLoop
import X402Mesh.NodeDaemon.Semaphore
import X402Mesh.NodeDaemon.RoundTrip
import X402Mesh.Settlement.Destroyed
import X402Mesh.Lib.Simulation
import X402Mesh.Registry.AccrualKeys
import X402Mesh.Settlement.RowCommands
import X402Mesh.Lib.Schema
import X402Mesh.Shared.ChatSchemas
import X402Mesh.Gateway.Forward
import X402Mesh.NodeDaemon.BodyReader
import X402Mesh.NodeDaemon.Completions
import X402Mesh.NodeDaemon.ChatStream
import X402Mesh.NodeDaemon.Server
import X402Mesh.NodeDaemon.Serving
import X402Mesh.NodeDaemon.Isolated
import X402Mesh.NodeDaemon.Admission
import X402Mesh.NodeDaemon.ControlPlane
import X402Mesh.NodeDaemon.Joined
import X402Mesh.Settlement.Provenance
import X402Mesh.Gateway.Delivery
import X402Mesh.Gateway.Visits
