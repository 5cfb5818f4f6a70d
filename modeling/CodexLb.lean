import CodexLb.Route.Replay
import CodexLb.Route.Commit
import CodexLb.Route.Fencing
import CodexLb.Route.Soundness
import CodexLb.Daemon.Scheduler
import CodexLb.Daemon.Pause
import CodexLb.Daemon.Cooldown
import CodexLb.Daemon.Reservation
import CodexLb.Daemon.Eligibility
import CodexLb.Registry.Connections
import CodexLb.Registry.Index
import CodexLb.Graph.Component
import CodexLb.Registry.Delivery
import CodexLb.Base.Json
import CodexLb.Catalog.Rollout
import CodexLb.Catalog.Resolve
import CodexLb.Catalog.Tree
import CodexLb.Catalog.Discover
import CodexLb.Catalog.Payload
import CodexLb.Catalog.Order
import CodexLb.Catalog.Unrelated
import CodexLb.Cost.Ledger
import CodexLb.Cost.Accounting
import CodexLb.Cost.Backfilled
import CodexLb.Machine.Integer
import CodexLb.Cost.Exact
import CodexLb.Transition.Custody
import CodexLb.Upstream.Usage
import CodexLb.Websocket.Messages
import CodexLb.Websocket.Turn
import CodexLb.Websocket.Bridge
import CodexLb.Websocket.Turns
import CodexLb.Websocket.Attribution
import CodexLb.Proxy.Capture
import CodexLb.Proxy.Delivered
import CodexLb.Daemon.Routing
import CodexLb.Db.Settings
import CodexLb.Daemon.Retention
import CodexLb.Route.Sticky
import CodexLb.Transition.KeyedLocks
import CodexLb.Upstream.Refresh
import CodexLb.Upstream.Login
import CodexLb.Streaming.Occurrence
import CodexLb.Proxy.Detector
import CodexLb.Proxy.Events
import CodexLb.Route.Repeat
import CodexLb.Proxy.Request
import CodexLb.Proxy.Failover
import CodexLb.Proxy.Committed
import CodexLb.Cost.Progress
import CodexLb.Catalog.Partition
import CodexLb.Upstream.Windows
import CodexLb.Upstream.Meters
import CodexLb.Route.Target
import CodexLb.Upstream.Claims
import CodexLb.Daemon.Status
import CodexLb.Relational.Truth
import CodexLb.Daemon.Verdict
import CodexLb.Transition.LeastRecent
import CodexLb.Daemon.Fairness
import CodexLb.Upstream.Polling
import CodexLb.Cost.Stored
import CodexLb.Grammar.Json
import CodexLb.Upstream.Named
import CodexLb.Machine.Slice
import CodexLb.Proxy.Tail
import CodexLb.Websocket.Relay
import CodexLb.Live.System
import CodexLb.Live.Fencing
import CodexLb.Live.Signals
import CodexLb.Websocket.Opened
import CodexLb.Proxy.Listed
import CodexLb.Live.Rerouted
import CodexLb.Daemon.Credentials
import CodexLb.Upstream.Sweep
