import Zicade.Foundation.Runs
import Zicade.Foundation.Utf8
import Zicade.Foundation.IoError
import Zicade.Auth.Header
import Zicade.Auth.Handshake
import Zicade.Auth.Base64
import Zicade.Net.Socket
import Zicade.Upstream.AuthState
import Zicade.Upstream.Wire
import Zicade.Upstream.Connect
import Zicade.Upstream.Framing
import Zicade.Upstream.FramingLaws
import Zicade.Upstream.Draining
import Zicade.Upstream.Conversation
import Zicade.Upstream.Retry
import Zicade.Upstream.Forward
import Zicade.Upstream.Agreement
import Zicade.Upstream.Challenges
import Zicade.Upstream.Continuation
import Zicade.Config.Model
import Zicade.Config.Validate
import Zicade.Config.Json
import Zicade.Netmon.OnCorp
import Zicade.Netmon.Gate
import Zicade.Control.Apply
import Zicade.Control.Concurrent
import Zicade.Proxy.Tracker
import Zicade.Proxy.Pump
import Zicade.Proxy.Splice
import Zicade.Ui.ConfigView
import Zicade.App.ApplyHook
import Zicade.Proxy.Server
import Zicade.Proxy.Shutdown
import Zicade.Net.IpAddr
import Zicade.App.Routing
import Zicade.App.Start
import Zicade.Netmon.GateEffects
import Zicade.Proxy.Book
import Zicade.Proxy.BookLaws
import Zicade.Proxy.BookViews
import Zicade.Observe.LogStore
import Zicade.Ui.LogsView
import Zicade.Routing.Pac
import Zicade.App.PacRouter
import Zicade.Routing.PacFormats
import Zicade.Proxy.Origin
import Zicade.Proxy.Target
import Zicade.Upstream.Pool
import Zicade.Upstream.PoolLaws
import Zicade.Foundation.Notify
import Zicade.Upstream.Prewarm
import Zicade.Upstream.PrewarmLaws
import Zicade.Upstream.Backoff
import Zicade.Config.JsonText
import Zicade.Config.Load
import Zicade.Ui.ConfigForm
import Zicade.Control.Secrets
import Zicade.Proxy.BookBytes
import Zicade.Upstream.Dialed
import Zicade.App.Pools
import Zicade.Foundation.Rounds
import Zicade.Upstream.Sender
import Zicade.Upstream.LegCaps
import Zicade.Net.Takes
import Zicade.Upstream.DrainLimits
import Zicade.Upstream.Granted
import Zicade.Upstream.HandshakeRuns
import Zicade.Proxy.Forwarded
import Zicade.Proxy.Relay
import Zicade.Ui.TypedPassword
import Zicade.App.BasicCredentials
import Zicade.Upstream.RequestHead
import Zicade.Proxy.ConnectHead
import Zicade.Netmon.Labels
import Zicade.Netmon.Openable
import Zicade.Win.Discovery
import Zicade.Win.UrlHost
import Zicade.Upstream.TokenCodec
import Zicade.Win.SspiContext
import Zicade.Ui.Rates
import Zicade.Config.Torn
import Zicade.App.Sessions
import Zicade.Foundation.Liveness
import Zicade.Proxy.Drain
import Zicade.App.Serving
import Zicade.App.TrayMode
import Zicade.App.TrayClose
import Zicade.Proxy.Tunnel
import Zicade.Proxy.ConnectTask
import Zicade.Foundation.Ledger
import Zicade.Win.WinHttp
import Zicade.Ui.Chart
import Zicade.Ui.Fields
import Zicade.Ui.Settings
import Zicade.Proxy.ForwardTask
import Zicade.Proxy.Connection
import Zicade.Foundation.SortedMap
import Zicade.Foundation.Tail
import Zicade.Observe.Layer
import Zicade.Ui.LogsPage
