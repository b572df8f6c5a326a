import MCGate.Lib.Machine
import MCGate.Lib.Threads
import MCGate.Lib.Reader
import MCGate.Lib.Decoder
import MCGate.Lib.BigEndian
import MCGate.Lib.Sql
import MCGate.Lib.StableSort
import MCGate.Lib.FixedWindow
import MCGate.Lib.Tally
import MCGate.Lib.Turns
import MCGate.Std.Text
import MCGate.Std.Time
import MCGate.Std.Yaml
import MCGate.Std.Json
import MCGate.Std.Io
import MCGate.Std.Net
import MCGate.Config.HostPattern
import MCGate.Config.HostMatch
import MCGate.Config.HostCapture
import MCGate.Std.Display
import MCGate.Std.AddrRoundTrip
import MCGate.Config.SubstituteParams
import MCGate.Config.BackendAddress
import MCGate.Config.Duration
import MCGate.Config.Types
import MCGate.Config.Loader
import MCGate.Config.Editor
import MCGate.Protocol.VarInt
import MCGate.Protocol.Handshake
import MCGate.Net.BufferedStream
import MCGate.Net.ReadFrame
import MCGate.Net.ReadHandshake
import MCGate.Protocol.ProxyProtocolDatagram
import MCGate.Protocol.ProxyProtocolTcp
import MCGate.Protocol.Compression
import MCGate.Protocol.ReconnectProtocol
import MCGate.Protocol.TextFormat
import MCGate.Protocol.LegacyText
import MCGate.Net.Splice
import MCGate.Protocol.MinecraftProtocol
import MCGate.Std.Utf8
import MCGate.Protocol.Encoding
import MCGate.Protocol.HandshakeRoundTrip
import MCGate.Protocol.LoginStart
import MCGate.Protocol.CompressionRoundTrip
import MCGate.Protocol.PlayDisconnect
import MCGate.Protocol.ProxyProtocolRoundTrip
import MCGate.State.PlayerSessions
import MCGate.State.RouteRuntime
import MCGate.State.AppState
import MCGate.State.CarryOver
import MCGate.State.RouteMetricsStore
import MCGate.State.Metering
import MCGate.State.Reload
import MCGate.Net.Sniff
import MCGate.Net.Relay
import MCGate.Net.Inject
import MCGate.Net.Disconnect
import MCGate.Net.Login
import MCGate.Net.Api
import MCGate.Net.RouteSelection
import MCGate.Net.RouteEdits
import MCGate.Net.IpBan
import MCGate.Net.BackendSelector
import MCGate.Std.HashMap
import MCGate.Udp.VoiceRouting
import MCGate.Udp.VoiceRelay
import MCGate.Udp.VoiceLogout
import MCGate.State.ConnectionTracker
import MCGate.State.Tracking
import MCGate.State.TrackerDatabase
import MCGate.Net.PingCache
import MCGate.Net.Status
import MCGate.Udp.Relay
import MCGate.Udp.RelayView
import MCGate.Udp.RelayReaders
import MCGate.Udp.RelaySlots
import MCGate.Udp.RelayCap
import MCGate.State.MetricsTasks
import MCGate.State.MetricsPersistence
import MCGate.Net.BanSweep
import MCGate.Net.FloodControl
import MCGate.Net.ConnectionGuard
import MCGate.Net.DnsCache
import MCGate.Net.DnsStaleness
import MCGate.Net.FloodTables
import MCGate.Logging.RollingFileWriter
import MCGate.Net.ProxyHeader
import MCGate.Protocol.JsonComponent
import MCGate.Protocol.StatusJson
import MCGate.Protocol.Rendering
import MCGate.Net.BanCause
import MCGate.State.MetricsFiles
import MCGate.State.ResetSchedule
import MCGate.Config.Numbers
import MCGate.Config.Favicon
import MCGate.Protocol.Flattening
import MCGate.Logging.Colorize
import MCGate.Console.HandleCommand
import MCGate.Std.Exposition
import MCGate.Net.MetricsText
import MCGate.Net.MetricsGroups
import MCGate.State.StatsLogger
import MCGate.Config.BackendLiteral
import MCGate.Net.Server
import MCGate.Net.ServerAccounts
import MCGate.Net.ServerBans
import MCGate.Net.ServerBanned
import MCGate.Net.ServerCaps
import MCGate.Net.ServerDeadline
import MCGate.Net.StatusDials
import MCGate.Net.LoginStream
import MCGate.Net.ServerReads
import MCGate.Net.GateBehindGate
import MCGate.Net.StatusAnswer
import MCGate.Net.StatusBehindGate
import MCGate.Udp.Datagrams
