import MCGate.Config.HostPattern

/-!
# The configuration

The typed configuration and its defaults. Routes are compared by `Route.eq`, the
structural equality that carries a route's runtime across a reload: it looks at the
normalised host patterns, the backends, the strategy and the priority, and at nothing else.
-/
namespace MCGate.Config

inductive Strategy where
  | sequential
  | random
  | roundRobin
  | leastConnections
  | lowestLatency
  deriving DecidableEq, Repr

structure VersionInfo where
  name : Text
  protocol : Int32

structure PlayersInfo where
  online : Int32
  max : Int32

structure FallbackStatus where
  motd : Text
  version : VersionInfo
  players : Option PlayersInfo
  faviconDataUri : Option Text

structure ReconnectConfig where
  enabled : Bool := false
  onMidSessionDrop : Bool := false
  retryIntervalMillis : Int64 := 5000
  maxRetryIntervalMillis : Int64 := 30000
  backoffMultiplier : Float := 2.0
  maxWaitMillis : Int64 := 600000
  title : Text := "&eServer is currently offline.".toList
  subtitle : Text := "&7Waiting to reconnect...".toList
  attemptSuffix : Text := " (attempt \x7battempt\x7d)".toList
  actionBarFrames : List Text :=
    ["&7Reconnecting.".toList, "&7Reconnecting..".toList, "&7Reconnecting...".toList]
  animationIntervalMillis : Int64 := 500

/-- `limit = -1` is no ceiling. -/
structure RouteMetricUsageConfig where
  enabled : Bool
  limit : Int64

def RouteMetricUsageConfig.defaulted : RouteMetricUsageConfig := ⟨false, -1⟩

structure RouteMetricsConfig where
  file : Option Text
  upload : RouteMetricUsageConfig
  download : RouteMetricUsageConfig
  resetIntervalMillis : Int64

def RouteMetricsConfig.active (self : RouteMetricsConfig) : Bool :=
  self.upload.enabled || self.download.enabled

structure Route where
  hostPatterns : List HostPattern
  backendTemplates : List Text
  strategy : Strategy
  cachePingTtlMillis : Int64
  fallback : Option FallbackStatus
  modifyVirtualHost : Bool
  proxyProtocol : Bool
  priority : Int32
  reconnect : ReconnectConfig
  kickMessage : Text
  voicechatTemplates : List Text
  metrics : Option RouteMetricsConfig

namespace Route

/-- The captures of the first pattern that matches; the outer `none` is a panic. -/
def matchHost (toLowercase : Text → Text) (self : Route) (hostname : Text) :
    Option (Option (List Text)) :=
  go self.hostPatterns
where
  go : List HostPattern → Option (Option (List Text))
    | [] => some none
    | p :: rest => do
      match ← p.matchHost toLowercase hostname with
      | some captures => return some captures
      | none => go rest

/-- `Vec<HostPattern> == Vec<HostPattern>` -/
def patternsEq : List HostPattern → List HostPattern → Bool
  | [], [] => true
  | p :: ps, q :: qs => p.eq q && patternsEq ps qs
  | _, _ => false

/-- `PartialEq for Route` -/
def eq (self other : Route) : Bool :=
  patternsEq self.hostPatterns other.hostPatterns &&
    self.backendTemplates = other.backendTemplates && self.strategy = other.strategy &&
    self.priority = other.priority

/-- What `eq` compares. -/
def identity (self : Route) : List Text × List Text × Strategy × Int32 :=
  (self.hostPatterns.map HostPattern.pattern, self.backendTemplates, self.strategy, self.priority)

private theorem patternsEq_iff {ps qs : List HostPattern} :
    patternsEq ps qs ↔ ps.map HostPattern.pattern = qs.map HostPattern.pattern := by
  induction ps generalizing qs with
  | nil => cases qs <;> simp [patternsEq]
  | cons p ps ih => cases qs <;> simp [patternsEq, HostPattern.eq, ih]

/-- Structural equality is equality of what it compares, so it is an equivalence. -/
theorem eq_iff {a b : Route} : a.eq b ↔ a.identity = b.identity := by
  simp [eq, identity, patternsEq_iff, and_assoc]

end Route

structure UdpConfig where
  proxyProtocol : Bool := false

structure UdpProxyConfig where
  bind : Text
  backend : Text
  logSessions : Bool

structure ApiConfig where
  enabled : Bool := false
  bind : Text := "localhost:8080".toList
  token : Option Text := none
  playersPageLimit : Int32 := 500

structure ConnectionThrottleConfig where
  maxConnections : Int32 := 0
  maxPerIpPerWindow : Int32 := 8
  windowMillis : Int64 := 8000

structure AutoBanConfig where
  enabled : Bool := true
  maxViolations : Int32 := 10
  violationWindowMillis : Int64 := 60000
  banDurationMillis : Int64 := 600000

structure UdpThrottleConfig where
  maxSessions : Int32 := 8192
  maxSessionsPerIp : Int32 := 64
  pendingPacketsPerSession : Int32 := 256
  idleTimeoutMillis : Int64 := 300000
  noReplyTeardownMillis : Int64 := 20000

structure ConnectionTrackingConfig where
  enabled : Bool := false
  dbPath : Text := "data/connections.db".toList
  retentionDays : Int32 := 30
  maxRecords : Int32 := 200000
  queueCapacity : Int32 := 5000
  batchSize : Int32 := 200
  flushIntervalMillis : Int64 := 2000
  pruneIntervalMillis : Int64 := 3600000
  deriving DecidableEq

structure StatsLoggingConfig where
  enabled : Bool := false
  dbPath : Text := "data/stats.db".toList
  intervalMillis : Int64 := 60000
  retentionDays : Int32 := 14
  maxRecords : Int32 := 50000

structure GateConfig where
  bind : Text := "0.0.0.0:25565".toList
  routes : List Route := []
  udp : UdpConfig := {}
  udpProxies : List UdpProxyConfig := []
  api : ApiConfig := {}
  connectionTracking : ConnectionTrackingConfig := {}
  statsLogging : StatsLoggingConfig := {}
  workerThreads : Int32 := 0
  logConnections : Bool := false
  logLevel : Text := "INFO".toList
  proxyProtocol : Bool := false
  loginTimeoutMillis : Int64 := 10000
  maxConnectionsPerIp : Int32 := 8
  connectionThrottle : ConnectionThrottleConfig := {}
  autoBan : AutoBanConfig := {}
  udpThrottle : UdpThrottleConfig := {}
  soBacklog : Int32 := 128
  maxHeldReconnectSessions : Int32 := 500

/-! ### Messages -/

structure ReconnectMessages where
  title : Text := ({} : ReconnectConfig).title
  subtitle : Text := ({} : ReconnectConfig).subtitle
  attemptSuffix : Text := ({} : ReconnectConfig).attemptSuffix
  actionBarFrames : List Text := ({} : ReconnectConfig).actionBarFrames

structure GateMessages where
  kickMessage : Text := "&cServer is offline. Please reconnect shortly.".toList
  metricsLimitKickMessage : Text :=
    ("<gradient:#f85032:#e73827><bold>✦ DATA LIMIT REACHED ✦</bold></gradient>\n" ++
      "<gray>This server has used up its data-transfer allowance.</gray>\n" ++
      "<gradient:#8e9eab:#eef2f3>Please try again later.</gradient>").toList
  reconnect : ReconnectMessages := {}

end MCGate.Config
