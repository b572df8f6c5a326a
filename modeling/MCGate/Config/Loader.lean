import Mathlib.Data.List.Sort
import MCGate.Config.Duration
import MCGate.Config.Types
import MCGate.Protocol.LegacyText
import MCGate.Std.Display
import MCGate.Std.Yaml

/-!
# Loading the configuration

`load_config` parses the file into a YAML tree and reads every setting out of it, with a
default where a key is missing or has another type. The routes are read in file order and
then sorted by descending priority; the sort is stable, so ties keep the file's order.
-/
namespace MCGate.Config

open Yaml

/-- `serde_yaml` as a file format: `from_str` and `to_string`. Nothing else looks into the
contents of a file, so their type is left open. -/
structure Format (F : Type) where
  fromStr : F → Except Text Value
  toString : Value → Except Text F

/-- What the loader calls outside the repository: the Unicode tables, how `serde_yaml` shows
a value, and the file system for favicons (`none` when a file is missing or unreadable). -/
structure Externals where
  toLowercase : Text → Text
  toYaml : Value → Except Text Text
  displayFloat : Float → Text
  debugValue : Value → Text
  readFile : Text → Option Bytes

/-- For texts without letters beyond ASCII, numbers without fractions and no favicon files. -/
def asciiExternals : Externals where
  toLowercase := List.map Char.toLower
  toYaml _ := .error "not shown".toList
  displayFloat _ := []
  debugValue _ := []
  readFile _ := none

/-! ### Accessors -/

def getStr (map : Mapping) (key : String) : Option Text :=
  (map.get key.toList).bind Value.asStr

def getBool (map : Mapping) (key : String) : Option Bool :=
  (map.get key.toList).bind Value.asBool

def getI64 (map : Mapping) (key : String) : Option Int64 :=
  (map.get key.toList).bind Value.asI64

/-- `v as i32` keeps the low 32 bits. -/
def getI32 (map : Mapping) (key : String) : Option Int32 := (getI64 map key).map Int64.toInt32

def getMap (map : Mapping) (key : String) : Option Mapping :=
  (map.get key.toList).bind Value.asMapping

/-- `get_str(map, key).map(|s| parse_duration_millis(&s)).transpose()?.unwrap_or(default)` -/
def getDuration (map : Mapping) (key : String) (default : Int64) : Except LoadError Int64 :=
  match getStr map key with
  | none => .ok default
  | some s => parseDurationMillis s

def displayNumber (env : Externals) : Number → Text
  | .posInt n => displayInt n.toNat
  | .negInt n => displayInt n.toInt
  | .float x => env.displayFloat x

def valueToString (env : Externals) : Value → Text
  | .string s => s
  | .number n => displayNumber env n
  | .bool b => if b then "true".toList else "false".toList
  | other => trim ((env.toYaml other).toOption.getD [])

def stringList (env : Externals) : Value → List Text
  | .sequence items => items.map (valueToString env)
  | .string s => [s]
  | other => [valueToString env other]

/-! ### One route -/

def Strategy.parse (env : Externals) (value : Option Text) : Except LoadError Strategy :=
  match value with
  | none => .ok .sequential
  | some v =>
    let lower := env.toLowercase v
    if lower = "sequential".toList then .ok .sequential
    else if lower = "random".toList then .ok .random
    else if lower = "round-robin".toList ∨ lower = "round_robin".toList then .ok .roundRobin
    else if lower = "least-connections".toList ∨ lower = "least_connections".toList then
      .ok .leastConnections
    else if lower = "lowest-latency".toList ∨ lower = "lowest_latency".toList then
      .ok .lowestLatency
    else bail ("Unknown load balancing strategy: " ++ String.ofList lower)

def base64Alphabet : Text :=
  "ABCDEFGHIJKLMNOPQRSTUVWXYZabcdefghijklmnopqrstuvwxyz0123456789+/".toList

def base64Char (n : UInt8) : Char := base64Alphabet.getD n.toNat '='

def base64Encode : Bytes → Text
  | [] => []
  | [b0] => [base64Char (b0 >>> 2), base64Char ((b0 &&& 0x03) <<< 4), '=', '=']
  | [b0, b1] =>
    [base64Char (b0 >>> 2), base64Char (((b0 &&& 0x03) <<< 4) ||| (b1 >>> 4)),
      base64Char ((b1 &&& 0x0f) <<< 2), '=']
  | b0 :: b1 :: b2 :: rest =>
    base64Char (b0 >>> 2) :: base64Char (((b0 &&& 0x03) <<< 4) ||| (b1 >>> 4)) ::
      base64Char (((b1 &&& 0x0f) <<< 2) ||| (b2 >>> 6)) :: base64Char (b2 &&& 0x3f) ::
      base64Encode rest

def resolveFavicon (env : Externals) (value : Text) : Option Text :=
  if "data:image".toList.isPrefixOf value then some value
  else (env.readFile value).map fun bytes =>
    "data:image/png;base64,".toList ++ base64Encode bytes

def parseFallback (env : Externals) (f : Mapping) : FallbackStatus :=
  let versionMap := getMap f "version"
  { motd := (getStr f "motd").getD []
    version :=
      { name := (versionMap.bind fun m => getStr m "name").getD []
        protocol := (versionMap.bind fun m => getI32 m "protocol").getD (-1) }
    players := (getMap f "players").map fun m =>
      { online := (getI32 m "online").getD 0, max := (getI32 m "max").getD 0 }
    faviconDataUri := (getStr f "favicon").bind (resolveFavicon env) }

def parseReconnect (env : Externals) (r : Option Mapping) (messages : ReconnectMessages) :
    Except LoadError ReconnectConfig :=
  let defaults : ReconnectConfig :=
    { title := messages.title
      subtitle := messages.subtitle
      attemptSuffix := messages.attemptSuffix
      actionBarFrames := messages.actionBarFrames }
  match r with
  | none => .ok defaults
  | some r => do
    let enabled := (getBool r "enabled").getD defaults.enabled
    return {
      enabled
      onMidSessionDrop := (getBool r "onMidSessionDrop").getD enabled
      retryIntervalMillis := ← getDuration r "retryInterval" defaults.retryIntervalMillis
      maxRetryIntervalMillis := ← getDuration r "maxRetryInterval" defaults.maxRetryIntervalMillis
      backoffMultiplier :=
        ((r.get "backoffMultiplier".toList).bind Value.asF64).getD defaults.backoffMultiplier
      maxWaitMillis := ← getDuration r "maxWait" defaults.maxWaitMillis
      title := (getStr r "title").getD defaults.title
      subtitle := (getStr r "subtitle").getD defaults.subtitle
      attemptSuffix := (getStr r "attemptSuffix").getD defaults.attemptSuffix
      actionBarFrames :=
        ((r.get "actionBarFrames".toList).map (stringList env)).getD defaults.actionBarFrames
      animationIntervalMillis :=
        ← getDuration r "animationInterval" defaults.animationIntervalMillis }

/-- `to_legacy_text`, whose panic takes the load with it. -/
def renderText (env : Externals) (text : Text) : Except LoadError Text :=
  match TextFormat.toLegacyText env.toLowercase text with
  | some rendered => .ok rendered
  | none => .error .panicked

def renderReconnectText (env : Externals) (reconnect : ReconnectConfig) :
    Except LoadError ReconnectConfig := do
  return { reconnect with
    title := ← renderText env reconnect.title
    subtitle := ← renderText env reconnect.subtitle
    attemptSuffix := ← renderText env reconnect.attemptSuffix
    actionBarFrames := ← reconnect.actionBarFrames.mapM (renderText env) }

/-- The prefix of the errors of route `index`. -/
def routeLabel (index : Nat) : String := "Route #" ++ toString index

/-- The `limit` of a usage block: a number of bytes, or a text with a unit. -/
def parseLimit (env : Externals) (u : Mapping) (label : String) : Except LoadError Int64 :=
  match u.get "limit".toList with
  | none => .ok (-1)
  | some (.number n) =>
    match n.asI64 with
    | some limit => .ok limit
    | none => bail (label ++ " is not a byte size")
  | some (.string s) =>
    -- `with_context` shows its own text in front
    match parseByteSize env.toLowercase s with
    | .ok limit => .ok limit
    | .error _ => bail label
  | some other => bail (label ++ " is not a byte size: " ++ String.ofList (env.debugValue other))

def parseUsage (env : Externals) (m : Mapping) (index : Nat) (key : String) :
    Except LoadError RouteMetricUsageConfig :=
  match getMap m key with
  | none => .ok .defaulted
  | some u => do
    let limit ← parseLimit env u (routeLabel index ++ " metrics." ++ key ++ ".limit")
    return ⟨(getBool u "enabled").getD false, limit⟩

def parseResetInterval (m : Mapping) (index : Nat) : Except LoadError Int64 :=
  match getDuration m "resetInterval" 0 with
  | .ok millis => .ok (max millis 0)
  | .error _ => bail (routeLabel index ++ " metrics.resetInterval")

def parseMetrics (env : Externals) (m : Option Mapping) (index : Nat) :
    Except LoadError (Option RouteMetricsConfig) :=
  match m with
  | none => .ok none
  | some m => do
    let resetIntervalMillis ← parseResetInterval m index
    let upload ← parseUsage env m index "upload"
    let download ← parseUsage env m index "download"
    let config : RouteMetricsConfig :=
      { file := (getStr m "file").filter fun s => !(trim s).isEmpty
        upload, download, resetIntervalMillis }
    return if config.active then some config else none

/-- A key every route must have, as a list of texts. -/
def requiredList (env : Externals) (r : Mapping) (index : Nat) (key : String) :
    Except LoadError (List Text) :=
  match r.get key.toList with
  | none => bail (routeLabel index ++ " missing '" ++ key ++ "'")
  | some v => .ok (stringList env v)

def parseRoute (env : Externals) (r : Mapping) (index : Nat) (messages : GateMessages) :
    Except LoadError Route := do
  let hosts ← requiredList env r index "host"
  let backendTemplates ← requiredList env r index "backend"
  let strategy ← Strategy.parse env (getStr r "strategy")
  let cachePingTtlMillis ← parseDurationMillis ((getStr r "cachePingTTL").getD "10s".toList)
  let reconnect ← parseReconnect env (getMap r "reconnect") messages.reconnect
  let reconnect ← renderReconnectText env reconnect
  let metrics ← parseMetrics env (getMap r "metrics") index
  return {
    hostPatterns := hosts.map (HostPattern.new env.toLowercase)
    backendTemplates
    strategy
    cachePingTtlMillis
    fallback := (getMap r "fallback").map (parseFallback env)
    modifyVirtualHost := (getBool r "modifyVirtualHost").getD false
    proxyProtocol := (getBool r "proxyProtocol").getD false
    priority := (getI32 r "priority").getD 0
    reconnect
    kickMessage := (getStr r "kickMessage").getD messages.kickMessage
    voicechatTemplates := ((r.get "voicechat".toList).map (stringList env)).getD []
    metrics }

/-! ### The file -/

def parseAutoBan (c : Option Mapping) : Except LoadError AutoBanConfig :=
  let d : AutoBanConfig := {}
  match c with
  | none => .ok d
  | some c => do
    return {
      enabled := (getBool c "enabled").getD d.enabled
      maxViolations := (getI32 c "maxViolations").getD d.maxViolations
      violationWindowMillis := ← getDuration c "violationWindow" d.violationWindowMillis
      banDurationMillis := ← getDuration c "banDuration" d.banDurationMillis }

def parseUdpThrottle (c : Option Mapping) : Except LoadError UdpThrottleConfig :=
  let d : UdpThrottleConfig := {}
  match c with
  | none => .ok d
  | some c => do
    return {
      maxSessions := (getI32 c "maxSessions").getD d.maxSessions
      maxSessionsPerIp := (getI32 c "maxSessionsPerIp").getD d.maxSessionsPerIp
      pendingPacketsPerSession :=
        (getI32 c "pendingPacketsPerSession").getD d.pendingPacketsPerSession
      idleTimeoutMillis := ← getDuration c "idleTimeout" d.idleTimeoutMillis
      noReplyTeardownMillis := ← getDuration c "noReplyTeardown" d.noReplyTeardownMillis }

def parseConnectionThrottle (c : Option Mapping) : Except LoadError ConnectionThrottleConfig :=
  let d : ConnectionThrottleConfig := {}
  match c with
  | none => .ok d
  | some c => do
    return {
      maxConnections := (getI32 c "maxConnections").getD d.maxConnections
      maxPerIpPerWindow := (getI32 c "maxPerIpPerWindow").getD d.maxPerIpPerWindow
      windowMillis := ← getDuration c "window" d.windowMillis }

def parseUdp (c : Option Mapping) (defaultProxyProtocol : Bool) : UdpConfig :=
  match c with
  | none => { proxyProtocol := defaultProxyProtocol }
  | some c => { proxyProtocol := (getBool c "proxyProtocol").getD defaultProxyProtocol }

def parseApi (a : Option Mapping) : ApiConfig :=
  let d : ApiConfig := {}
  match a with
  | none => d
  | some a =>
    { enabled := (getBool a "enabled").getD d.enabled
      bind := (getStr a "bind").getD d.bind
      token := ((getStr a "token").filter fun s => !(trim s).isEmpty).or d.token
      playersPageLimit := (getI32 a "playersPageLimit").getD d.playersPageLimit }

def parseConnectionTracking (c : Option Mapping) : Except LoadError ConnectionTrackingConfig :=
  let d : ConnectionTrackingConfig := {}
  match c with
  | none => .ok d
  | some c => do
    return {
      enabled := (getBool c "enabled").getD d.enabled
      dbPath := (getStr c "dbPath").getD d.dbPath
      retentionDays := (getI32 c "retentionDays").getD d.retentionDays
      maxRecords := (getI32 c "maxRecords").getD d.maxRecords
      queueCapacity := (getI32 c "queueCapacity").getD d.queueCapacity
      batchSize := (getI32 c "batchSize").getD d.batchSize
      flushIntervalMillis := ← getDuration c "flushInterval" d.flushIntervalMillis
      pruneIntervalMillis := ← getDuration c "pruneInterval" d.pruneIntervalMillis }

def parseStatsLogging (c : Option Mapping) : Except LoadError StatsLoggingConfig :=
  let d : StatsLoggingConfig := {}
  match c with
  | none => .ok d
  | some c => do
    return {
      enabled := (getBool c "enabled").getD d.enabled
      dbPath := (getStr c "dbPath").getD d.dbPath
      intervalMillis := ← getDuration c "interval" d.intervalMillis
      retentionDays := (getI32 c "retentionDays").getD d.retentionDays
      maxRecords := (getI32 c "maxRecords").getD d.maxRecords }

/-- A text that a `udpProxy` entry must have. -/
def requiredStr (m : Mapping) (label key : String) : Except LoadError Text :=
  match getStr m key with
  | some value => .ok value
  | none => bail (label ++ " missing '" ++ key ++ "'")

def parseUdpProxy (index : Nat) (entry : Value) : Except LoadError UdpProxyConfig :=
  let label := "udpProxy #" ++ toString index
  match entry.asMapping with
  | none => bail (label ++ " is not a map")
  | some m => do
    let bind ← requiredStr m label "bind"
    let backend ← requiredStr m label "backend"
    return ⟨bind, backend, (getBool m "logSessions").getD true⟩

/-- The loop over the entries of a list, each with its position in the file. -/
def parseIndexed {α : Type} (parse : Nat → Value → Except LoadError α) :
    Nat → List Value → Except LoadError (List α)
  | _, [] => .ok []
  | index, entry :: rest => do
    let parsed ← parse index entry
    let others ← parseIndexed parse (index + 1) rest
    return parsed :: others

def parseRouteEntry (env : Externals) (messages : GateMessages) (index : Nat) (r : Value) :
    Except LoadError Route :=
  match r.asMapping with
  | none => bail (routeLabel index ++ " is not a map")
  | some map => parseRoute env map index messages

/-- Higher priority first. -/
def byPriority (a b : Route) : Prop := b.priority.toInt ≤ a.priority.toInt

instance : DecidableRel byPriority := fun a b =>
  inferInstanceAs (Decidable (b.priority.toInt ≤ a.priority.toInt))

instance : IsTrans Route byPriority := ⟨fun _ _ _ one two => Int.le_trans two one⟩

instance : Std.Total byPriority := ⟨fun a b => Int.le_total b.priority.toInt a.priority.toInt⟩

/-- `sort_by(|a, b| b.priority.cmp(&a.priority))`, a stable sort. -/
def sortRoutes (routes : List Route) : List Route := routes.insertionSort byPriority

/-- Where the settings stand: under a top-level `config:` mapping, or at the top. -/
def configSection (root : Value) : Mapping :=
  let rootMap := root.asMapping.getD []
  (getMap rootMap "config").getD rootMap

def rawRoutes (config : Mapping) : List Value :=
  ((config.get "routes".toList).bind Value.asSequence).getD []

/-- The settings other than the routes, which are read and sorted before. -/
def loadSettings (config : Mapping) (routes : List Route) : Except LoadError GateConfig := do
  let defaults : GateConfig := {}
  let udpProxies ←
    parseIndexed parseUdpProxy 0 (((config.get "udpProxy".toList).bind Value.asSequence).getD [])
  let proxyProtocol := (getBool config "proxyProtocol").getD false
  let connectionTracking ← parseConnectionTracking (getMap config "connectionTracking")
  let statsLogging ← parseStatsLogging (getMap config "statsLogging")
  let loginTimeoutMillis ← getDuration config "loginTimeout" defaults.loginTimeoutMillis
  let connectionThrottle ← parseConnectionThrottle (getMap config "connectionThrottle")
  let autoBan ← parseAutoBan (getMap config "autoBan")
  let udpThrottle ← parseUdpThrottle (getMap config "udpThrottle")
  return {
    bind := (getStr config "bind").getD defaults.bind
    routes
    udp := parseUdp (getMap config "udp") proxyProtocol
    udpProxies
    api := parseApi (getMap config "api")
    connectionTracking
    statsLogging
    workerThreads := (getI32 config "workerThreads").getD 0
    logConnections := (getBool config "logConnections").getD false
    logLevel := (getStr config "logLevel").getD defaults.logLevel
    proxyProtocol
    loginTimeoutMillis
    maxConnectionsPerIp := (getI32 config "maxConnectionsPerIp").getD defaults.maxConnectionsPerIp
    connectionThrottle
    autoBan
    udpThrottle
    soBacklog := (getI32 config "soBacklog").getD defaults.soBacklog
    maxHeldReconnectSessions :=
      (getI32 config "maxHeldReconnectSessions").getD defaults.maxHeldReconnectSessions }

/-- `load_config` after the text is parsed. -/
def loadValue (env : Externals) (root : Value) (messages : GateMessages) :
    Except LoadError GateConfig := do
  let config := configSection root
  let routes ← parseIndexed (parseRouteEntry env messages) 0 (rawRoutes config)
  loadSettings config (sortRoutes routes)

/-- `load_config` on the contents of the file at `path`, `none` when there is no such file. -/
def loadConfig {F : Type} (env : Externals) (format : Format F) (path : Text) (file : Option F)
    (messages : GateMessages) : Except LoadError GateConfig :=
  match file with
  | none => bail ("Config file not found: " ++ String.ofList path)
  | some text =>
    match format.fromStr text with
    | .error message => .error (.failed message)
    | .ok root => loadValue env root messages

/-! ### What a load depends on -/

theorem bind_eq_ok {ε α β : Type} {x : Except ε α} {f : α → Except ε β} {b : β} :
    (x >>= f) = .ok b ↔ ∃ a, x = .ok a ∧ f a = .ok b := by
  cases x <;> simp [bind, Except.bind]

private theorem parseLimit_label {env : Externals} {u : Mapping} {label : String} {limit : Int64}
    (other : String) (parsed : parseLimit env u label = .ok limit) :
    parseLimit env u other = .ok limit := by
  unfold parseLimit at parsed ⊢
  generalize u.get "limit".toList = entry at parsed ⊢
  cases entry with
  | none => exact parsed
  | some v =>
    cases v with
    | number n =>
      cases known : n.asI64 with
      | some value => simpa [known] using parsed
      | none => simp [known, bail] at parsed
    | string s =>
      cases size : parseByteSize env.toLowercase s with
      | ok value => simpa [size] using parsed
      | error e => simp [size, bail] at parsed
    | _ => simp [bail] at parsed

/-- The index of a route shows up in error messages only. -/
theorem parseUsage_index {env : Externals} {m : Mapping} {index : Nat} {key : String}
    {usage : RouteMetricUsageConfig} (other : Nat)
    (parsed : parseUsage env m index key = .ok usage) : parseUsage env m other key = .ok usage := by
  unfold parseUsage at parsed ⊢
  split at parsed
  next => exact parsed
  next u _ =>
    obtain ⟨limit, found, same⟩ := bind_eq_ok.mp parsed
    exact bind_eq_ok.mpr ⟨limit, parseLimit_label _ found, same⟩

private theorem parseMetrics_index {env : Externals} {m : Option Mapping} {index : Nat}
    {metrics : Option RouteMetricsConfig} (other : Nat)
    (parsed : parseMetrics env m index = .ok metrics) :
    parseMetrics env m other = .ok metrics := by
  cases m with
  | none => exact parsed
  | some m =>
    obtain ⟨millis, reset, parsed⟩ := bind_eq_ok.mp parsed
    obtain ⟨upload, up, parsed⟩ := bind_eq_ok.mp parsed
    obtain ⟨download, down, parsed⟩ := bind_eq_ok.mp parsed
    refine bind_eq_ok.mpr ⟨millis, ?_, bind_eq_ok.mpr ⟨upload, parseUsage_index other up,
      bind_eq_ok.mpr ⟨download, parseUsage_index other down, parsed⟩⟩⟩
    unfold parseResetInterval at reset ⊢
    split at reset
    next => exact reset
    next => cases reset

private theorem requiredList_index {env : Externals} {r : Mapping} {index : Nat} {key : String}
    {texts : List Text} (other : Nat) (found : requiredList env r index key = .ok texts) :
    requiredList env r other key = .ok texts := by
  unfold requiredList at found ⊢
  split at found
  next => cases found
  next => exact found

private theorem parseRouteEntry_index {env : Externals} {messages : GateMessages} {index : Nat}
    {r : Value} {route : Route} (other : Nat)
    (parsed : parseRouteEntry env messages index r = .ok route) :
    parseRouteEntry env messages other r = .ok route := by
  unfold parseRouteEntry at parsed ⊢
  split at parsed
  next => cases parsed
  next map _ =>
    obtain ⟨hosts, host, parsed⟩ := bind_eq_ok.mp parsed
    obtain ⟨backends, backend, parsed⟩ := bind_eq_ok.mp parsed
    obtain ⟨strategy, strategic, parsed⟩ := bind_eq_ok.mp parsed
    obtain ⟨ttl, cached, parsed⟩ := bind_eq_ok.mp parsed
    obtain ⟨reconnect, texts, parsed⟩ := bind_eq_ok.mp parsed
    obtain ⟨rendered, rendering, parsed⟩ := bind_eq_ok.mp parsed
    obtain ⟨metrics, measured, parsed⟩ := bind_eq_ok.mp parsed
    refine bind_eq_ok.mpr ⟨hosts, requiredList_index other host, ?_⟩
    refine bind_eq_ok.mpr ⟨backends, requiredList_index other backend, ?_⟩
    refine bind_eq_ok.mpr ⟨strategy, strategic, bind_eq_ok.mpr ⟨ttl, cached, ?_⟩⟩
    refine bind_eq_ok.mpr ⟨reconnect, texts, bind_eq_ok.mpr ⟨rendered, rendering, ?_⟩⟩
    exact bind_eq_ok.mpr ⟨metrics, parseMetrics_index other measured, parsed⟩

/-- The route an entry of the list is read as, whatever its place. -/
def routeOf (env : Externals) (messages : GateMessages) (r : Value) : Option Route :=
  (parseRouteEntry env messages 0 r).toOption

theorem parseRouteEntry_eq_ok {env : Externals} {messages : GateMessages} {index : Nat}
    {r : Value} {route : Route} :
    parseRouteEntry env messages index r = .ok route ↔ routeOf env messages r = some route := by
  have first : parseRouteEntry env messages 0 r = .ok route ↔
      routeOf env messages r = some route := by
    unfold routeOf
    cases parseRouteEntry env messages 0 r <;> simp [Except.toOption]
  rw [← first]
  exact ⟨parseRouteEntry_index 0, parseRouteEntry_index index⟩

/-- The routes of a file are read one by one. -/
theorem parseRoutes_eq_ok {env : Externals} {messages : GateMessages} {index : Nat}
    {raw : List Value} {routes : List Route} :
    parseIndexed (parseRouteEntry env messages) index raw = .ok routes ↔
      raw.map (routeOf env messages) = routes.map some := by
  induction raw generalizing index routes with
  | nil =>
    cases routes with
    | nil => simp [parseIndexed]
    | cons route routes => simp [parseIndexed]
  | cons r raw ih =>
    simp only [parseIndexed]
    constructor
    · intro parsed
      obtain ⟨route, first, parsed⟩ := bind_eq_ok.mp parsed
      obtain ⟨others, rest, same⟩ := bind_eq_ok.mp parsed
      cases same
      rw [List.map_cons, List.map_cons, parseRouteEntry_eq_ok.mp first, ih.mp rest]
    · intro read
      cases routes with
      | nil => simp at read
      | cons route routes =>
        obtain ⟨first, rest⟩ := List.cons.inj read
        exact bind_eq_ok.mpr ⟨route, parseRouteEntry_eq_ok.mpr first,
          bind_eq_ok.mpr ⟨routes, ih.mpr rest, rfl⟩⟩

/-- Two sections that differ in `routes:` alone give the same other settings. -/
theorem loadSettings_congr {config config' : Mapping} {routes routes' : List Route}
    {loaded : GateConfig}
    (same : ∀ key : String, key ≠ "routes" → config'.get key.toList = config.get key.toList)
    (ok : loadSettings config routes = .ok loaded) :
    loadSettings config' routes' = .ok { loaded with routes := routes' } := by
  have str (name : String) (other : name ≠ "routes") :
      getStr config' name = getStr config name := by
    rw [getStr, same name other, getStr]
  have bool (name : String) (other : name ≠ "routes") :
      getBool config' name = getBool config name := by
    rw [getBool, same name other, getBool]
  have i32 (name : String) (other : name ≠ "routes") :
      getI32 config' name = getI32 config name := by
    rw [getI32, getI64, same name other, getI32, getI64]
  have map (name : String) (other : name ≠ "routes") :
      getMap config' name = getMap config name := by
    rw [getMap, same name other, getMap]
  have settings : loadSettings config' routes' = loadSettings config routes' := by
    unfold loadSettings getDuration
    simp (disch := decide) only [same, str, bool, i32, map]
  rw [settings]
  obtain ⟨udpProxies, proxies, ok⟩ := bind_eq_ok.mp ok
  obtain ⟨connectionTracking, tracking, ok⟩ := bind_eq_ok.mp ok
  obtain ⟨statsLogging, stats, ok⟩ := bind_eq_ok.mp ok
  obtain ⟨loginTimeoutMillis, timeout, ok⟩ := bind_eq_ok.mp ok
  obtain ⟨connectionThrottle, throttle, ok⟩ := bind_eq_ok.mp ok
  obtain ⟨autoBan, ban, ok⟩ := bind_eq_ok.mp ok
  obtain ⟨udpThrottle, udp, ok⟩ := bind_eq_ok.mp ok
  cases ok
  refine bind_eq_ok.mpr ⟨udpProxies, proxies, bind_eq_ok.mpr ⟨connectionTracking, tracking, ?_⟩⟩
  refine bind_eq_ok.mpr ⟨statsLogging, stats, bind_eq_ok.mpr ⟨loginTimeoutMillis, timeout, ?_⟩⟩
  refine bind_eq_ok.mpr ⟨connectionThrottle, throttle, bind_eq_ok.mpr ⟨autoBan, ban, ?_⟩⟩
  exact bind_eq_ok.mpr ⟨udpThrottle, udp, rfl⟩

/-- An accepted document has routes that are read one by one and then sorted, and settings that
are read with them. -/
theorem loadValue_eq_ok {env : Externals} {messages : GateMessages} {root : Value}
    {loaded : GateConfig} (ok : loadValue env root messages = .ok loaded) :
    ∃ routes, (rawRoutes (configSection root)).map (routeOf env messages) = routes.map some ∧
      loaded.routes = sortRoutes routes ∧
      loadSettings (configSection root) loaded.routes = .ok loaded := by
  obtain ⟨routes, parsed, settings⟩ := bind_eq_ok.mp ok
  have sorted : loaded = { loaded with routes := sortRoutes routes } :=
    Except.ok.inj (settings.symm.trans (loadSettings_congr (fun _ _ => rfl) settings))
  have same := congrArg GateConfig.routes sorted
  exact ⟨routes, parseRoutes_eq_ok.mp parsed, same, same ▸ settings⟩

/-! ### Messages -/

def parseReconnectMessages (r : Option Mapping) : ReconnectMessages :=
  let defaults : ReconnectMessages := {}
  match r with
  | none => defaults
  | some r =>
    { title := (getStr r "title").getD defaults.title
      subtitle := (getStr r "subtitle").getD defaults.subtitle
      attemptSuffix := (getStr r "attemptSuffix").getD defaults.attemptSuffix
      actionBarFrames :=
        (((r.get "actionBarFrames".toList).bind Value.asSequence).map
          fun seq => seq.filterMap Value.asStr).getD defaults.actionBarFrames }

/-- `GateMessages::parse` after the text is parsed. -/
def messagesValue (root : Value) : GateMessages :=
  let rootMap := root.asMapping.getD []
  let messages := (getMap rootMap "messages").getD rootMap
  let defaults : GateMessages := {}
  { kickMessage := (getStr messages "kickMessage").getD defaults.kickMessage
    metricsLimitKickMessage :=
      (getStr messages "metricsLimitKickMessage").getD defaults.metricsLimitKickMessage
    reconnect := parseReconnectMessages (getMap messages "reconnect") }

/-- `GateMessages::load` on the contents of the file at `path`. -/
def loadMessages {F : Type} (format : Format F) (path : Text) (file : Option F) :
    Except LoadError GateMessages :=
  match file with
  | none => bail ("Messages file not found: " ++ String.ofList path)
  | some text =>
    match format.fromStr text with
    | .error message => .error (.failed message)
    | .ok root => .ok (messagesValue root)

end MCGate.Config
