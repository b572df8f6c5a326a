import MCGate.Std.Display
import MCGate.Std.Exposition
import MCGate.Std.HashMap

/-!
# The metrics as text

`metrics_text` writes a snapshot for Prometheus to scrape. It escapes the hosts and backends in
the labels, so what clients and the configuration put there is read back as it is, and adds no
line and no sample. The headers of the metrics that share a loop are written before the loop, so
their samples do not stand with their own headers.
-/
namespace MCGate.Api

open Exposition

structure BackendMetric where
  routeIndex : Nat
  hosts : List Text
  backend : Text
  active : Int
  latencyMillis : Option Int

structure RouteMetric where
  routeIndex : Nat
  hosts : List Text
  uploadEnabled : Bool
  uploadBytes : Int
  uploadLimit : Int
  downloadEnabled : Bool
  downloadBytes : Int
  downloadLimit : Int

structure MetricsSnapshot where
  playersOnline : Nat
  onlineByHost : HashMap Text Nat
  uptimeSeconds : Float
  backends : List BackendMetric
  trackingEnabled : Bool
  routeMetrics : List RouteMetric

/-- `Display` of `f64`, which writes a decimal number, `inf`, `-inf` or `NaN`. -/
structure FloatDisplay where
  display : Float → Text
  isValue : ∀ x, Exposition.isValue (display x)

/-! ### Writing -/

/-- `str::replace` of a character -/
def replaceChar (s : Text) (c : Char) (new : Text) : Text :=
  s.flatMap fun d => if d = c then new else [d]

def escapeLabel (v : Text) : Text :=
  replaceChar (replaceChar (replaceChar v '\\' ['\\', '\\']) '"' ['\\', '"']) '\n' ['\\', 'n']

/-- `hosts.join(",")` -/
def joinHosts (hosts : List Text) : Text := [','].intercalate hosts

/-- The body of the loop over the backends. -/
def backendText (b : BackendMetric) : Text :=
  let hostsLabel := escapeLabel (joinHosts b.hosts)
  let labels := "route=\"".toList ++ displayInt b.routeIndex ++ "\",hosts=\"".toList ++
    hostsLabel ++ "\",backend=\"".toList ++ escapeLabel b.backend ++ "\"".toList
  "mcgate_route_backend_active_connections\x7b".toList ++ labels ++ "\x7d ".toList ++
    displayInt b.active ++ "\n".toList ++
  match b.latencyMillis with
  | none => []
  | some latency =>
    "mcgate_route_backend_latency_ms\x7b".toList ++ labels ++ "\x7d ".toList ++
      displayInt latency ++ "\n".toList

/-- The body of the loop over the route metrics. -/
def routeText (m : RouteMetric) : Text :=
  let labels := "route=\"".toList ++ displayInt m.routeIndex ++ "\",hosts=\"".toList ++
    escapeLabel (joinHosts m.hosts) ++ "\"".toList
  (if m.uploadEnabled then
    "mcgate_route_bytes_uploaded_total\x7b".toList ++ labels ++ "\x7d ".toList ++
      displayInt m.uploadBytes ++ "\n".toList ++
    if 0 ≤ m.uploadLimit then
      "mcgate_route_bytes_limit\x7b".toList ++ labels ++ ",direction=\"upload\"\x7d ".toList ++
        displayInt m.uploadLimit ++ "\n".toList
    else []
  else []) ++
  if m.downloadEnabled then
    "mcgate_route_bytes_downloaded_total\x7b".toList ++ labels ++ "\x7d ".toList ++
      displayInt m.downloadBytes ++ "\n".toList ++
    if 0 ≤ m.downloadLimit then
      "mcgate_route_bytes_limit\x7b".toList ++ labels ++ ",direction=\"download\"\x7d ".toList ++
        displayInt m.downloadLimit ++ "\n".toList
    else []
  else []

def routeHeaders : Text :=
  "# HELP mcgate_route_bytes_uploaded_total Cumulative client->backend bytes relayed per route.\n".toList ++
  "# TYPE mcgate_route_bytes_uploaded_total counter\n".toList ++
  "# HELP mcgate_route_bytes_downloaded_total Cumulative backend->client bytes relayed per route.\n".toList ++
  "# TYPE mcgate_route_bytes_downloaded_total counter\n".toList ++
  "# HELP mcgate_route_bytes_limit Configured byte ceiling per route/direction (absent when unlimited).\n".toList ++
  "# TYPE mcgate_route_bytes_limit gauge\n".toList

def metricsText (float : FloatDisplay) (s : MetricsSnapshot) : Text :=
  "# HELP mcgate_players_online Currently connected players.\n".toList ++
  "# TYPE mcgate_players_online gauge\n".toList ++
  ("mcgate_players_online ".toList ++ displayInt s.playersOnline ++ "\n".toList) ++
  "# HELP mcgate_host_players_online Currently connected players per virtual host.\n".toList ++
  "# TYPE mcgate_host_players_online gauge\n".toList ++
  (s.onlineByHost.entries.flatMap fun entry =>
    "mcgate_host_players_online\x7bhost=\"".toList ++ escapeLabel entry.1 ++ "\"\x7d ".toList ++
      displayInt entry.2 ++ "\n".toList) ++
  "# HELP mcgate_uptime_seconds Seconds since the process started.\n".toList ++
  "# TYPE mcgate_uptime_seconds gauge\n".toList ++
  ("mcgate_uptime_seconds ".toList ++ float.display s.uptimeSeconds ++ "\n".toList) ++
  "# HELP mcgate_route_backend_active_connections Active relayed connections per backend.\n".toList ++
  "# TYPE mcgate_route_backend_active_connections gauge\n".toList ++
  "# HELP mcgate_route_backend_latency_ms Last-observed backend connect/ping latency.\n".toList ++
  "# TYPE mcgate_route_backend_latency_ms gauge\n".toList ++
  s.backends.flatMap backendText ++
  "# HELP mcgate_connection_tracking_enabled Whether connection-history tracking is enabled.\n".toList ++
  "# TYPE mcgate_connection_tracking_enabled gauge\n".toList ++
  ("mcgate_connection_tracking_enabled ".toList ++
    displayInt (if s.trackingEnabled then 1 else 0) ++ "\n".toList) ++
  if s.routeMetrics.isEmpty then [] else routeHeaders ++ s.routeMetrics.flatMap routeText

/-! ### Escaping -/

private theorem replaceChar_append (s t : Text) (c : Char) (new : Text) :
    replaceChar (s ++ t) c new = replaceChar s c new ++ replaceChar t c new :=
  List.flatMap_append

/-- Replaced one after the other, the three characters are escaped as the format has it: the
backslashes are doubled before others are added. -/
theorem escapeLabel_eq (v : Text) : escapeLabel v = escape v := by
  induction v with
  | nil => rfl
  | cons c v ih =>
    have first : escapeLabel (c :: v) = escapeLabel [c] ++ escapeLabel v := by
      rw [← List.singleton_append, escapeLabel, replaceChar_append, replaceChar_append,
        replaceChar_append]
      rfl
    rw [first, ih, show escape (c :: v) = escapeChar c ++ escape v from rfl, escapeChar]
    congr 1
    split_ifs with backslash quote newline
    · rw [backslash]
      decide
    · rw [quote]
      decide
    · rw [newline]
      decide
    · simp [escapeLabel, replaceChar, backslash, quote, newline]

/-! ### The lines of the text -/

/-- The metrics. -/
inductive Metric where
  | playersOnline
  | hostPlayersOnline
  | uptimeSeconds
  | activeConnections
  | latencyMs
  | trackingEnabled
  | bytesUploaded
  | bytesDownloaded
  | bytesLimit
  deriving DecidableEq, Repr

def Metric.name : Metric → Text
  | .playersOnline => "mcgate_players_online".toList
  | .hostPlayersOnline => "mcgate_host_players_online".toList
  | .uptimeSeconds => "mcgate_uptime_seconds".toList
  | .activeConnections => "mcgate_route_backend_active_connections".toList
  | .latencyMs => "mcgate_route_backend_latency_ms".toList
  | .trackingEnabled => "mcgate_connection_tracking_enabled".toList
  | .bytesUploaded => "mcgate_route_bytes_uploaded_total".toList
  | .bytesDownloaded => "mcgate_route_bytes_downloaded_total".toList
  | .bytesLimit => "mcgate_route_bytes_limit".toList

def Metric.all : List Metric :=
  [.playersOnline, .hostPlayersOnline, .uptimeSeconds, .activeConnections, .latencyMs,
    .trackingEnabled, .bytesUploaded, .bytesDownloaded, .bytesLimit]

private theorem Metric.mem_all (m : Metric) : m ∈ Metric.all := by
  cases m <;> decide

theorem Metric.name_inj {m n : Metric} : m.name = n.name ↔ m = n := by
  have distinct : (Metric.all.map Metric.name).Nodup := by decide +kernel
  exact ⟨fun same => List.inj_on_of_nodup_map distinct m.mem_all n.mem_all same, congrArg _⟩

/-- The `# HELP` and `# TYPE` lines of a metric. -/
def header (metric : Metric) (doc kind : String) : List Line :=
  [.help metric.name doc.toList, .type metric.name kind.toList]

def backendLabels (b : BackendMetric) : List (Text × Text) :=
  [("route".toList, displayInt b.routeIndex), ("hosts".toList, joinHosts b.hosts),
    ("backend".toList, b.backend)]

def activeSample (b : BackendMetric) : Sample :=
  ⟨Metric.activeConnections.name, backendLabels b, displayInt b.active⟩

def latencySample (b : BackendMetric) (latency : Int) : Sample :=
  ⟨Metric.latencyMs.name, backendLabels b, displayInt latency⟩

def routeLabels (m : RouteMetric) : List (Text × Text) :=
  [("route".toList, displayInt m.routeIndex), ("hosts".toList, joinHosts m.hosts)]

def uploadSample (m : RouteMetric) : Sample :=
  ⟨Metric.bytesUploaded.name, routeLabels m, displayInt m.uploadBytes⟩

def downloadSample (m : RouteMetric) : Sample :=
  ⟨Metric.bytesDownloaded.name, routeLabels m, displayInt m.downloadBytes⟩

def limitSample (m : RouteMetric) (direction : String) (limit : Int) : Sample :=
  ⟨Metric.bytesLimit.name, routeLabels m ++ [("direction".toList, direction.toList)],
    displayInt limit⟩

def hostSample (entry : Σ _ : Text, Nat) : Sample :=
  ⟨Metric.hostPlayersOnline.name, [("host".toList, entry.1)], displayInt entry.2⟩

def backendLines (b : BackendMetric) : List Line :=
  .sample (activeSample b) ::
    match b.latencyMillis with
    | none => []
    | some latency => [.sample (latencySample b latency)]

def routeLines (m : RouteMetric) : List Line :=
  (if m.uploadEnabled then
    .sample (uploadSample m) ::
      if 0 ≤ m.uploadLimit then [.sample (limitSample m "upload" m.uploadLimit)] else []
  else []) ++
  if m.downloadEnabled then
    .sample (downloadSample m) ::
      if 0 ≤ m.downloadLimit then [.sample (limitSample m "download" m.downloadLimit)] else []
  else []

def routeHeaderLines : List Line :=
  header .bytesUploaded "Cumulative client->backend bytes relayed per route." "counter" ++
  header .bytesDownloaded "Cumulative backend->client bytes relayed per route." "counter" ++
  header .bytesLimit "Configured byte ceiling per route/direction (absent when unlimited)." "gauge"

/-- The lines that a snapshot is written as, with the strings of the labels as they are. -/
def metricsLines (float : FloatDisplay) (s : MetricsSnapshot) : List Line :=
  header .playersOnline "Currently connected players." "gauge" ++
  [.sample ⟨Metric.playersOnline.name, [], displayInt s.playersOnline⟩] ++
  header .hostPlayersOnline "Currently connected players per virtual host." "gauge" ++
  s.onlineByHost.entries.flatMap (fun entry => [.sample (hostSample entry)]) ++
  header .uptimeSeconds "Seconds since the process started." "gauge" ++
  [.sample ⟨Metric.uptimeSeconds.name, [], float.display s.uptimeSeconds⟩] ++
  header .activeConnections "Active relayed connections per backend." "gauge" ++
  header .latencyMs "Last-observed backend connect/ping latency." "gauge" ++
  s.backends.flatMap backendLines ++
  header .trackingEnabled "Whether connection-history tracking is enabled." "gauge" ++
  [.sample ⟨Metric.trackingEnabled.name, [], displayInt (if s.trackingEnabled then 1 else 0)⟩] ++
  if s.routeMetrics.isEmpty then [] else routeHeaderLines ++ s.routeMetrics.flatMap routeLines

/-! ### Reading the text -/

private theorem isValue_displayInt (n : Int) : isValue (displayInt n) := by
  have decimal (k : Nat) : isDecimal (Nat.toDigits 10 k) := by
    have digits : ∀ c ∈ Nat.toDigits 10 k, c.isDigit :=
      fun c member => Nat.isDigit_of_mem_toDigits (by decide) (by decide) member
    unfold isDecimal
    rw [List.dropWhile_eq_nil_iff.mpr digits]
    simp [Nat.toDigits_ne_nil]
  rw [displayInt_eq]
  split
  · have unsigned (digits : Text) : Nat.toDigits 10 n.toNat ≠ '-' :: digits := by
      intro same
      exact notMem_decimal (c := '-') (by decide) n.toNat (same ▸ List.mem_cons_self)
    unfold isValue
    split
    next same => exact absurd same (unsigned _)
    next => simp [decimal]
  · simp [isValue, decimal]

private theorem isName_name (metric : Metric) : isName metric.name := by
  cases metric <;> exact of_spelled (fun text => isName text) rfl (by decide +kernel)

private theorem escape_displayInt (n : Int) : escape (displayInt n) = displayInt n := by
  have plain {c : Char} (member : c ∈ displayInt n) : escapeChar c = [c] := by
    have apart {d : Char} (other : ∀ k < 16, d ≠ Nat.digitChar k) (sign : d ≠ '-') : c ≠ d := by
      rintro rfl
      exact notMem_displayInt other sign n member
    have backslash : c ≠ '\\' := apart (by decide) (by decide)
    have quote : c ≠ '"' := apart (by decide) (by decide)
    have newline : c ≠ '\n' := apart (by decide) (by decide)
    rw [escapeChar, if_neg backslash, if_neg quote, if_neg newline]
  rw [escape, List.flatMap_congr fun c member => plain member, List.flatMap_singleton']

/-! The names of labels, and what stands between their values. -/

private theorem quote_literal : "\"".toList = ['"'] := by decide
private theorem close_literal : "\x7d ".toList = ['}', ' '] := by decide
private theorem newline_literal : "\n".toList = ['\n'] := by decide
private theorem route_literal : "route=\"".toList = "route".toList ++ ['=', '"'] := by decide
private theorem hosts_literal :
    "\",hosts=\"".toList = ['"', ','] ++ "hosts".toList ++ ['=', '"'] := by
  decide

private theorem backendText_eq (b : BackendMetric) :
    backendText b = (activeSample b).write ++ ['\n'] ++
      match b.latencyMillis with
      | none => []
      | some latency => (latencySample b latency).write ++ ['\n'] := by
  -- the literals of the source, taken apart where the format has its parts
  have active : "mcgate_route_backend_active_connections\x7b".toList =
    Metric.activeConnections.name ++ ['{'] := toList_eq_append rfl rfl rfl
  have latency : "mcgate_route_backend_latency_ms\x7b".toList =
    Metric.latencyMs.name ++ ['{'] := toList_eq_append rfl rfl rfl
  have backend : "\",backend=\"".toList =
    ['"', ','] ++ "backend".toList ++ ['=', '"'] := by decide
  unfold backendText activeSample latencySample backendLabels
  rw [active, latency, route_literal, hosts_literal, backend, quote_literal, close_literal,
    newline_literal]
  simp only [Sample.write, writeLabels, writeLabel, escapeLabel_eq, escape_displayInt]
  cases b.latencyMillis with
  | none => simp only [List.append_assoc, List.cons_append, List.nil_append, List.append_nil]
  | some latency => simp only [List.append_assoc, List.cons_append, List.nil_append]

private theorem routeText_eq (m : RouteMetric) :
    routeText m =
      (if m.uploadEnabled then
        (uploadSample m).write ++ ['\n'] ++
          if 0 ≤ m.uploadLimit then (limitSample m "upload" m.uploadLimit).write ++ ['\n'] else []
      else []) ++
      if m.downloadEnabled then
        (downloadSample m).write ++ ['\n'] ++
          if 0 ≤ m.downloadLimit then
            (limitSample m "download" m.downloadLimit).write ++ ['\n'] else []
      else [] := by
  have uploaded : "mcgate_route_bytes_uploaded_total\x7b".toList =
    Metric.bytesUploaded.name ++ ['{'] := toList_eq_append rfl rfl rfl
  have downloaded : "mcgate_route_bytes_downloaded_total\x7b".toList =
    Metric.bytesDownloaded.name ++ ['{'] := toList_eq_append rfl rfl rfl
  have limit : "mcgate_route_bytes_limit\x7b".toList =
    Metric.bytesLimit.name ++ ['{'] := toList_eq_append rfl rfl rfl
  have up : ",direction=\"upload\"\x7d ".toList =
    [','] ++ "direction".toList ++ ['=', '"'] ++ escape "upload".toList ++ ['"', '}', ' '] := by
      decide
  have down : ",direction=\"download\"\x7d ".toList =
    [','] ++ "direction".toList ++ ['=', '"'] ++ escape "download".toList ++ ['"', '}', ' '] := by
      decide
  unfold routeText uploadSample downloadSample limitSample routeLabels
  rw [uploaded, downloaded, limit, up, down, route_literal, hosts_literal, quote_literal,
    close_literal, newline_literal]
  simp only [Sample.write, writeLabels, writeLabel, escapeLabel_eq, escape_displayInt,
    List.append_assoc, List.cons_append, List.nil_append]

private theorem hostText_eq (entry : Σ _ : Text, Nat) :
    "mcgate_host_players_online\x7bhost=\"".toList ++ escapeLabel entry.1 ++ "\"\x7d ".toList ++
      displayInt entry.2 ++ "\n".toList = (hostSample entry).write ++ ['\n'] := by
  have front : "mcgate_host_players_online\x7bhost=\"".toList =
    Metric.hostPlayersOnline.name ++ '{' :: ("host".toList ++ ['=', '"']) :=
      toList_eq_append rfl rfl rfl
  have close : "\"\x7d ".toList = ['"', '}', ' '] := by decide
  unfold hostSample
  rw [front, close, newline_literal]
  simp only [Sample.write, writeLabels, writeLabel, escapeLabel_eq, List.append_assoc,
    List.cons_append, List.nil_append]

/-! The samples are samples of the format. -/

private theorem reads_metric {metric : Metric} {labels : List (Text × Text)} {value : Text}
    (labelled : labels.all fun label => isLabelName label.1) (valid : isValue value) :
    Reads (Sample.write ⟨metric.name, labels, value⟩ ++ ['\n'])
      [.sample ⟨metric.name, labels, value⟩] :=
  reads_sample ⟨isName_name metric, labelled, valid⟩

private theorem backendLabels_valid (b : BackendMetric) :
    (backendLabels b).all fun label => isLabelName label.1 := by
  have route : isLabelName "route".toList := by decide
  have hosts : isLabelName "hosts".toList := by decide
  have backend : isLabelName "backend".toList := by decide
  simp only [backendLabels, List.all_cons, List.all_nil, route, hosts, backend, Bool.and_self]

private theorem routeLabels_valid (m : RouteMetric) :
    (routeLabels m).all fun label => isLabelName label.1 := by
  have route : isLabelName "route".toList := by decide
  have hosts : isLabelName "hosts".toList := by decide
  simp only [routeLabels, List.all_cons, List.all_nil, route, hosts, Bool.and_self]

private theorem reads_limit (m : RouteMetric) (direction : String) (limit : Int) :
    Reads (if 0 ≤ limit then (limitSample m direction limit).write ++ ['\n'] else [])
      (if 0 ≤ limit then [.sample (limitSample m direction limit)] else []) := by
  have labelled : (routeLabels m ++ [("direction".toList, direction.toList)]).all
      fun label => isLabelName label.1 := by
    have known : isLabelName "direction".toList := by decide
    rw [List.all_append, routeLabels_valid, List.all_cons, known]
    rfl
  split
  · exact reads_metric labelled (isValue_displayInt limit)
  · exact Reads.nil

private theorem reads_backendText (b : BackendMetric) : Reads (backendText b) (backendLines b) := by
  rw [backendText_eq, backendLines]
  refine (reads_metric (backendLabels_valid b) (isValue_displayInt b.active)).append ?_
  cases b.latencyMillis with
  | none => exact Reads.nil
  | some latency => exact reads_metric (backendLabels_valid b) (isValue_displayInt latency)

private theorem reads_routeText (m : RouteMetric) : Reads (routeText m) (routeLines m) := by
  rw [routeText_eq, routeLines]
  refine Reads.append ?_ ?_
  · split
    · exact (reads_metric (routeLabels_valid m) (isValue_displayInt m.uploadBytes)).append
        (reads_limit m "upload" m.uploadLimit)
    · exact Reads.nil
  · split
    · exact (reads_metric (routeLabels_valid m) (isValue_displayInt m.downloadBytes)).append
        (reads_limit m "download" m.downloadLimit)
    · exact Reads.nil

private theorem reads_hostText (entry : Σ _ : Text, Nat) :
    Reads ("mcgate_host_players_online\x7bhost=\"".toList ++ escapeLabel entry.1 ++
      "\"\x7d ".toList ++ displayInt entry.2 ++ "\n".toList) [.sample (hostSample entry)] := by
  have labelled : [("host".toList, entry.1)].all fun label => isLabelName label.1 := by
    have known : isLabelName "host".toList := by decide
    rw [List.all_cons, known]
    rfl
  rw [hostText_eq]
  exact reads_metric labelled (isValue_displayInt entry.2)

/-- A sample without labels. -/
theorem reads_plain {metric : Metric} {front value : Text} (named : front = metric.name ++ [' '])
    (valid : isValue value) :
    Reads (front ++ value ++ "\n".toList) [.sample ⟨metric.name, [], value⟩] := by
  have spelled : front ++ value ++ "\n".toList =
      Sample.write ⟨metric.name, [], value⟩ ++ ['\n'] := by
    rw [named, newline_literal]
    simp only [Sample.write, List.append_assoc, List.cons_append, List.nil_append]
  rw [spelled]
  exact reads_metric rfl valid

/-- The literals of a header, by their characters: `rfl` takes them apart without going through
their bytes. -/
def HeaderSpelled (metric : Metric) (doc kind help type : String) : Prop :=
  ∃ n d k : Text, metric.name = n ∧ doc = .ofList d ∧ kind = .ofList k ∧
    help = .ofList ('#' :: (" HELP ".toList ++ (n ++ ' ' :: d)) ++ ['\n']) ∧
    type = .ofList ('#' :: (" TYPE ".toList ++ (n ++ ' ' :: k)) ++ ['\n']) ∧
    d.contains '\n' = false ∧ kinds.contains k = true

private theorem reads_header {metric : Metric} {doc kind help type : String}
    (spelled : HeaderSpelled metric doc kind help type) :
    Reads (help.toList ++ type.toList) (header metric doc kind) := by
  obtain ⟨_, d, k, rfl, rfl, rfl, rfl, rfl, inLine, known⟩ := spelled
  simp only [header, String.toList_ofList]
  refine (reads_help (isName_name metric) ?_).append (reads_type (isName_name metric) known)
  rwa [List.contains_eq_mem, decide_eq_false_iff_not] at inLine

private theorem reads_append_header {metric : Metric} {front : Text} {lines : List Line}
    {doc kind help type : String} (reads : Reads front lines)
    (spelled : HeaderSpelled metric doc kind help type) :
    Reads (front ++ help.toList ++ type.toList) (lines ++ header metric doc kind) := by
  rw [List.append_assoc]
  exact reads.append (reads_header spelled)

private theorem reads_routeHeaders : Reads routeHeaders routeHeaderLines := by
  unfold routeHeaders routeHeaderLines
  refine reads_append_header (reads_append_header (reads_header ?_) ?_) ?_
  · exact ⟨_, _, _, rfl, rfl, rfl, rfl, rfl, rfl, rfl⟩
  · exact ⟨_, _, _, rfl, rfl, rfl, rfl, rfl, rfl, rfl⟩
  · exact ⟨_, _, _, rfl, rfl, rfl, rfl, rfl, rfl, rfl⟩

/-- The text is read as the lines it was written for. -/
theorem reads_metricsText (float : FloatDisplay) (s : MetricsSnapshot) :
    Reads (metricsText float s) (metricsLines float s) := by
  unfold metricsText metricsLines
  -- from the last piece to the first
  refine Reads.append (Reads.append (reads_append_header ?backends ?tracking)
    (reads_plain ?_ (isValue_displayInt _))) ?routes
  case routes =>
    split
    · exact Reads.nil
    · exact reads_routeHeaders.append (Reads.flatMap reads_routeText)
  case backends =>
    refine Reads.append (reads_append_header (reads_append_header ?uptime ?active) ?latency)
      (Reads.flatMap reads_backendText)
    case uptime =>
      refine Reads.append (reads_append_header ?hosts ?seconds) (reads_plain ?_ (float.isValue _))
      case hosts =>
        refine Reads.append (reads_append_header (Reads.append (reads_header ?online)
          (reads_plain ?_ (isValue_displayInt _))) ?host) (Reads.flatMap reads_hostText)
        case online => exact ⟨_, _, _, rfl, rfl, rfl, rfl, rfl, rfl, rfl⟩
        case host => exact ⟨_, _, _, rfl, rfl, rfl, rfl, rfl, rfl, rfl⟩
        all_goals rfl
      case seconds => exact ⟨_, _, _, rfl, rfl, rfl, rfl, rfl, rfl, rfl⟩
      all_goals rfl
    case active => exact ⟨_, _, _, rfl, rfl, rfl, rfl, rfl, rfl, rfl⟩
    case latency => exact ⟨_, _, _, rfl, rfl, rfl, rfl, rfl, rfl, rfl⟩
  case tracking => exact ⟨_, _, _, rfl, rfl, rfl, rfl, rfl, rfl, rfl⟩
  all_goals rfl

/-! ### The samples of each metric -/

def backendSamples (b : BackendMetric) : List Sample :=
  activeSample b :: (b.latencyMillis.map (latencySample b)).toList

def uploadSamples (m : RouteMetric) : List Sample :=
  if m.uploadEnabled then [uploadSample m] else []

def downloadSamples (m : RouteMetric) : List Sample :=
  if m.downloadEnabled then [downloadSample m] else []

/-- The limits of the directions that are metered and limited. -/
def limitSamples (m : RouteMetric) : List Sample :=
  (if m.uploadEnabled ∧ 0 ≤ m.uploadLimit then [limitSample m "upload" m.uploadLimit] else []) ++
    if m.downloadEnabled ∧ 0 ≤ m.downloadLimit then [limitSample m "download" m.downloadLimit]
    else []

/-- A sample for each data item of a metric, with the strings of the item in its labels. -/
def Metric.items (float : FloatDisplay) (s : MetricsSnapshot) : Metric → List Sample
  | .playersOnline => [⟨Metric.playersOnline.name, [], displayInt s.playersOnline⟩]
  | .hostPlayersOnline => s.onlineByHost.entries.map hostSample
  | .uptimeSeconds => [⟨Metric.uptimeSeconds.name, [], float.display s.uptimeSeconds⟩]
  | .activeConnections => s.backends.map activeSample
  | .latencyMs => s.backends.filterMap fun b => b.latencyMillis.map (latencySample b)
  | .trackingEnabled =>
    [⟨Metric.trackingEnabled.name, [], displayInt (if s.trackingEnabled then 1 else 0)⟩]
  | .bytesUploaded => (s.routeMetrics.filter RouteMetric.uploadEnabled).map uploadSample
  | .bytesDownloaded => (s.routeMetrics.filter RouteMetric.downloadEnabled).map downloadSample
  | .bytesLimit => s.routeMetrics.flatMap limitSamples

/-- The number of data items of a metric. -/
def Metric.itemCount (s : MetricsSnapshot) : Metric → Nat
  | .playersOnline | .uptimeSeconds | .trackingEnabled => 1
  | .hostPlayersOnline => s.onlineByHost.entries.length
  | .activeConnections => s.backends.length
  | .latencyMs => s.backends.countP fun b => b.latencyMillis.isSome
  | .bytesUploaded => s.routeMetrics.countP RouteMetric.uploadEnabled
  | .bytesDownloaded => s.routeMetrics.countP RouteMetric.downloadEnabled
  | .bytesLimit =>
    s.routeMetrics.countP (fun m => m.uploadEnabled ∧ 0 ≤ m.uploadLimit) +
      s.routeMetrics.countP fun m => m.downloadEnabled ∧ 0 ≤ m.downloadLimit

private theorem samples_header (metric : Metric) (doc kind : String) :
    samples (header metric doc kind) = [] := rfl

private theorem samples_backendLines (b : BackendMetric) :
    samples (backendLines b) = backendSamples b := by
  rw [backendLines, backendSamples]
  cases b.latencyMillis <;> rfl

theorem samples_metricsLines (float : FloatDisplay) (s : MetricsSnapshot) :
    samples (metricsLines float s) =
      ⟨Metric.playersOnline.name, [], displayInt s.playersOnline⟩ ::
      (s.onlineByHost.entries.map hostSample ++
      ⟨Metric.uptimeSeconds.name, [], float.display s.uptimeSeconds⟩ ::
      (s.backends.flatMap backendSamples ++
      ⟨Metric.trackingEnabled.name, [], displayInt (if s.trackingEnabled then 1 else 0)⟩ ::
        s.routeMetrics.flatMap fun m => samples (routeLines m))) := by
  have routes : samples (if s.routeMetrics.isEmpty then []
      else routeHeaderLines ++ s.routeMetrics.flatMap routeLines) =
        s.routeMetrics.flatMap fun m => samples (routeLines m) := by
    have headers : samples routeHeaderLines = [] := rfl
    split
    next empty => simp [List.isEmpty_iff.mp empty]
    · rw [samples_append, headers, samples_flatMap, List.nil_append]
  unfold metricsLines
  simp only [samples_append, samples_header, samples_flatMap, samples_backendLines, samples_sample,
    samples_nil, routes, List.nil_append, List.append_assoc, List.cons_append, List.map_eq_flatMap]

section Names

variable (b : BackendMetric) (m : RouteMetric)

@[simp] theorem activeSample_name : (activeSample b).name = Metric.activeConnections.name := rfl

@[simp] theorem latencySample_name (latency : Int) :
    (latencySample b latency).name = Metric.latencyMs.name := rfl

@[simp] theorem uploadSample_name : (uploadSample m).name = Metric.bytesUploaded.name := rfl

@[simp] theorem downloadSample_name : (downloadSample m).name = Metric.bytesDownloaded.name := rfl

@[simp] theorem limitSample_name (direction : String) (limit : Int) :
    (limitSample m direction limit).name = Metric.bytesLimit.name := rfl

@[simp] theorem hostSample_name (entry : Σ _ : Text, Nat) :
    (hostSample entry).name = Metric.hostPlayersOnline.name := rfl

end Names

/-- All of the samples are of one metric. -/
theorem filter_own {metric : Metric} (own : Metric) {some : List Sample}
    (owned : ∀ sample ∈ some, sample.name = own.name) :
    some.filter (fun sample => sample.name = metric.name) = if metric = own then some else [] := by
  split
  next same =>
    rw [List.filter_eq_self]
    intro sample member
    rw [owned sample member, same]
    exact decide_eq_true rfl
  next other =>
    rw [List.filter_eq_nil_iff]
    intro sample member
    rw [owned sample member, decide_eq_true_eq, Metric.name_inj]
    exact fun same => other same.symm

private theorem filter_backendSamples (metric : Metric) (b : BackendMetric) :
    ((backendSamples b).filter fun sample => sample.name = metric.name) =
      (if metric = .activeConnections then [activeSample b] else []) ++
        if metric = .latencyMs then (b.latencyMillis.map (latencySample b)).toList else [] := by
  rw [backendSamples, ← List.singleton_append, List.filter_append,
    filter_own .activeConnections, filter_own .latencyMs]
  · cases b.latencyMillis <;> simp
  · simp

/-- One direction of a route: its bytes where it is metered, and its limit where it has one. -/
theorem samples_direction (enabled : Bool) (bytes limited : Sample) (limit : Int) :
    samples (if enabled then
        .sample bytes :: if 0 ≤ limit then [.sample limited] else []
      else []) =
      (if enabled then [bytes] else []) ++ if enabled ∧ 0 ≤ limit then [limited] else [] := by
  cases enabled with
  | false => rfl
  | true => by_cases limits : 0 ≤ limit <;> simp [limits]

private theorem filter_routeLines (metric : Metric) (m : RouteMetric) :
    (samples (routeLines m)).filter (fun sample => sample.name = metric.name) =
      (if metric = .bytesUploaded then uploadSamples m else []) ++
      ((if metric = .bytesDownloaded then downloadSamples m else []) ++
      if metric = .bytesLimit then limitSamples m else []) := by
  rw [routeLines, samples_append, samples_direction, samples_direction, List.filter_append,
    List.filter_append, List.filter_append, filter_own .bytesUploaded, filter_own .bytesLimit,
    filter_own .bytesDownloaded, filter_own .bytesLimit]
  · cases metric <;> simp [uploadSamples, downloadSamples, limitSamples]
  all_goals
    intro sample member
    rw [List.mem_ite_nil_right, List.mem_singleton] at member
    rw [member.2]
    rfl

private theorem flatMap_none {α : Type} (items : List α) :
    items.flatMap (fun _ => ([] : List Sample)) = [] :=
  List.flatMap_eq_nil_iff.mpr fun _ _ => rfl

private theorem flatMap_enabled {α : Type} (enabled : α → Bool) (sample : α → Sample)
    (items : List α) :
    (items.flatMap fun item => if enabled item then [sample item] else []) =
      (items.filter enabled).map sample := by
  induction items with
  | nil => rfl
  | cons item items ih =>
    rw [List.flatMap_cons, ih, List.filter_cons]
    split <;> rfl

/-- Each metric has a sample for each of its data items, and no other. -/
theorem samplesOf_metricsLines (float : FloatDisplay) (s : MetricsSnapshot) (metric : Metric) :
    samplesOf metric.name (metricsLines float s) = metric.items float s := by
  have hosts : (s.onlineByHost.entries.map hostSample).filter
      (fun sample => sample.name = metric.name) =
        if metric = .hostPlayersOnline then s.onlineByHost.entries.map hostSample else [] := by
    refine filter_own .hostPlayersOnline fun sample member => ?_
    obtain ⟨entry, -, rfl⟩ := List.mem_map.mp member
    rfl
  -- a direction that is not metered has no sample, as if it were filtered out
  have uploads := flatMap_enabled RouteMetric.uploadEnabled uploadSample s.routeMetrics
  have downloads := flatMap_enabled RouteMetric.downloadEnabled downloadSample s.routeMetrics
  rw [samplesOf, samples_metricsLines]
  simp only [List.filter_cons, List.filter_append, hosts, List.filter_flatMap,
    filter_backendSamples, filter_routeLines, Metric.name_inj]
  cases metric with
  | bytesUploaded => simpa [Metric.items, flatMap_none, uploadSamples] using uploads
  | bytesDownloaded => simpa [Metric.items, flatMap_none, downloadSamples] using downloads
  | latencyMs => simp [Metric.items, flatMap_none, List.filterMap_eq_flatMap_toList]
  | activeConnections => simp [Metric.items, flatMap_none, List.map_eq_flatMap]
  | _ => simp [Metric.items, flatMap_none]

private theorem length_items (float : FloatDisplay) (s : MetricsSnapshot) (metric : Metric) :
    (metric.items float s).length = metric.itemCount s := by
  cases metric with
  | bytesLimit =>
    simp only [Metric.items, Metric.itemCount]
    -- a route counts once for each of its directions that has a limit
    induction s.routeMetrics with
    | nil => rfl
    | cons m rest ih =>
      rw [List.flatMap_cons, List.length_append, ih, List.countP_cons, List.countP_cons,
        limitSamples, List.length_append]
      simp only [decide_eq_true_eq]
      split <;> split <;> simp only [List.length_cons, List.length_nil] <;> omega
  | latencyMs => simp [Metric.items, Metric.itemCount, List.length_filterMap_eq_countP]
  | _ => simp [Metric.items, Metric.itemCount, List.countP_eq_length_filter]

private theorem samples_named {float : FloatDisplay} {s : MetricsSnapshot} {sample : Sample}
    (member : sample ∈ samples (metricsLines float s)) :
    ∃ metric : Metric, sample.name = metric.name := by
  rw [samples_metricsLines] at member
  simp only [List.mem_cons, List.mem_append, List.mem_map, List.mem_flatMap] at member
  rcases member with rfl | ⟨entry, -, rfl⟩ | rfl | ⟨b, -, member⟩ | rfl | ⟨m, -, member⟩
  · exact ⟨.playersOnline, rfl⟩
  · exact ⟨.hostPlayersOnline, rfl⟩
  · exact ⟨.uptimeSeconds, rfl⟩
  · simp only [backendSamples, List.mem_cons, Option.mem_toList, Option.map_eq_some_iff] at member
    rcases member with rfl | ⟨latency, -, rfl⟩
    · exact ⟨.activeConnections, rfl⟩
    · exact ⟨.latencyMs, rfl⟩
  · exact ⟨.trackingEnabled, rfl⟩
  · simp only [routeLines, samples_append, samples_direction, List.mem_append,
      List.mem_ite_nil_right, List.mem_singleton] at member
    rcases member with (⟨-, rfl⟩ | ⟨-, rfl⟩) | ⟨-, rfl⟩ | ⟨-, rfl⟩
    · exact ⟨.bytesUploaded, rfl⟩
    · exact ⟨.bytesLimit, rfl⟩
    · exact ⟨.bytesDownloaded, rfl⟩
    · exact ⟨.bytesLimit, rfl⟩

/-- Whatever a snapshot holds, its text is read, and the samples that are read of each metric are
those of its data items, one for each, with the strings as they are in their labels. There is no
sample of anything else. -/
theorem metricsText_not_injected (float : FloatDisplay) (s : MetricsSnapshot) :
    ∃ lines, readText (metricsText float s) = some lines ∧
      (∀ metric : Metric, samplesOf metric.name lines = metric.items float s ∧
        (samplesOf metric.name lines).length = metric.itemCount s) ∧
      ∀ sample ∈ samples lines, ∃ metric : Metric, sample ∈ metric.items float s := by
  have own := samplesOf_metricsLines float s
  refine ⟨metricsLines float s, (reads_metricsText float s).read,
    fun metric => ⟨own metric, ?_⟩, ?_⟩
  · rw [own, length_items]
  · intro sample member
    obtain ⟨metric, named⟩ := samples_named member
    refine ⟨metric, ?_⟩
    rw [← own, samplesOf, List.mem_filter]
    exact ⟨member, decide_eq_true named⟩

end MCGate.Api
