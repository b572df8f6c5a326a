import MCGate.Net.MetricsText

/-!
# Groups of metrics

The exposition format wants the lines of a metric to stand together, and no sample twice. Where
several metrics share a loop, their headers are written before it and their samples in it, so
that none of them stands together: with a single backend, or a single metered direction, the
text breaks the format.
-/
namespace MCGate.Api

open Exposition

/-- The text keeps the grouping rules: the lines of each metric stand together, and no two
samples are the same but for their values. -/
def WellGrouped (text : Text) : Prop :=
  ∃ lines, readText text = some lines ∧ Grouped lines ∧ SamplesDistinct lines

/-- No loop writes samples of more than one metric. -/
def NothingShared (s : MetricsSnapshot) : Prop :=
  s.backends = [] ∧ ∀ m ∈ s.routeMetrics, m.uploadEnabled = false ∧ m.downloadEnabled = false

section Shared

variable {float : FloatDisplay} {s : MetricsSnapshot}

private theorem type_mem_header (metric : Metric) (doc kind : String) :
    [Line.type metric.name kind.toList].Sublist (header metric doc kind) :=
  List.singleton_sublist.mpr (List.mem_cons_of_mem _ List.mem_cons_self)

/-- Between the header of the connections and the first sample of them is another header. -/
theorem backends_split {b : BackendMetric} (member : b ∈ s.backends) :
    [Line.type Metric.activeConnections.name "gauge".toList,
      .type Metric.latencyMs.name "gauge".toList, .sample (activeSample b)].Sublist
        (metricsLines float s) := by
  have sample : [Line.sample (activeSample b)].Sublist (s.backends.flatMap backendLines) :=
    List.singleton_sublist.mpr (List.mem_flatMap.mpr ⟨b, member, List.mem_cons_self⟩)
  -- the two headers and the loop come one after the other
  apply List.sublist_append_of_sublist_left
  apply List.sublist_append_of_sublist_left
  apply List.sublist_append_of_sublist_left
  change ([Line.type Metric.activeConnections.name "gauge".toList] ++
    [Line.type Metric.latencyMs.name "gauge".toList] ++ [Line.sample (activeSample b)]).Sublist _
  refine List.Sublist.append (List.Sublist.append ?_ (type_mem_header _ _ _)) sample
  exact List.sublist_append_of_sublist_right (type_mem_header _ _ _)

private theorem backends_eq_nil (grouped : Grouped (metricsLines float s)) : s.backends = [] := by
  rw [List.eq_nil_iff_forall_not_mem]
  intro b member
  have between := (grouped Metric.activeConnections.name).between (backends_split member) rfl rfl
  exact absurd (Metric.name_inj.mp (Option.some.inj between)) (by decide)

/-- A sample of a direction is behind the header of the limits, and so apart from its own. -/
theorem routes_split {m : RouteMetric} (member : m ∈ s.routeMetrics) {own : Metric}
    {sample : Sample} (written : .sample sample ∈ routeLines m)
    (headed : [Line.type own.name "counter".toList,
      .type Metric.bytesLimit.name "gauge".toList].Sublist routeHeaderLines) :
    [Line.type own.name "counter".toList, .type Metric.bytesLimit.name "gauge".toList,
      .sample sample].Sublist (metricsLines float s) := by
  have some : s.routeMetrics.isEmpty = false := by
    rw [List.isEmpty_eq_false_iff_exists_mem]
    exact ⟨m, member⟩
  have sampled : [Line.sample sample].Sublist (s.routeMetrics.flatMap routeLines) :=
    List.singleton_sublist.mpr (List.mem_flatMap.mpr ⟨m, member, written⟩)
  apply List.sublist_append_of_sublist_right
  rw [some]
  exact List.Sublist.append headed sampled

/-- The header of the limits is the last one. -/
theorem bytesUploaded_headed : [Line.type Metric.bytesUploaded.name "counter".toList,
    .type Metric.bytesLimit.name "gauge".toList].Sublist routeHeaderLines := by
  change ([Line.type Metric.bytesUploaded.name "counter".toList] ++
    [Line.type Metric.bytesLimit.name "gauge".toList]).Sublist _
  refine List.Sublist.append ?_ (type_mem_header _ _ _)
  exact List.sublist_append_of_sublist_left (type_mem_header _ _ _)

private theorem bytesDownloaded_headed : [Line.type Metric.bytesDownloaded.name "counter".toList,
    .type Metric.bytesLimit.name "gauge".toList].Sublist routeHeaderLines := by
  change ([Line.type Metric.bytesDownloaded.name "counter".toList] ++
    [Line.type Metric.bytesLimit.name "gauge".toList]).Sublist _
  refine List.Sublist.append ?_ (type_mem_header _ _ _)
  exact List.sublist_append_of_sublist_right (type_mem_header _ _ _)

/-- A sample of a direction has the header of the limits between it and its own. -/
theorem not_grouped_of_written {m : RouteMetric} (member : m ∈ s.routeMetrics) {own : Metric}
    {sample : Sample} (written : .sample sample ∈ routeLines m) (named : sample.name = own.name)
    (headed : [Line.type own.name "counter".toList,
      .type Metric.bytesLimit.name "gauge".toList].Sublist routeHeaderLines)
    (other : Metric.bytesLimit ≠ own) : ¬ Grouped (metricsLines float s) := by
  intro grouped
  have between := (grouped own.name).between (routes_split member written headed) rfl
    (congrArg some named)
  exact other (Metric.name_inj.mp (Option.some.inj between))

private theorem directions_disabled (grouped : Grouped (metricsLines float s)) {m : RouteMetric}
    (member : m ∈ s.routeMetrics) : m.uploadEnabled = false ∧ m.downloadEnabled = false := by
  constructor
  · by_contra enabled
    rw [Bool.not_eq_false] at enabled
    have written : .sample (uploadSample m) ∈ routeLines m := by simp [routeLines, enabled]
    exact not_grouped_of_written member written rfl bytesUploaded_headed (by decide) grouped
  · by_contra enabled
    rw [Bool.not_eq_false] at enabled
    have written : .sample (downloadSample m) ∈ routeLines m := by simp [routeLines, enabled]
    exact not_grouped_of_written member written rfl bytesDownloaded_headed (by decide) grouped

end Shared

/-! ### Without shared loops -/

/-- The headers of the route metrics. -/
def routeBlocks : List (Metric × List Line) :=
  [(.bytesUploaded, header .bytesUploaded
      "Cumulative client->backend bytes relayed per route." "counter"),
    (.bytesDownloaded, header .bytesDownloaded
      "Cumulative backend->client bytes relayed per route." "counter"),
    (.bytesLimit, header .bytesLimit
      "Configured byte ceiling per route/direction (absent when unlimited)." "gauge")]

/-- The lines of the other metrics, without those of the backends. -/
def ownBlocks (float : FloatDisplay) (s : MetricsSnapshot) : List (Metric × List Line) :=
  [(.playersOnline, header .playersOnline "Currently connected players." "gauge" ++
      [.sample ⟨Metric.playersOnline.name, [], displayInt s.playersOnline⟩]),
    (.hostPlayersOnline,
      header .hostPlayersOnline "Currently connected players per virtual host." "gauge" ++
        s.onlineByHost.entries.flatMap (fun entry => [.sample (hostSample entry)])),
    (.uptimeSeconds, header .uptimeSeconds "Seconds since the process started." "gauge" ++
      [.sample ⟨Metric.uptimeSeconds.name, [], float.display s.uptimeSeconds⟩]),
    (.activeConnections,
      header .activeConnections "Active relayed connections per backend." "gauge"),
    (.latencyMs, header .latencyMs "Last-observed backend connect/ping latency." "gauge"),
    (.trackingEnabled,
      header .trackingEnabled "Whether connection-history tracking is enabled." "gauge" ++
        [.sample ⟨Metric.trackingEnabled.name, [],
          displayInt (if s.trackingEnabled then 1 else 0)⟩])]

/-- The lines by their metrics, where nothing is written in the loops that metrics share. -/
def blocks (float : FloatDisplay) (s : MetricsSnapshot) : List (Metric × List Line) :=
  ownBlocks float s ++ if s.routeMetrics.isEmpty then [] else routeBlocks

section Apart

variable (float : FloatDisplay) {s : MetricsSnapshot}

private theorem routes_silent (nothing : NothingShared s) :
    s.routeMetrics.flatMap routeLines = [] := by
  rw [List.flatMap_eq_nil_iff]
  intro m member
  obtain ⟨noUpload, noDownload⟩ := nothing.2 m member
  simp [routeLines, noUpload, noDownload]

private theorem metricsLines_eq_blocks (nothing : NothingShared s) :
    metricsLines float s =
      ((blocks float s).map fun block => (block.1.name, block.2)).flatMap Prod.snd := by
  rw [metricsLines, blocks, ownBlocks, nothing.1, routes_silent nothing]
  by_cases empty : s.routeMetrics.isEmpty
  · rw [if_pos empty, if_pos empty]
    simp only [List.map_cons, List.map_nil, List.flatMap_cons, List.flatMap_nil,
      List.append_assoc, List.append_nil]
  · rw [if_neg empty, if_neg empty]
    simp only [routeHeaderLines, routeBlocks, List.map_append, List.map_cons, List.map_nil,
      List.flatMap_append, List.flatMap_cons, List.flatMap_nil, List.append_assoc, List.append_nil]

private theorem metric_header (metric : Metric) (doc kind : String) :
    ∀ line ∈ header metric doc kind, line.metric = some metric.name := by
  intro line member
  rcases List.mem_cons.mp member with rfl | member
  · rfl
  · rw [List.mem_singleton.mp member]
    rfl

private theorem metric_of_mem_blocks : ∀ block ∈ blocks float s, ∀ line ∈ block.2,
    line.metric = some block.1.name := by
  have hosts : ∀ line ∈ s.onlineByHost.entries.flatMap
      (fun entry => [Line.sample (hostSample entry)]),
        line.metric = some Metric.hostPlayersOnline.name := by
    intro line member
    obtain ⟨entry, -, written⟩ := List.mem_flatMap.mp member
    rw [List.mem_singleton.mp written]
    rfl
  rw [blocks, ownBlocks, routeBlocks, List.forall_mem_append]
  constructor
  · simp only [List.forall_mem_cons, List.forall_mem_append]
    exact ⟨⟨metric_header _ _ _, rfl, nofun⟩, ⟨metric_header _ _ _, hosts⟩,
      ⟨metric_header _ _ _, rfl, nofun⟩, metric_header _ _ _, metric_header _ _ _,
      ⟨metric_header _ _ _, rfl, nofun⟩, nofun⟩
  · split
    · exact nofun
    · simp only [List.forall_mem_cons]
      exact ⟨metric_header _ _ _, metric_header _ _ _, metric_header _ _ _, nofun⟩

private theorem grouped_of_nothingShared (nothing : NothingShared s) :
    Grouped (metricsLines float s) := by
  rw [metricsLines_eq_blocks float nothing]
  apply grouped_blocks
  · have metrics : ((blocks float s).map Prod.fst).Nodup := by
      rw [blocks]
      by_cases empty : s.routeMetrics.isEmpty
      · rw [if_pos empty, List.append_nil]
        exact (by decide : [Metric.playersOnline, .hostPlayersOnline, .uptimeSeconds,
          .activeConnections, .latencyMs, .trackingEnabled].Nodup)
      · rw [if_neg empty]
        exact (by decide : Metric.all.Nodup)
    have injective : Function.Injective Metric.name := fun _ _ same => Metric.name_inj.mp same
    have named := metrics.map injective
    rw [List.map_map] at named ⊢
    exact named
  · intro block member
    obtain ⟨own, known, rfl⟩ := List.mem_map.mp member
    exact metric_of_mem_blocks float own known

private theorem samplesDistinct_of_nothingShared (nothing : NothingShared s) :
    SamplesDistinct (metricsLines float s) := by
  have silent : (s.routeMetrics.flatMap fun m => samples (routeLines m)) = [] := by
    rw [← samples_flatMap, routes_silent nothing]
    rfl
  have apart (m n : Metric) (other : m ≠ n) {labels : Prop} : ¬ (m.name = n.name ∧ labels) :=
    fun same => other (Metric.name_inj.mp same.1)
  have hosts : s.onlineByHost.entries.Pairwise fun a b =>
      ¬ ((hostSample a).name = (hostSample b).name ∧
        (hostSample a).labels.Perm (hostSample b).labels) := by
    refine (List.NodupKeys.pairwise_ne s.onlineByHost.nodupKeys).imp ?_
    rintro a b other ⟨-, same⟩
    rw [hostSample, hostSample, List.perm_singleton, List.singleton_inj, Prod.mk.injEq] at same
    exact other same.2
  rw [SamplesDistinct, samples_metricsLines, nothing.1, silent]
  simp only [List.flatMap_nil, List.nil_append, List.pairwise_cons, List.pairwise_append,
    List.pairwise_map]
  -- samples of different metrics are apart, and hosts differ from each other
  refine ⟨?_, hosts, ⟨?_, nofun, .nil⟩, ?_⟩
  · rw [List.forall_mem_append, List.forall_mem_map, List.forall_mem_cons,
      List.forall_mem_singleton]
    refine ⟨fun entry _ => ?_, ?_, ?_⟩
    · exact apart .playersOnline .hostPlayersOnline (by decide)
    · exact apart .playersOnline .uptimeSeconds (by decide)
    · exact apart .playersOnline .trackingEnabled (by decide)
  · rw [List.forall_mem_singleton]
    exact apart .uptimeSeconds .trackingEnabled (by decide)
  · rw [List.forall_mem_map]
    intro entry _
    rw [List.forall_mem_cons, List.forall_mem_singleton]
    constructor
    · exact apart .hostPlayersOnline .uptimeSeconds (by decide)
    · exact apart .hostPlayersOnline .trackingEnabled (by decide)

end Apart

/-- The grouping rules are kept exactly by the snapshots for which the shared loops write
nothing. -/
theorem wellGrouped_iff (float : FloatDisplay) (s : MetricsSnapshot) :
    WellGrouped (metricsText float s) ↔ NothingShared s := by
  have read := (reads_metricsText float s).read
  constructor
  · rintro ⟨lines, read', grouped, -⟩
    obtain rfl := Option.some.inj (read.symm.trans read')
    exact ⟨backends_eq_nil grouped, fun m member => directions_disabled grouped member⟩
  · intro nothing
    exact ⟨metricsLines float s, read, grouped_of_nothingShared float nothing,
      samplesDistinct_of_nothingShared float nothing⟩

/-- One route with one backend. -/
def oneBackend : MetricsSnapshot where
  playersOnline := 0
  onlineByHost := ∅
  uptimeSeconds := 1.5
  backends := [⟨0, ["hub.example.com".toList], "10.0.0.1:25565".toList, 0, none⟩]
  trackingEnabled := false
  routeMetrics := []

theorem oneBackend_not_wellGrouped :
    ¬ ∀ (float : FloatDisplay) (s : MetricsSnapshot), WellGrouped (metricsText float s) := by
  intro grouped
  let float : FloatDisplay := ⟨fun _ => "1.5".toList, fun _ => by decide⟩
  obtain ⟨lines, read, contiguous, -⟩ := grouped float oneBackend
  obtain rfl := Option.some.inj ((reads_metricsText float oneBackend).read.symm.trans read)
  cases backends_eq_nil contiguous

end MCGate.Api
