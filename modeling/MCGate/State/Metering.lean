import MCGate.Lib.Machine
import MCGate.State.AppState
import MCGate.State.RouteMetricsStore

/-!
# Metering across reloads

A relay asks for the counter of its route once, when it starts, and reports its bytes to that
counter for as long as it runs. Whether the store still has the counter depends on every
config applied since: one that does not ask for it drops it, and the next one that does
creates another.
-/
namespace MCGate

open Config Machine RouteMetricsStore

/-- A relay with its route, the counter it holds and the name it found it under. Only the
statements read `since`, the configs applied since the relay started. -/
structure MeteredRelay where
  route : Config.Route
  key : Text
  arc : Nat
  since : List (List Config.Route)

/-- The store, the routes of the config applied last and the relays that run. -/
structure Metering where
  store : RouteMetricsStore
  routes : List Config.Route
  relays : List MeteredRelay

inductive MeteringEvent where
  | applyConfig (routes : List Config.Route) (env : Surroundings)
  /-- a relay starts on a route that has a counter -/
  | startRelay (route : Config.Route)
  /-- relay `i` has passed on `n` bytes -/
  | report (i : Nat) (direction : Direction) (n : Int64)

namespace Metering

variable (tmpOf : Text → Text)

def start (files : HashMap Text (Option UsageFile)) : Metering := ⟨⟨[], ∅, files⟩, [], []⟩

/-- A report to the counter that stands at `arc`. -/
def reported (store : RouteMetricsStore) (arc : Nat) (direction : Direction) (n : Int64) :
    RouteMetricsStore :=
  { store with allocated := store.allocated.modify arc fun counter => counter.add direction n }

def step (s : Metering) : MeteringEvent → Option Metering
  | .applyConfig routes env =>
    some
      { store := s.store.applyConfig tmpOf routes env
        routes
        relays := s.relays.map fun relay => { relay with since := routes :: relay.since } }
  | .startRelay route =>
    match keyFor route, s.store.handle route with
    | some key, some arc => some { s with relays := s.relays ++ [⟨route, key, arc, []⟩] }
    | _, _ => none
  | .report i direction n =>
    match s.relays[i]? with
    | none => none
    | some relay => some { s with store := reported s.store relay.arc direction n }

/-- The route has a metrics block that meters the direction. -/
def Meters (route : Config.Route) (direction : Direction) : Prop :=
  ∃ m ∈ route.metrics, metersIn m direction

instance (route : Config.Route) (direction : Direction) : Decidable (Meters route direction) :=
  inferInstanceAs (Decidable (∃ m ∈ route.metrics, metersIn m direction))

/-- The counter of the route has gone up by `n`, and with it what decides whether the limit
is reached and what the next flush writes. -/
def Reflected (before after : RouteMetricsStore) (route : Config.Route) (direction : Direction)
    (n : Int64) : Prop :=
  ∃ arc old new, before.handle route = some arc ∧ before.allocated[arc]? = some old ∧
    after.allocated[arc]? = some new ∧ new.bytes direction = old.bytes direction + n ∧
    (new.exceededIn direction ↔
      0 ≤ new.limit direction ∧ new.limit direction ≤ old.bytes direction + n) ∧
    ∀ path nowMillis, new.file = some path →
      ∃ usage, (after.flushCounter tmpOf arc true nowMillis true).files.lookup path =
          some (some usage) ∧
        usage.bytes direction = some (old.bytes direction + n)

/-- Bytes that a relay reports while the config meters them on its route are reflected in
the counter of the route. -/
def Reflects (s : Metering) : MeteringEvent → Prop
  | .report i direction n => ∀ relay, s.relays[i]? = some relay → 0 < n →
      ∀ route ∈ s.routes, route.eq relay.route → Meters route direction →
        Reflected tmpOf s.store (reported s.store relay.arc direction n) route direction n
  | _ => True

/-- Every config applied since the relay started asks for its counter. -/
def Kept (relay : MeteredRelay) : Prop :=
  ∀ routes ∈ relay.since, ((desired routes ∅).lookup relay.key).isSome

instance (relay : MeteredRelay) : Decidable (Kept relay) :=
  inferInstanceAs
    (Decidable (∀ routes ∈ relay.since, ((desired routes ∅).lookup relay.key).isSome))

/-- Where the config meters what a relay reports: the route still has the name the relay
found its counter under, the counter was asked for ever since, and the first route of that
name meters the direction too. -/
def CounterKept (s : Metering) : MeteringEvent → Prop
  | .report i direction n => ∀ relay ∈ s.relays[i]?, 0 < n →
      ∀ route ∈ s.routes, route.eq relay.route → Meters route direction →
        keyFor route = some relay.key ∧ Kept relay ∧
          ∃ m ∈ (desired s.routes ∅).lookup relay.key, metersIn m direction
  | _ => True

instance (s : Metering) (event : MeteringEvent) : Decidable (CounterKept s event) :=
  match event with
  | .report i direction n => inferInstanceAs (Decidable (∀ relay ∈ s.relays[i]?, 0 < n →
      ∀ route ∈ s.routes, route.eq relay.route → Meters route direction →
        keyFor route = some relay.key ∧ Kept relay ∧
          ∃ m ∈ (desired s.routes ∅).lookup relay.key, metersIn m direction))
  | .applyConfig _ _ => isTrue trivial
  | .startRelay _ => isTrue trivial

/-! ### Which counter a relay reports to -/

private theorem keeps_add (counter : RouteTrafficCounter) (direction : Direction) (n : Int64) :
    (counter.add direction n).key = counter.key ∧
      (counter.add direction n).file = counter.file ∧
      (counter.add direction n).limit = counter.limit ∧
      (counter.add direction n).enabled = counter.enabled := by
  unfold RouteTrafficCounter.add
  split
  · cases direction <;> exact ⟨rfl, rfl, rfl, rfl⟩
  · exact ⟨rfl, rfl, rfl, rfl⟩

private theorem bytes_add (counter : RouteTrafficCounter) (direction : Direction) {n : Int64}
    (positive : 0 < n) :
    (counter.add direction n).bytes direction =
      if counter.enabled direction then counter.bytes direction + n
      else counter.bytes direction := by
  unfold RouteTrafficCounter.add
  simp only [positive, and_true]
  split <;> cases direction <;> rfl

/-- A counter stands where it stood, under the same name and with the same settings. -/
theorem reported_at {store : RouteMetricsStore} {place : Nat} {counter : RouteTrafficCounter}
    (here : store.allocated[place]? = some counter) (arc : Nat) (direction : Direction)
    (n : Int64) :
    (reported store arc direction n).allocated[place]? =
      some (if arc = place then counter.add direction n else counter) := by
  rw [reported, List.getElem?_modify, here]
  split <;> rfl

/-- What the store knows of the relays: a counter asked for ever since is the one of its
name, any other is gone for good. -/
structure Known (s : Metering) : Prop where
  registered : Registered s.store
  early : ∀ relay ∈ s.relays, relay.arc < s.store.allocated.length
  kept : ∀ relay ∈ s.relays, Kept relay → s.store.counters.lookup relay.key = some relay.arc
  dropped : ∀ relay ∈ s.relays, ¬ Kept relay →
    ∀ key, s.store.counters.lookup key ≠ some relay.arc
  configured : ∀ key, ∀ m ∈ (desired s.routes ∅).lookup key,
    ∃ arc counter, s.store.counters.lookup key = some arc ∧
      s.store.allocated[arc]? = some counter ∧
      ∀ direction, counter.enabled direction = metersIn m direction

private theorem known_start (files : HashMap Text (Option UsageFile)) : Known (start files) where
  registered := by
    intro key arc stored
    cases stored
  early := by simp [start]
  kept := by simp [start]
  dropped := by simp [start]
  configured := by
    intro key m wanted
    cases wanted

private theorem kept_cons_iff {relay : MeteredRelay} {routes : List Config.Route} :
    Kept { relay with since := routes :: relay.since } ↔
      ((desired routes ∅).lookup relay.key).isSome ∧ Kept relay :=
  List.forall_mem_cons

private theorem known_applyConfig {s : Metering} (known : Known s) (routes : List Config.Route)
    (env : Surroundings) :
    Known
      { store := s.store.applyConfig tmpOf routes env
        routes
        relays := s.relays.map fun relay => { relay with since := routes :: relay.since } } where
  registered := applyConfig_registered tmpOf routes env known.registered
  early := by
    simp only [List.forall_mem_map]
    intro relay member
    exact Nat.lt_of_lt_of_le (known.early relay member)
      (applyConfig_length tmpOf routes env known.registered)
  kept := by
    simp only [List.forall_mem_map, kept_cons_iff]
    rintro relay member ⟨wanted, before⟩
    exact applyConfig_kept tmpOf routes env known.registered wanted
      (known.kept relay member before)
  dropped := by
    simp only [List.forall_mem_map, kept_cons_iff]
    intro relay member gone key stored
    obtain ⟨before, wanted⟩ :=
      applyConfig_old tmpOf routes env known.registered stored (known.early relay member)
    -- one that was kept until now has been dropped by this config
    by_cases kept : Kept relay
    · have same := known.registered.key_unique before (known.kept relay member kept)
      exact gone ⟨same ▸ wanted, kept⟩
    · exact known.dropped relay member kept key before
  configured := fun _ _ wanted => applyConfig_enabled tmpOf routes env known.registered wanted

private theorem known_startRelay {s : Metering} (known : Known s) {route : Config.Route}
    {key : Text} {arc : Nat} (stored : s.store.counters.lookup key = some arc) :
    Known { s with relays := s.relays ++ [⟨route, key, arc, []⟩] } where
  registered := known.registered
  early := by
    simp only [List.forall_mem_append, List.forall_mem_singleton]
    exact ⟨known.early, known.registered.lt stored⟩
  kept := by
    simp only [List.forall_mem_append, List.forall_mem_singleton]
    exact ⟨known.kept, fun _ => stored⟩
  dropped := by
    simp only [List.forall_mem_append, List.forall_mem_singleton]
    refine ⟨known.dropped, fun gone => absurd ?_ gone⟩
    exact List.forall_mem_nil _
  configured := known.configured

private theorem known_report {s : Metering} (known : Known s) (arc : Nat) (direction : Direction)
    (n : Int64) : Known { s with store := reported s.store arc direction n } where
  registered := by
    intro key place stored
    obtain ⟨counter, here, name⟩ := known.registered key place stored
    refine ⟨_, reported_at here arc direction n, ?_⟩
    split
    · exact (keeps_add counter direction n).1.trans name
    · exact name
  early := by
    intro relay member
    simp only [reported, List.length_modify]
    exact known.early relay member
  kept := known.kept
  dropped := known.dropped
  configured := by
    intro key m wanted
    obtain ⟨place, counter, stored, here, enabled⟩ := known.configured key m wanted
    refine ⟨place, _, stored, reported_at here arc direction n, ?_⟩
    split
    · rw [(keeps_add counter direction n).2.2.2]
      exact enabled
    · exact enabled

private theorem known_step (s : Metering) (event : MeteringEvent) (s' : Metering) (known : Known s)
    (stepped : step tmpOf s event = some s') : Known s' := by
  cases event with
  | applyConfig routes env =>
    cases stepped
    exact known_applyConfig tmpOf known routes env
  | startRelay route =>
    simp only [step] at stepped
    split at stepped
    next key arc named found =>
      cases stepped
      rw [handle, named] at found
      exact known_startRelay known found
    next => cases stepped
  | report i direction n =>
    simp only [step] at stepped
    split at stepped
    next => cases stepped
    next relay _ =>
      cases stepped
      exact known_report known relay.arc direction n

/-! ### What is metered -/

private theorem add_ne_self (bytes : Int64) {n : Int64} (positive : 0 < n) : bytes ≠ bytes + n := by
  intro same
  have zero : n = 0 := by
    have cancelled := congrArg (· - bytes) same
    simpa [Int64.add_comm bytes n] using cancelled.symm
  rw [zero] at positive
  exact absurd positive (by decide)

/-- Only a report to the route's own counter, which meters the direction, is reflected. -/
theorem reported_of_reflected {store : RouteMetricsStore} {arc : Nat} {route : Config.Route}
    {direction : Direction} {n : Int64} (positive : 0 < n)
    (reflected : Reflected tmpOf store (reported store arc direction n) route direction n) :
    ∃ counter, store.handle route = some arc ∧ store.allocated[arc]? = some counter ∧
      counter.enabled direction := by
  obtain ⟨place, old, new, found, before, after, more, -⟩ := reflected
  rw [reported_at before] at after
  cases after
  -- a report to another counter leaves this one as it was, and `n` is not zero
  split at more
  next same =>
    subst same
    refine ⟨old, found, before, ?_⟩
    rw [bytes_add old direction positive] at more
    by_contra disabled
    rw [if_neg disabled] at more
    exact add_ne_self _ positive more
  next => exact absurd more (add_ne_self _ positive)

private theorem flushed_reported {store : RouteMetricsStore} {arc : Nat}
    {counter : RouteTrafficCounter} (here : store.allocated[arc]? = some counter) {path : Text}
    (file : counter.file = some path) (nowMillis : Int64) :
    (store.flushCounter tmpOf arc true nowMillis true).files.lookup path =
      some (some (counter.usage nowMillis)) := by
  simp only [flushCounter, here, file, not_true, false_and, if_false, if_true]
  rw [HashMap.lookup_insert_eq, if_pos rfl]

/-- Such a report shows in the total, in the limit check and in the next flush. -/
theorem reflected_of_reported {store : RouteMetricsStore} {arc : Nat} {route : Config.Route}
    {direction : Direction} {n : Int64} {counter : RouteTrafficCounter} (positive : 0 < n)
    (found : store.handle route = some arc) (here : store.allocated[arc]? = some counter)
    (enabled : counter.enabled direction) :
    Reflected tmpOf store (reported store arc direction n) route direction n := by
  have after := reported_at here arc direction n
  rw [if_pos rfl] at after
  have more : (counter.add direction n).bytes direction = counter.bytes direction + n := by
    rw [bytes_add counter direction positive, if_pos enabled]
  obtain ⟨-, -, limit, settings⟩ := keeps_add counter direction n
  refine ⟨arc, counter, counter.add direction n, found, here, after, more, ?_, ?_⟩
  · simp only [RouteTrafficCounter.exceededIn, more, settings, enabled, Bool.true_and,
      Bool.and_eq_true, decide_eq_true_eq]
  · intro path nowMillis file
    refine ⟨_, flushed_reported tmpOf after file nowMillis, ?_⟩
    rw [← more]
    cases direction <;> rfl

/-- A report is reflected exactly if it goes to the counter the route has, by the name, by
what was asked for since and by what the first route of the name meters. -/
theorem reflects_iff_counterKept (s : Metering) (event : MeteringEvent) (known : Known s) :
    Reflects tmpOf s event ↔ CounterKept s event := by
  cases event with
  | applyConfig => exact Iff.rfl
  | startRelay => exact Iff.rfl
  | report i direction n =>
    apply forall_congr'
    intro relay
    apply forall_congr'
    intro running
    have member := List.mem_of_getElem? running
    constructor
    · intro reflects positive route listed same meters
      obtain ⟨counter, found, here, enabled⟩ :=
        reported_of_reflected tmpOf positive (reflects positive route listed same meters)
      obtain ⟨key, named, stored⟩ := Option.bind_eq_some_iff.mp found
      -- a counter that was dropped is nobody's any more, so the route has another one
      have kept : Kept relay := by
        by_contra gone
        exact known.dropped relay member gone key stored
      obtain rfl := known.registered.key_unique stored (known.kept relay member kept)
      obtain ⟨m, wanted⟩ := Option.isSome_iff_exists.mp (desired_of_mem ∅ listed named)
      -- the settings of the counter are those of the first route of its name
      obtain ⟨arc, counter', stored', here', settings⟩ := known.configured _ m wanted
      obtain rfl := Option.some.inj (stored'.symm.trans stored)
      obtain rfl := Option.some.inj (here'.symm.trans here)
      exact ⟨named, kept, m, wanted, (settings direction).symm.trans enabled⟩
    · intro counterKept positive route listed same meters
      obtain ⟨named, kept, m, wanted, metered⟩ := counterKept positive route listed same meters
      have stored := known.kept relay member kept
      obtain ⟨arc, counter, stored', here, settings⟩ := known.configured _ m wanted
      obtain rfl := Option.some.inj (stored'.symm.trans stored)
      refine reflected_of_reported tmpOf positive ?_ here ((settings direction).trans metered)
      rw [handle, named]
      exact stored

/-- Whatever configs are applied, the bytes that relays report are metered exactly where the
relay still has the counter of its route. -/
theorem reflects_iff_counters_kept (files : HashMap Text (Option UsageFile))
    (events : List MeteringEvent) :
    Guarded (step tmpOf) (Reflects tmpOf) (start files) events ↔
      Guarded (step tmpOf) CounterKept (start files) events :=
  guarded_iff_of_invariant (known_step tmpOf) (reflects_iff_counterKept tmpOf) (known_start files)

/-- A route that meters its upload, or has that switched off. -/
def meteredRoute (upload : Bool) : Config.Route :=
  { Gate.plainRoute "metered.example.com" "127.0.0.1" with
    metrics := some ⟨some "metered.json".toList, ⟨upload, -1⟩, .defaulted, 0⟩ }

/-- The upload is switched off and on again while a relay runs: what the relay reports then
is in no counter that anybody reads. -/
theorem toggled_upload_unmetered :
    ¬ Guarded (step fun path => path ++ ".tmp".toList)
        (Reflects fun path => path ++ ".tmp".toList) (start ∅)
        [.applyConfig [meteredRoute true] ⟨0, true⟩, .startRelay (meteredRoute true),
          .applyConfig [meteredRoute false] ⟨1, true⟩, .applyConfig [meteredRoute true] ⟨2, true⟩,
          .report 0 .upload 1500] := by
  rw [guarded_iff_of_invariant (known_step _) (reflects_iff_counterKept _) (known_start ∅)]
  decide

end Metering

end MCGate
