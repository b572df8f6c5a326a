import MCGate.Config.Types
import MCGate.Lib.Threads
import MCGate.Std.HashMap

/-!
# Route metrics

A metered route has a counter of the bytes of each direction, under the name of its file or,
without one, of its hosts. `apply_config` creates the counters a config asks for, updates
those that are there and drops the rest. A counter is shared by everyone who was handed it,
so a relay may still hold one that the store has dropped.
-/
namespace MCGate

open Config

inductive Direction where
  | upload
  | download
  deriving DecidableEq, Repr

/-- The fields of a metrics file, as `as_i64` reads them. -/
structure UsageFile where
  uploadBytes : Option Int64
  downloadBytes : Option Int64
  uploadLimit : Option Int64
  downloadLimit : Option Int64
  resetAt : Option Int64
  updatedAt : Option Int64
  deriving DecidableEq, Repr

def UsageFile.bytes (file : UsageFile) : Direction → Option Int64
  | .upload => file.uploadBytes
  | .download => file.downloadBytes

structure RouteTrafficCounter where
  key : Text
  uploadBytes : Int64
  downloadBytes : Int64
  file : Option Text
  uploadEnabled : Bool
  downloadEnabled : Bool
  uploadLimit : Int64
  downloadLimit : Int64
  resetIntervalMillis : Int64
  resetAt : Int64
  dirty : Bool
  deriving DecidableEq, Repr

namespace RouteTrafficCounter

def new (key : Text) : RouteTrafficCounter :=
  ⟨key, 0, 0, none, false, false, -1, -1, 0, 0, false⟩

def bytes (self : RouteTrafficCounter) : Direction → Int64
  | .upload => self.uploadBytes
  | .download => self.downloadBytes

def enabled (self : RouteTrafficCounter) : Direction → Bool
  | .upload => self.uploadEnabled
  | .download => self.downloadEnabled

def limit (self : RouteTrafficCounter) : Direction → Int64
  | .upload => self.uploadLimit
  | .download => self.downloadLimit

/-- The `fetch_add` of `add_upload` and `add_download`. -/
def fetchAdd (self : RouteTrafficCounter) (direction : Direction) (n : Int64) :
    RouteTrafficCounter :=
  match direction with
  | .upload => { self with uploadBytes := self.uploadBytes + n }
  | .download => { self with downloadBytes := self.downloadBytes + n }

/-- `add_upload` and `add_download` -/
def add (self : RouteTrafficCounter) (direction : Direction) (n : Int64) : RouteTrafficCounter :=
  if self.enabled direction ∧ 0 < n then { self.fetchAdd direction n with dirty := true } else self

/-- `upload_exceeded` and `download_exceeded` -/
def exceededIn (self : RouteTrafficCounter) (direction : Direction) : Bool :=
  self.enabled direction && decide (0 ≤ self.limit direction) &&
    decide (self.limit direction ≤ self.bytes direction)

def exceeded (self : RouteTrafficCounter) : Bool :=
  self.exceededIn .upload || self.exceededIn .download

/-- What `flush_counter` writes. -/
def usage (self : RouteTrafficCounter) (nowMillis : Int64) : UsageFile :=
  ⟨some self.uploadBytes, some self.downloadBytes, some self.uploadLimit, some self.downloadLimit,
    some self.resetAt, some nowMillis⟩

/-- `load_persisted`; `none` is a file that is not JSON. -/
def loadPersisted (self : RouteTrafficCounter) (file : Option UsageFile) : RouteTrafficCounter :=
  match file with
  | none => self
  | some data =>
    { self with
      uploadBytes := data.uploadBytes.getD 0
      downloadBytes := data.downloadBytes.getD 0
      resetAt := data.resetAt.getD 0 }

/-- When the counter is reset next, if `apply_config` changes that. -/
def nextReset (self : RouteTrafficCounter) (intervalMillis nowMillis : Int64) : Option Int64 :=
  if 0 < intervalMillis then
    if self.resetAt = 0 ∨ nowMillis + intervalMillis < self.resetAt then
      some (nowMillis + intervalMillis)
    else none
  else if self.resetAt ≠ 0 then some 0
  else none

/-- The settings that `apply_config` stores in a counter, new or not. -/
def configure (self : RouteTrafficCounter) (m : RouteMetricsConfig) (nowMillis : Int64) :
    RouteTrafficCounter :=
  let counter := { self with
    file := m.file
    uploadEnabled := m.upload.enabled
    downloadEnabled := m.download.enabled
    uploadLimit := m.upload.limit
    downloadLimit := m.download.limit
    resetIntervalMillis := m.resetIntervalMillis }
  match counter.nextReset m.resetIntervalMillis nowMillis with
  | none => counter
  | some resetAt => { counter with resetAt, dirty := true }

end RouteTrafficCounter

/-- The direction is metered by the block. -/
def metersIn (m : RouteMetricsConfig) : Direction → Bool
  | .upload => m.upload.enabled
  | .download => m.download.enabled

/-- The name of the counter of a route. -/
def keyFor (route : Config.Route) : Option Text :=
  match route.metrics with
  | none => none
  | some m =>
    if ¬ m.active then none
    else some (m.file.getD ("host:".toList ++
      List.intercalate ['|'] (route.hostPatterns.map HostPattern.raw)))

/-- The counters a config asks for; the first route of a name decides. -/
def desired : List Config.Route → HashMap Text RouteMetricsConfig → HashMap Text RouteMetricsConfig
  | [], wanted => wanted
  | route :: rest, wanted =>
    match keyFor route, route.metrics with
    | some key, some m =>
      desired rest (if (wanted.lookup key).isSome then wanted else wanted.insert key m)
    | _, _ => desired rest wanted

private theorem desired_of_wanted (routes : List Config.Route)
    {wanted : HashMap Text RouteMetricsConfig} {key : Text} (present : (wanted.lookup key).isSome) :
    ((desired routes wanted).lookup key).isSome := by
  induction routes generalizing wanted with
  | nil => exact present
  | cons route rest ih =>
    unfold desired
    split
    next other m _ _ =>
      apply ih
      split
      · exact present
      · rw [HashMap.lookup_insert_eq]
        split
        · rfl
        · exact present
    next => exact ih present

/-- Every metered route has its counter asked for. -/
theorem desired_of_mem {routes : List Config.Route} (wanted : HashMap Text RouteMetricsConfig)
    {route : Config.Route} {key : Text} (member : route ∈ routes)
    (named : keyFor route = some key) : ((desired routes wanted).lookup key).isSome := by
  induction routes generalizing wanted with
  | nil => cases member
  | cons first rest ih =>
    unfold desired
    rcases List.mem_cons.mp member with rfl | later
    · obtain ⟨m, block⟩ : ∃ m, route.metrics = some m := by
        cases block : route.metrics with
        | none => simp [keyFor, block] at named
        | some m => exact ⟨m, rfl⟩
      simp only [named, block]
      apply desired_of_wanted
      split
      next present => exact present
      next => rw [HashMap.lookup_insert_eq, if_pos rfl]; rfl
    · split
      · exact ih _ later
      · exact ih _ later

/-- The counters ever created, those in the store by name, and the files. An
`Arc<RouteTrafficCounter>` is the counter's place in `allocated`. -/
structure RouteMetricsStore where
  allocated : List RouteTrafficCounter
  counters : HashMap Text Nat
  files : HashMap Text (Option UsageFile)

namespace RouteMetricsStore

/-- The counter of a route, as the place where it is allocated. -/
def handle (self : RouteMetricsStore) (route : Config.Route) : Option Nat :=
  (keyFor route).bind self.counters.lookup

-- `tmpOf` is `Path::with_extension("tmp")`
variable (tmpOf : Text → Text)

/-- `flush_counter`, with nothing in between; `writes` is whether the file can be written. -/
def flushCounter (self : RouteMetricsStore) (arc : Nat) (force : Bool) (nowMillis : Int64)
    (writes : Bool) : RouteMetricsStore :=
  match self.allocated[arc]? with
  | none => self
  | some counter =>
    match counter.file with
    | none => self
    | some path =>
      if ¬ force ∧ ¬ counter.dirty then self
      else if writes then
        { self with
          allocated := self.allocated.set arc { counter with dirty := false }
          files := (self.files.erase (tmpOf path)).insert path (some (counter.usage nowMillis)) }
      else { self with allocated := self.allocated.set arc { counter with dirty := true } }

/-- What decides the outcome of `apply_config` beside the routes. -/
structure Surroundings where
  nowMillis : Int64
  writes : Bool

/-- The counters that are dropped are flushed first. -/
def retire (wanted : HashMap Text RouteMetricsConfig) (env : Surroundings) :
    List (Σ _ : Text, Nat) → RouteMetricsStore → RouteMetricsStore
  | [], self => self
  | entry :: rest, self =>
    if (wanted.lookup entry.1).isSome then retire wanted env rest self
    else retire wanted env rest (self.flushCounter tmpOf entry.2 true env.nowMillis env.writes)

/-- `entry(key).or_insert_with(..)`: the store with a counter under `key`, and its place. -/
def ensure (self : RouteMetricsStore) (key : Text) (file : Option Text) :
    RouteMetricsStore × Nat :=
  match self.counters.lookup key with
  | some arc => (self, arc)
  | none =>
    let loaded := (file.bind self.files.lookup).getD none
    let arc := self.allocated.length
    ({ self with
      allocated := self.allocated ++ [(RouteTrafficCounter.new key).loadPersisted loaded]
      counters := self.counters.insert key arc }, arc)

/-- The loop body of `apply_config`. -/
def configureOne (self : RouteMetricsStore) (key : Text) (m : RouteMetricsConfig)
    (nowMillis : Int64) : RouteMetricsStore :=
  let (self, arc) := self.ensure key m.file
  { self with
    allocated := self.allocated.modify arc fun counter => counter.configure m nowMillis }

def configureAll (nowMillis : Int64) :
    List (Σ _ : Text, RouteMetricsConfig) → RouteMetricsStore → RouteMetricsStore
  | [], self => self
  | entry :: rest, self =>
    configureAll nowMillis rest (self.configureOne entry.1 entry.2 nowMillis)

def applyConfig (self : RouteMetricsStore) (routes : List Config.Route) (env : Surroundings) :
    RouteMetricsStore :=
  let wanted := desired routes ∅
  let flushed := retire tmpOf wanted env self.counters.entries self
  let kept := { flushed with
    counters := flushed.counters.retain fun key _ => (wanted.lookup key).isSome }
  configureAll env.nowMillis wanted.entries kept

/-! ### Which counter is found where -/

/-- Each counter of the store stands where the store says, under its own name. -/
def Registered (self : RouteMetricsStore) : Prop :=
  ∀ key arc, self.counters.lookup key = some arc →
    ∃ counter, self.allocated[arc]? = some counter ∧ counter.key = key

variable {self : RouteMetricsStore}

theorem Registered.lt (registered : Registered self) {key : Text} {arc : Nat}
    (stored : self.counters.lookup key = some arc) : arc < self.allocated.length := by
  obtain ⟨counter, here, -⟩ := registered key arc stored
  exact (List.getElem?_eq_some_iff.mp here).1

theorem Registered.key_unique (registered : Registered self) {one two : Text} {arc : Nat}
    (first : self.counters.lookup one = some arc) (second : self.counters.lookup two = some arc) :
    one = two := by
  obtain ⟨counter, here, rfl⟩ := registered one arc first
  obtain ⟨counter', here', rfl⟩ := registered two arc second
  rw [Option.some.inj (here.symm.trans here')]

/-- A flush changes no name and no counter but its own flag. -/
theorem flushCounter_frame (self : RouteMetricsStore) (arc : Nat) (force : Bool)
    (nowMillis : Int64) (writes : Bool) :
    (self.flushCounter tmpOf arc force nowMillis writes).counters = self.counters ∧
      (self.flushCounter tmpOf arc force nowMillis writes).allocated.map
        RouteTrafficCounter.key = self.allocated.map RouteTrafficCounter.key := by
  unfold flushCounter
  split
  next => exact ⟨rfl, rfl⟩
  next counter here =>
    have names (dirty : Bool) :
        (self.allocated.set arc { counter with dirty }).map RouteTrafficCounter.key =
          self.allocated.map RouteTrafficCounter.key :=
      Threads.map_set_of_eq here rfl
    split
    next => exact ⟨rfl, rfl⟩
    next path _ =>
      split
      · exact ⟨rfl, rfl⟩
      · split
        · exact ⟨rfl, names false⟩
        · exact ⟨rfl, names true⟩

private theorem retire_frame (wanted : HashMap Text RouteMetricsConfig) (env : Surroundings)
    (entries : List (Σ _ : Text, Nat)) (self : RouteMetricsStore) :
    (retire tmpOf wanted env entries self).counters = self.counters ∧
      (retire tmpOf wanted env entries self).allocated.map RouteTrafficCounter.key =
        self.allocated.map RouteTrafficCounter.key := by
  induction entries generalizing self with
  | nil => exact ⟨rfl, rfl⟩
  | cons entry rest ih =>
    unfold retire
    split
    · exact ih self
    · obtain ⟨counters, names⟩ :=
        flushCounter_frame tmpOf self entry.2 true env.nowMillis env.writes
      obtain ⟨counters', names'⟩ :=
        ih (self.flushCounter tmpOf entry.2 true env.nowMillis env.writes)
      exact ⟨counters'.trans counters, names'.trans names⟩

private theorem enabled_configure (counter : RouteTrafficCounter) (m : RouteMetricsConfig)
    (nowMillis : Int64) (direction : Direction) :
    (counter.configure m nowMillis).enabled direction = metersIn m direction ∧
      (counter.configure m nowMillis).key = counter.key := by
  unfold RouteTrafficCounter.configure
  dsimp only
  split <;> cases direction <;> exact ⟨rfl, rfl⟩

/-- What the loop body does: the name leads to a counter with the new settings, an old one
if there was one, and nothing else changes. -/
theorem configureOne_spec (registered : Registered self) (key : Text) (m : RouteMetricsConfig)
    (nowMillis : Int64) :
    ∃ arc counter, (self.counters.lookup key = some arc ∨
        self.counters.lookup key = none ∧ arc = self.allocated.length) ∧
      (∀ other, (self.configureOne key m nowMillis).counters.lookup other =
        if other = key then some arc else self.counters.lookup other) ∧
      (self.configureOne key m nowMillis).allocated[arc]? = some counter ∧ counter.key = key ∧
      (∀ direction, counter.enabled direction = metersIn m direction) ∧
      ∀ other, other ≠ arc →
        (self.configureOne key m nowMillis).allocated[other]? = self.allocated[other]? := by
  cases stored : self.counters.lookup key with
  -- the counter is kept, with its totals
  | some arc =>
    obtain ⟨counter, here, name⟩ := registered key arc stored
    have body : self.configureOne key m nowMillis =
        { self with allocated := self.allocated.modify arc fun counter =>
            counter.configure m nowMillis } := by
      simp only [configureOne, ensure, stored]
    rw [body]
    refine ⟨arc, counter.configure m nowMillis, .inl rfl, fun other => ?_, ?_, ?_, ?_, ?_⟩
    · split
      next same => rw [same, stored]
      next => rfl
    · rw [List.getElem?_modify_eq, here]
      rfl
    · exact (enabled_configure counter m nowMillis .upload).2.trans name
    · exact fun direction => (enabled_configure counter m nowMillis direction).1
    · exact fun other apart => List.getElem?_modify_ne _ _ apart.symm
  -- a new counter starts from what its file holds
  | none =>
    let fresh := (RouteTrafficCounter.new key).loadPersisted
      ((m.file.bind self.files.lookup).getD none)
    have body : self.configureOne key m nowMillis =
        { self with
          allocated := (self.allocated ++ [fresh]).modify self.allocated.length fun counter =>
            counter.configure m nowMillis
          counters := self.counters.insert key self.allocated.length } := by
      simp only [configureOne, ensure, stored, fresh]
    have name : fresh.key = key := by
      simp only [fresh, RouteTrafficCounter.loadPersisted]
      split <;> rfl
    rw [body]
    refine ⟨self.allocated.length, fresh.configure m nowMillis, .inr ⟨rfl, rfl⟩, fun other => ?_,
      ?_, ?_, ?_, ?_⟩
    · exact HashMap.lookup_insert_eq _ _ _ _
    · rw [List.getElem?_modify_eq, List.getElem?_concat_length]
      rfl
    · exact (enabled_configure fresh m nowMillis .upload).2.trans name
    · exact fun direction => (enabled_configure fresh m nowMillis direction).1
    · intro other apart
      dsimp only
      rw [List.getElem?_modify_ne _ _ apart.symm]
      rcases Nat.lt_or_gt_of_ne apart with before | beyond
      · rw [List.getElem?_append_left before]
      · rw [List.getElem?_eq_none (Nat.le_of_lt beyond), List.getElem?_eq_none]
        rw [List.length_append]
        exact beyond

/-- How the counters change while they are configured: those that are found stay where they
are, and a counter that was created before is found only under a name it had. -/
structure Grows (before after : RouteMetricsStore) : Prop where
  registered : Registered after
  length : before.allocated.length ≤ after.allocated.length
  kept : ∀ key arc, before.counters.lookup key = some arc → after.counters.lookup key = some arc
  old : ∀ key arc, after.counters.lookup key = some arc → arc < before.allocated.length →
    before.counters.lookup key = some arc

theorem Grows.trans {one two three : RouteMetricsStore} (first : Grows one two)
    (second : Grows two three) : Grows one three where
  registered := second.registered
  length := Nat.le_trans first.length second.length
  kept := fun key arc stored => second.kept key arc (first.kept key arc stored)
  old := fun key arc stored early =>
    first.old key arc (second.old key arc stored (Nat.lt_of_lt_of_le early first.length)) early

theorem configureOne_grows (registered : Registered self) (key : Text) (m : RouteMetricsConfig)
    (nowMillis : Int64) : Grows self (self.configureOne key m nowMillis) := by
  obtain ⟨arc, counter, found, names, here, name, -, others⟩ :=
    configureOne_spec registered key m nowMillis
  -- no other name leads to this counter
  have elsewhere (other : Text) (place : Nat) (apart : other ≠ key)
      (stored : self.counters.lookup other = some place) : place ≠ arc := by
    rintro rfl
    rcases found with found | ⟨-, rfl⟩
    · exact apart (registered.key_unique stored found)
    · exact Nat.lt_irrefl _ (registered.lt stored)
  refine ⟨fun other place stored => ?_, ?_, fun other place stored => ?_,
    fun other place stored early => ?_⟩
  · rw [names] at stored
    split at stored
    next same =>
      cases stored
      exact ⟨counter, here, name.trans same.symm⟩
    next apart =>
      rw [others place (elsewhere other place apart stored)]
      exact registered other place stored
  · have reaches : arc < (self.configureOne key m nowMillis).allocated.length :=
      (List.getElem?_eq_some_iff.mp here).1
    rcases found with found | ⟨-, rfl⟩
    · -- the places of the other counters are still there
      apply Nat.le_of_not_lt
      intro shorter
      have gone := others (self.allocated.length - 1) (by omega)
      rw [List.getElem?_eq_none (by omega), List.getElem?_eq_getElem (by omega)] at gone
      cases gone
    · omega
  · rw [names]
    split
    next same =>
      subst same
      rcases found with found | ⟨found, -⟩
      · rw [← found, stored]
      · rw [found] at stored
        cases stored
    next => exact stored
  · rw [names] at stored
    split at stored
    next same =>
      cases stored
      rcases found with found | ⟨-, rfl⟩
      · rw [same, found]
      · exact absurd early (Nat.lt_irrefl _)
    next => exact stored

private theorem configureAll_grows (nowMillis : Int64)
    (entries : List (Σ _ : Text, RouteMetricsConfig)) (registered : Registered self) :
    Grows self (configureAll nowMillis entries self) := by
  induction entries generalizing self with
  | nil => exact ⟨registered, Nat.le_refl _, fun _ _ stored => stored, fun _ _ stored _ => stored⟩
  | cons entry rest ih =>
    have first := configureOne_grows registered entry.1 entry.2 nowMillis
    exact first.trans (ih first.registered)

/-- The loop leaves the counters of other names alone, and finds no new one under them. -/
theorem configureAll_frame (nowMillis : Int64) (entries : List (Σ _ : Text, RouteMetricsConfig))
    (registered : Registered self) {key : Text} (other : key ∉ entries.keys) :
    (configureAll nowMillis entries self).counters.lookup key = self.counters.lookup key ∧
      ∀ arc, self.counters.lookup key = some arc →
        (configureAll nowMillis entries self).allocated[arc]? = self.allocated[arc]? := by
  induction entries generalizing self with
  | nil => exact ⟨rfl, fun _ _ => rfl⟩
  | cons entry rest ih =>
    obtain ⟨apart, later⟩ := not_or.mp (mt List.mem_cons.mpr other)
    obtain ⟨place, counter, found, names, -, -, -, others⟩ :=
      configureOne_spec registered entry.1 entry.2 nowMillis
    have first := configureOne_grows registered entry.1 entry.2 nowMillis
    obtain ⟨lookup, same⟩ := ih first.registered later
    have here : (self.configureOne entry.1 entry.2 nowMillis).counters.lookup key =
        self.counters.lookup key := by
      rw [names, if_neg apart]
    refine ⟨lookup.trans here, fun arc stored => ?_⟩
    have elsewhere : arc ≠ place := by
      rintro rfl
      rcases found with found | ⟨-, rfl⟩
      · exact apart (registered.key_unique stored found)
      · exact Nat.lt_irrefl _ (registered.lt stored)
    exact (same arc (here.trans stored)).trans (others arc elsewhere)

/-- After the loop each name leads to a counter with the settings asked for. -/
theorem configureAll_enabled (nowMillis : Int64)
    (entries : List (Σ _ : Text, RouteMetricsConfig)) (distinct : entries.NodupKeys)
    (registered : Registered self) {key : Text} {m : RouteMetricsConfig}
    (member : ⟨key, m⟩ ∈ entries) :
    ∃ arc counter, (configureAll nowMillis entries self).counters.lookup key = some arc ∧
      (configureAll nowMillis entries self).allocated[arc]? = some counter ∧
      ∀ direction, counter.enabled direction = metersIn m direction := by
  induction entries generalizing self with
  | nil => cases member
  | cons entry rest ih =>
    obtain ⟨once, distinct⟩ := List.nodupKeys_cons.mp distinct
    have first := configureOne_grows registered entry.1 entry.2 nowMillis
    rcases List.mem_cons.mp member with same | member
    · cases same
      obtain ⟨arc, counter, -, names, here, -, enabled, -⟩ :=
        configureOne_spec registered key m nowMillis
      have stored : (self.configureOne key m nowMillis).counters.lookup key = some arc := by
        rw [names, if_pos rfl]
      obtain ⟨lookup, unchanged⟩ := configureAll_frame nowMillis rest first.registered once
      exact ⟨arc, counter, lookup.trans stored, (unchanged arc stored).trans here, enabled⟩
    · exact ih distinct first.registered member

/-! ### `apply_config` -/

/-- The store in the middle of `apply_config`, before its loop over the counters asked for. -/
def retained (self : RouteMetricsStore) (routes : List Config.Route) (env : Surroundings) :
    RouteMetricsStore :=
  let flushed := retire tmpOf (desired routes ∅) env self.counters.entries self
  { flushed with
    counters := flushed.counters.retain fun key _ => ((desired routes ∅).lookup key).isSome }

private theorem lookup_retained (routes : List Config.Route) (env : Surroundings) (key : Text) :
    (self.retained tmpOf routes env).counters.lookup key =
      if ((desired routes ∅).lookup key).isSome then self.counters.lookup key else none := by
  rw [retained, HashMap.lookup_retain, (retire_frame tmpOf _ _ _ _).1]
  cases self.counters.lookup key with
  | none => rw [Option.filter_none, ite_self]
  | some arc => rw [Option.filter_some]

private theorem length_retained (routes : List Config.Route) (env : Surroundings) :
    (self.retained tmpOf routes env).allocated.length = self.allocated.length := by
  have names := (retire_frame tmpOf (desired routes ∅) env self.counters.entries self).2
  have lengths := congrArg List.length names
  rwa [List.length_map, List.length_map] at lengths

theorem retained_registered (registered : Registered self) (routes : List Config.Route)
    (env : Surroundings) : Registered (self.retained tmpOf routes env) := by
  intro key arc stored
  rw [lookup_retained] at stored
  split at stored
  next =>
    obtain ⟨counter, here, name⟩ := registered key arc stored
    have names := (retire_frame tmpOf (desired routes ∅) env self.counters.entries self).2
    have place := congrArg (fun names : List Text => names[arc]?) names
    simp only [List.getElem?_map, here, Option.map_some] at place
    obtain ⟨counter', here', name'⟩ := Option.map_eq_some_iff.mp place
    exact ⟨counter', here', name'.trans name⟩
  next => cases stored

variable (routes : List Config.Route) (env : Surroundings)

theorem applyConfig_registered (registered : Registered self) :
    Registered (self.applyConfig tmpOf routes env) :=
  (configureAll_grows _ _ (retained_registered tmpOf registered routes env)).registered

theorem applyConfig_length (registered : Registered self) :
    self.allocated.length ≤ (self.applyConfig tmpOf routes env).allocated.length := by
  rw [← length_retained tmpOf routes env]
  exact (configureAll_grows _ _ (retained_registered tmpOf registered routes env)).length

/-- A counter that the config asks for stays. -/
theorem applyConfig_kept (registered : Registered self) {key : Text} {arc : Nat}
    (wanted : ((desired routes ∅).lookup key).isSome)
    (stored : self.counters.lookup key = some arc) :
    (self.applyConfig tmpOf routes env).counters.lookup key = some arc := by
  apply (configureAll_grows _ _ (retained_registered tmpOf registered routes env)).kept
  rw [lookup_retained, if_pos wanted, stored]

/-- A counter that was dropped does not come back. -/
theorem applyConfig_old (registered : Registered self) {key : Text} {arc : Nat}
    (stored : (self.applyConfig tmpOf routes env).counters.lookup key = some arc)
    (early : arc < self.allocated.length) :
    self.counters.lookup key = some arc ∧ ((desired routes ∅).lookup key).isSome := by
  rw [← length_retained tmpOf routes env] at early
  have before := (configureAll_grows _ _ (retained_registered tmpOf registered routes env)).old
    key arc stored early
  rw [lookup_retained] at before
  split at before
  next wanted => exact ⟨before, wanted⟩
  next => cases before

/-- A counter that the config asks for is there, with its settings. -/
theorem applyConfig_enabled (registered : Registered self) {key : Text} {m : RouteMetricsConfig}
    (wanted : (desired routes ∅).lookup key = some m) :
    ∃ arc counter, (self.applyConfig tmpOf routes env).counters.lookup key = some arc ∧
      (self.applyConfig tmpOf routes env).allocated[arc]? = some counter ∧
      ∀ direction, counter.enabled direction = metersIn m direction :=
  configureAll_enabled _ _ (desired routes ∅).nodupKeys
    (retained_registered tmpOf registered routes env) (HashMap.mem_entries_iff.mpr wanted)

end RouteMetricsStore

end MCGate
