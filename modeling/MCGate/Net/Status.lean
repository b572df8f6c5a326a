import MCGate.Lib.Threads
import MCGate.Net.Api
import MCGate.Net.PingCache
import MCGate.Protocol.VarInt
import MCGate.State.RouteRuntime
import MCGate.Std.Display

/-!
# Status requests

`handle_status` asks the backends of a route in turn. It answers from the cache where it can,
and dials otherwise, but not more than a few times at once: past that it takes the answer
last seen of the backend, or waits. All routes share one cache, which holds both kinds of
answers under texts; hosts come from the client and may be anything.
-/
namespace MCGate

open Machine Threads

/-- `str::to_ascii_lowercase` -/
def toAsciiLowercase (text : Text) : Text := text.map Char.toLower

/-- The key of what was last seen of a backend, and of whether it is down. -/
def downKey (addr : SocketAddr) : Text :=
  displayIp addr.ip ++ ':' :: Nat.toDigits 10 addr.port.toNat

def statusCacheKey (backendKey host : Text) (protocolVersion : Int32) : Text :=
  backendKey ++ '|' :: toAsciiLowercase host ++ '|' :: displayInt protocolVersion.toInt

/-! ### Keys -/

private theorem bar_notMem_downKey (addr : SocketAddr) : '|' ∉ downKey addr := by
  have ip := notMem_displayIp (c := '|') (by decide) (by decide) (by decide) addr.ip
  have port := notMem_decimal (c := '|') (by decide) addr.port.toNat
  simp [downKey, ip, port]

private theorem downKey_injective : Function.Injective downKey := by
  intro addr addr' same
  have digits (n : Nat) : ':' ∉ Nat.toDigits 10 n := notMem_decimal (by decide) n
  obtain ⟨ip, port⟩ := (append_cons_inj_of_notMem_right (digits _) (digits _)).mp same
  cases addr
  cases addr'
  rw [SocketAddr.mk.injEq, ← UInt16.toNat_inj]
  exact ⟨displayIp_injective ip, toDigits_injective (by decide) (by decide) port⟩

/-- Whatever the hosts are, a key tells the backend, the host up to case and the protocol. -/
theorem statusCacheKey_inj {addr addr' : SocketAddr} {host host' : Text}
    {protocol protocol' : Int32} :
    statusCacheKey (downKey addr) host protocol = statusCacheKey (downKey addr') host' protocol' ↔
      addr = addr' ∧ toAsciiLowercase host = toAsciiLowercase host' ∧ protocol = protocol' := by
  have bar (n : Int) : '|' ∉ displayInt n := notMem_displayInt (by decide) (by decide) n
  have first := @append_cons_inj_of_notMem_left Char '|' (downKey addr) (downKey addr')
    (toAsciiLowercase host ++ '|' :: displayInt protocol.toInt)
    (toAsciiLowercase host' ++ '|' :: displayInt protocol'.toInt)
    (bar_notMem_downKey addr) (bar_notMem_downKey addr')
  simp only [statusCacheKey, List.append_assoc, List.cons_append]
  -- the backend ends at the first bar, and the protocol starts after the last
  rw [first, append_cons_inj_of_notMem_right (bar _) (bar _), downKey_injective.eq_iff,
    displayInt_injective.eq_iff, Int32.toInt_inj]

private theorem statusCacheKey_ne_downKey (addr addr' : SocketAddr) (host : Text)
    (protocol : Int32) : statusCacheKey (downKey addr) host protocol ≠ downKey addr' := by
  intro same
  apply bar_notMem_downKey addr'
  rw [← same]
  simp [statusCacheKey]

/-! ### Requests -/

/-- The packet that was read is a status request. A frame that was read has a length. -/
def isStatusRequest (frame : Bytes) : Bool :=
  match readVarInt frame with
  | .error _ => false
  | .ok (_, headerLen) =>
    match readVarInt (frame.drop headerLen) with
    | .error _ => false
    | .ok (packetId, _) => packetId = 0x00

/-! ### Answers -/

/-- `Value::as_i64` -/
def asI64 : Api.Json → Option Int64
  | .number (.posInt n) => if n.toNat < 2 ^ 63 then some (Int64.ofNat n.toNat) else none
  | .number (.negInt n) => some n
  | _ => none

def isNumber : Api.Json → Bool
  | .number _ => true
  | _ => false

-- `parse` is `serde_json::from_str`
variable (parse : Text → Option Api.Json)

def statusProtocol (json : Text) : Option Int64 := do
  let value ← parse json
  let version ← value.get "version".toList
  let protocol ← version.get "protocol".toList
  asI64 protocol

def isValidStatusJson (json : Text) : Bool :=
  match parse json with
  | none => false
  | some value =>
    (((value.get "version".toList).bind (Api.Json.get "protocol".toList)).map isNumber).getD false

/-- A dial that brought an answer: where it went, what was asked for, and the answer. -/
structure StatusDial where
  addr : SocketAddr
  host : Text
  protocol : Int32
  json : Text

/-- What the requests share: the cache and, by their allocation, the runtimes of the routes.
Only the statements read the rest: the dials that brought an answer and, for each backend,
the answer stored last under its key. -/
structure StatusShared where
  cache : PingCache
  runtimes : Nat → RouteRuntime
  dials : List StatusDial
  lastKnown : SocketAddr → Option Text

/-- Where an answer comes from. Of one taken over the cap, `inFlight` is the number of dials
that the refusal saw and `known` what was then the answer stored last. -/
inductive AnswerSource where
  | cached
  | dialed
  | lastKnown (inFlight : Int) (known : Option Text)

inductive StatusStage where
  | trying (backends : List SocketAddr)
  | checkingDown (addr : SocketAddr) (rest : List SocketAddr)
  | beginning (addr : SocketAddr) (rest : List SocketAddr)
  | overCap (addr : SocketAddr) (rest : List SocketAddr) (inFlight : Int)
  | waiting (addr : SocketAddr) (rest : List SocketAddr)
  | polling (addr : SocketAddr) (rest : List SocketAddr) (deadline : Instant)
  | slept (addr : SocketAddr) (rest : List SocketAddr) (deadline : Instant)
  | retrying (addr : SocketAddr) (rest : List SocketAddr) (deadline : Instant)
  | starting (addr : SocketAddr) (rest : List SocketAddr)
  | dialing (addr : SocketAddr) (rest : List SocketAddr) (start : Instant)
  | ending (addr : SocketAddr) (rest : List SocketAddr) (start : Instant) (result : Option Text)
  | recording (addr : SocketAddr) (start : Instant) (json : Text)
  | clearing (addr : SocketAddr) (json : Text)
  | storing (addr : SocketAddr) (json : Text)
  | clearingLast (addr : SocketAddr) (json : Text)
  | storingLast (addr : SocketAddr) (json : Text)
  | markingDown (addr : SocketAddr) (rest : List SocketAddr)
  /-- the client is sent the backend's answer -/
  | answered (addr : SocketAddr) (json : Text) (source : AnswerSource)
  /-- the client is sent the configured fallback, or nothing -/
  | failed

/-- A status request: the runtime and the settings of its route, and the client's handshake. -/
structure StatusRequest where
  runtime : Nat
  ttlMillis : Int64
  host : Text
  protocol : Int32

/-- A request, or the sweeper of the cache. -/
inductive StatusThread where
  | request (req : StatusRequest) (stage : StatusStage)
  | sweepingEntries
  | sweepingDown
  | swept

/-- What the environment decides: the time, and what a dialed backend sends. -/
structure StatusChoice where
  now : Instant
  reply : Option Text

namespace StatusShared

def statusSlotWait : Nat := 3 * nanosPerSecond

def setRuntime (s : StatusShared) (arc : Nat) (runtime : RouteRuntime) : StatusShared :=
  { s with runtimes := Function.update s.runtimes arc runtime }

/-- `try_begin_status_dial` on the runtime of the request. -/
def tryBegin (s : StatusShared) (req : StatusRequest) (addr : SocketAddr) : StatusShared × Bool :=
  let (runtime, admitted) := (s.runtimes req.runtime).tryBeginStatusDial addr
    RouteRuntime.maxConcurrentStatusDials
  (s.setRuntime req.runtime runtime, admitted)

def responseKey (req : StatusRequest) (addr : SocketAddr) : Text :=
  statusCacheKey (downKey addr) req.host req.protocol

/-- A step of `handle_status` or `wait_for_status_slot`. -/
def requestStep (s : StatusShared) (req : StatusRequest) (choice : StatusChoice) :
    StatusStage → Option (StatusShared × StatusStage)
  | .trying [] => some (s, .failed)
  | .trying (addr :: rest) =>
    let (cache, cached) := s.cache.get choice.now (responseKey req addr)
    match cached with
    | some json => some ({ s with cache }, .answered addr json .cached)
    | none => some ({ s with cache }, .checkingDown addr rest)
  | .checkingDown addr rest =>
    let (cache, down) := s.cache.isKnownDown choice.now (downKey addr)
    some ({ s with cache }, if down then .trying rest else .beginning addr rest)
  | .beginning addr rest =>
    let inFlight := (s.runtimes req.runtime).statusDialsInFlight.countOf addr
    let (s, admitted) := s.tryBegin req addr
    some (s, if admitted then .starting addr rest else .overCap addr rest inFlight)
  | .overCap addr rest inFlight =>
    let (cache, cached) := s.cache.get choice.now (downKey addr)
    match cached.filter fun json => statusProtocol parse json = some req.protocol.toInt64 with
    | some json =>
      some ({ s with cache }, .answered addr json (.lastKnown inFlight (s.lastKnown addr)))
    | none => some ({ s with cache }, .waiting addr rest)
  | .waiting addr rest => some (s, .polling addr rest (choice.now + statusSlotWait))
  | .polling addr rest deadline =>
    -- past the deadline the request goes on with the next backend
    some (s, if choice.now < deadline then .slept addr rest deadline else .trying rest)
  | .slept addr rest deadline =>
    let (cache, cached) := s.cache.get choice.now (responseKey req addr)
    match cached with
    | some json => some ({ s with cache }, .answered addr json .cached)
    | none => some ({ s with cache }, .retrying addr rest deadline)
  | .retrying addr rest deadline =>
    let (s, admitted) := s.tryBegin req addr
    some (s, if admitted then .starting addr rest else .polling addr rest deadline)
  | .starting addr rest => some (s, .dialing addr rest choice.now)
  | .dialing addr rest start =>
    -- `fetch_backend_status` asks for the client's own host and protocol
    let result := choice.reply.filter (isValidStatusJson parse)
    let fetched := result.map fun json => ⟨addr, req.host, req.protocol, json⟩
    some ({ s with dials := s.dials ++ fetched.toList }, .ending addr rest start result)
  | .ending addr rest start result =>
    let runtime := (s.runtimes req.runtime).endStatusDial addr
    match result with
    | some json => some (s.setRuntime req.runtime runtime, .recording addr start json)
    | none => some (s.setRuntime req.runtime runtime, .markingDown addr rest)
  | .recording addr start json =>
    let millis := Int64.ofNat ((choice.now - start) / 1000000)
    let runtime := (s.runtimes req.runtime).recordLatency choice.now addr millis
    some (s.setRuntime req.runtime runtime, .clearing addr json)
  | .clearing addr json =>
    some ({ s with cache := s.cache.clearDown (responseKey req addr) }, .storing addr json)
  | .storing addr json =>
    let cache := s.cache.store choice.now (responseKey req addr) json req.ttlMillis
    some ({ s with cache }, .clearingLast addr json)
  | .clearingLast addr json =>
    some ({ s with cache := s.cache.clearDown (downKey addr) }, .storingLast addr json)
  | .storingLast addr json =>
    let cache := s.cache.store choice.now (downKey addr) json req.ttlMillis
    let lastKnown :=
      if req.ttlMillis < 0 then s.lastKnown else Function.update s.lastKnown addr (some json)
    some ({ s with cache, lastKnown }, .answered addr json .dialed)
  | .markingDown addr rest =>
    some ({ s with cache := s.cache.markDown choice.now (downKey addr) }, .trying rest)
  | .answered _ _ _ => none
  | .failed => none

def advance (s : StatusShared) (thread : StatusThread) (choice : StatusChoice) :
    Option (StatusShared × StatusThread) :=
  match thread with
  | .request req stage =>
    (requestStep parse s req choice stage).map fun (s, stage) => (s, .request req stage)
  | .sweepingEntries =>
    some ({ s with cache := s.cache.sweepEntries choice.now }, .sweepingDown)
  | .sweepingDown => some ({ s with cache := s.cache.sweepDown choice.now }, .swept)
  | .swept => none

/-- A request comes in with its backends resolved and in order; a sweep begins. -/
def fresh : StatusThread → Bool
  | .request _ (.trying _) => true
  | .sweepingEntries => true
  | _ => false

def start : StatusShared := ⟨⟨∅, ∅⟩, fun _ => .new, [], fun _ => none⟩

/-! ### Who is answered what -/

/-- A dial to the backend brought the answer, made with the protocol of the request and with
its host up to case. -/
def Fetched (s : StatusShared) (req : StatusRequest) (addr : SocketAddr) (json : Text) : Prop :=
  ∃ dial ∈ s.dials, dial.addr = addr ∧ dial.protocol = req.protocol ∧
    toAsciiLowercase dial.host = toAsciiLowercase req.host ∧ dial.json = json

/-- The answer was taken over the cap: it is what was last known of the backend, and is for
the protocol of the request. -/
def TakenOverCap (s : StatusShared) (req : StatusRequest) (addr : SocketAddr) (json : Text)
    (source : AnswerSource) : Prop :=
  ∃ inFlight, source = .lastKnown inFlight (some json) ∧
    RouteRuntime.maxConcurrentStatusDials ≤ inFlight ∧
    (∃ dial ∈ s.dials, dial.addr = addr ∧ dial.json = json) ∧
    statusProtocol parse json = some req.protocol.toInt64

/-- Every client that is sent a backend's answer is sent one that fits it. -/
def AnswersMatch (pool : Pool StatusShared StatusThread) : Prop :=
  ∀ req addr json source, .request req (.answered addr json source) ∈ pool.threads →
    Fetched pool.shared req addr json ∨ TakenOverCap parse pool.shared req addr json source

/-- Each entry of the cache is the answer of a dial, under the key of what was asked for or,
if no later one is stored there, under the key of the backend. -/
def CacheSound (s : StatusShared) : Prop :=
  ∀ key entry, s.cache.entries.lookup key = some entry → ∃ dial ∈ s.dials,
    dial.json = entry.json ∧ (key = statusCacheKey (downKey dial.addr) dial.host dial.protocol ∨
      key = downKey dial.addr ∧ s.lastKnown dial.addr = some entry.json)

/-- What holds of a request at each stage. -/
def StageSound (s : StatusShared) (req : StatusRequest) : StatusStage → Prop
  | .overCap _ _ inFlight => RouteRuntime.maxConcurrentStatusDials ≤ inFlight
  | .ending addr _ _ result => ∀ json ∈ result, Fetched s req addr json
  | .recording addr _ json => Fetched s req addr json
  | .clearing addr json => Fetched s req addr json
  | .storing addr json => Fetched s req addr json
  | .clearingLast addr json => Fetched s req addr json
  | .storingLast addr json => Fetched s req addr json
  | .answered addr json source =>
    Fetched s req addr json ∨ TakenOverCap parse s req addr json source
  | _ => True

def ThreadSound (s : StatusShared) : StatusThread → Prop
  | .request req stage => StageSound parse s req stage
  | _ => True

variable {parse} {s s' : StatusShared} {req : StatusRequest}

theorem Fetched.mono (kept : s.dials <+: s'.dials) {addr : SocketAddr} {json : Text}
    (fetched : Fetched s req addr json) : Fetched s' req addr json := by
  obtain ⟨dial, member, rest⟩ := fetched
  exact ⟨dial, kept.subset member, rest⟩

theorem TakenOverCap.mono (kept : s.dials <+: s'.dials) {addr : SocketAddr} {json : Text}
    {source : AnswerSource} (taken : TakenOverCap parse s req addr json source) :
    TakenOverCap parse s' req addr json source := by
  obtain ⟨inFlight, same, full, ⟨dial, member, rest⟩, protocol⟩ := taken
  exact ⟨inFlight, same, full, ⟨dial, kept.subset member, rest⟩, protocol⟩

/-- What was found out stays true while more dials are made. -/
theorem StageSound.mono (kept : s.dials <+: s'.dials) {stage : StatusStage}
    (sound : StageSound parse s req stage) : StageSound parse s' req stage := by
  cases stage with
  | overCap => exact sound
  | ending => exact fun json found => (sound json found).mono kept
  | recording => exact Fetched.mono kept sound
  | clearing => exact Fetched.mono kept sound
  | storing => exact Fetched.mono kept sound
  | clearingLast => exact Fetched.mono kept sound
  | storingLast => exact Fetched.mono kept sound
  | answered => exact sound.imp (Fetched.mono kept) (TakenOverCap.mono kept)
  | _ => trivial

/-- A change that adds nothing to the cache. -/
theorem CacheSound.of_within (sound : CacheSound s)
    (within : PingCache.Within s'.cache.entries s.cache.entries)
    (kept : s.dials <+: s'.dials) (same : s'.lastKnown = s.lastKnown) : CacheSound s' := by
  intro key entry found
  obtain ⟨dial, member, json, where_⟩ := sound key entry (within key entry found)
  refine ⟨dial, kept.subset member, json, ?_⟩
  rw [same]
  exact where_

private theorem within_refl (entries : HashMap Text PingCacheEntry) :
    PingCache.Within entries entries :=
  fun _ _ found => found

/-- What is cached under the key of a request was asked for by it, up to case. -/
theorem fetched_of_get (sound : CacheSound s) {now : Instant} {addr : SocketAddr} {json : Text}
    (cached : (s.cache.get now (responseKey req addr)).2 = some json) :
    Fetched s req addr json := by
  obtain ⟨entry, found, rfl⟩ := PingCache.lookup_of_get cached
  obtain ⟨dial, member, same, key | ⟨key, -⟩⟩ := sound _ _ found
  · obtain ⟨addr, host, protocol⟩ := statusCacheKey_inj.mp key
    exact ⟨dial, member, addr.symm, protocol.symm, host.symm, same⟩
  · exact absurd key (statusCacheKey_ne_downKey _ _ _ _)

/-- What is cached under the key of a backend was the answer stored last. -/
theorem lastKnown_of_get (sound : CacheSound s) {now : Instant} {addr : SocketAddr} {json : Text}
    (cached : (s.cache.get now (downKey addr)).2 = some json) :
    s.lastKnown addr = some json ∧ ∃ dial ∈ s.dials, dial.addr = addr ∧ dial.json = json := by
  obtain ⟨entry, found, rfl⟩ := PingCache.lookup_of_get cached
  obtain ⟨dial, member, same, key | ⟨key, last⟩⟩ := sound _ _ found
  · exact absurd key.symm (statusCacheKey_ne_downKey _ _ _ _)
  · obtain rfl := downKey_injective key
    exact ⟨last, dial, member, rfl, same⟩

/-- A dial is refused only over the cap. -/
theorem full_of_refused {addr : SocketAddr} (refused : (s.tryBegin req addr).2 = false) :
    RouteRuntime.maxConcurrentStatusDials ≤
      (s.runtimes req.runtime).statusDialsInFlight.countOf addr := by
  simp only [tryBegin, RouteRuntime.tryBeginStatusDial, HashMap.tryCountUp] at refused
  by_contra room
  rw [if_neg (by omega)] at refused
  cases refused

/-- What a step of a request or of the sweeper keeps. -/
structure Keeps (parse : Text → Option Api.Json) (s s' : StatusShared) (req : StatusRequest)
    (stage' : StatusStage) : Prop where
  cache : CacheSound s'
  dials : s.dials <+: s'.dials
  stage : StageSound parse s' req stage'

/-- A lookup in the cache goes on without an answer. -/
theorem keeps_get (sound : CacheSound s) {now : Instant} {key : Text} {stage' : StatusStage}
    (plain : StageSound parse { s with cache := (s.cache.get now key).1 } req stage') :
    Keeps parse s { s with cache := (s.cache.get now key).1 } req stage' :=
  ⟨sound.of_within PingCache.get_within (List.prefix_refl _) rfl, List.prefix_refl _, plain⟩

/-- A lookup under the request's own key, on to `next` if there is nothing. -/
theorem keeps_cached (sound : CacheSound s) {now : Instant} {addr : SocketAddr}
    {stage' : StatusStage} (next : StatusStage)
    (plain : ∀ t, StageSound parse t req next)
    (stepped : (match (s.cache.get now (responseKey req addr)).2 with
      | some json =>
        some ({ s with cache := (s.cache.get now (responseKey req addr)).1 },
          StatusStage.answered addr json .cached)
      | none => some ({ s with cache := (s.cache.get now (responseKey req addr)).1 }, next)) =
        some (s', stage')) :
    Keeps parse s s' req stage' := by
  split at stepped
  next json cached =>
    cases stepped
    exact keeps_get sound (.inl (fetched_of_get sound cached))
  next =>
    cases stepped
    exact keeps_get sound (plain _)

private theorem keeps_overCap (sound : CacheSound s) {choice : StatusChoice} {addr : SocketAddr}
    {rest : List SocketAddr} {inFlight : Int} {stage' : StatusStage}
    (full : RouteRuntime.maxConcurrentStatusDials ≤ inFlight)
    (stepped : requestStep parse s req choice (.overCap addr rest inFlight) =
      some (s', stage')) :
    Keeps parse s s' req stage' := by
  simp only [requestStep] at stepped
  split at stepped
  next json kept =>
    cases stepped
    obtain ⟨cached, fits⟩ := Option.filter_eq_some_iff.mp kept
    obtain ⟨last, dial⟩ := lastKnown_of_get sound cached
    refine keeps_get sound (.inr ⟨inFlight, ?_, full, dial, of_decide_eq_true fits⟩)
    rw [last]
  next =>
    cases stepped
    exact keeps_get sound trivial

/-- The runtime changes, and nothing else. -/
theorem keeps_runtime (sound : CacheSound s) (arc : Nat) (runtime : RouteRuntime)
    {stage' : StatusStage} (next : StageSound parse s req stage') :
    Keeps parse s (s.setRuntime arc runtime) req stage' := by
  have kept : s.dials <+: (s.setRuntime arc runtime).dials := List.prefix_refl _
  exact ⟨sound.of_within (within_refl _) kept rfl, kept, next.mono kept⟩

/-- The other map of the cache changes. -/
theorem keeps_down (sound : CacheSound s) (cache : PingCache)
    (same : cache.entries = s.cache.entries) (stage' : StatusStage)
    (next : StageSound parse s req stage') : Keeps parse s { s with cache } req stage' := by
  have kept : s.dials <+: { s with cache }.dials := List.prefix_refl _
  refine ⟨sound.of_within ?_ kept rfl, kept, next.mono kept⟩
  show PingCache.Within cache.entries _
  rw [same]
  exact within_refl _

private theorem keeps_dial (sound : CacheSound s) {addr : SocketAddr} {rest : List SocketAddr}
    {start : Instant} (result : Option Text) :
    Keeps parse s
      { s with dials := s.dials ++
          (result.map fun json => (⟨addr, req.host, req.protocol, json⟩ : StatusDial)).toList }
      req (.ending addr rest start result) := by
  have kept : s.dials <+: s.dials ++
      (result.map fun json => (⟨addr, req.host, req.protocol, json⟩ : StatusDial)).toList :=
    List.prefix_append _ _
  refine ⟨sound.of_within (within_refl _) kept rfl, kept, ?_⟩
  rintro json rfl
  exact ⟨_, List.mem_append_right _ (List.mem_singleton_self _), rfl, rfl, rfl, rfl⟩

/-- An answer is stored under the key it was asked for with. -/
theorem keeps_store (sound : CacheSound s) {now : Instant} {addr : SocketAddr} {json : Text}
    {ttlMillis : Int64} (fetched : Fetched s req addr json) :
    Keeps parse s
      { s with cache := s.cache.store now (responseKey req addr) json ttlMillis } req
      (.clearingLast addr json) := by
  refine ⟨fun key entry found => ?_, List.prefix_refl _, fetched⟩
  rcases PingCache.lookup_of_store found with ⟨-, old⟩ | ⟨-, rfl, rfl⟩
  · exact sound key entry old
  · obtain ⟨dial, member, at_, protocol, host, same⟩ := fetched
    exact ⟨dial, member, same, .inl (statusCacheKey_inj.mpr ⟨at_.symm, host.symm, protocol.symm⟩)⟩

/-- And under the key of the backend, where it is then the one stored last. -/
theorem keeps_storeLast (sound : CacheSound s) {now : Instant} {addr : SocketAddr} {json : Text}
    {ttlMillis : Int64} (fetched : Fetched s req addr json) :
    Keeps parse s
      { s with
        cache := s.cache.store now (downKey addr) json ttlMillis
        lastKnown :=
          if ttlMillis < 0 then s.lastKnown else Function.update s.lastKnown addr (some json) }
      req (.answered addr json .dialed) := by
  refine ⟨fun key entry found => ?_, List.prefix_refl _, .inl fetched⟩
  rcases PingCache.lookup_of_store found with ⟨other, old⟩ | ⟨stored, rfl, rfl⟩
  · obtain ⟨dial, member, same, where_⟩ := sound key entry old
    refine ⟨dial, member, same, where_.imp_right fun ⟨at_, last⟩ => ⟨at_, ?_⟩⟩
    dsimp only
    rcases other with skipped | apart
    · rw [if_pos skipped]
      exact last
    · split
      · exact last
      · rw [Function.update_of_ne, last]
        rintro rfl
        exact apart at_
  · obtain ⟨dial, member, rfl, -, -, same⟩ := fetched
    refine ⟨dial, member, same, .inr ⟨rfl, ?_⟩⟩
    dsimp only
    rw [if_neg stored, Function.update_self]

private theorem stageSound_ite {p : Prop} [Decidable p] {one two : StatusStage}
    (yes : StageSound parse s req one) (no : ¬ p → StageSound parse s req two) :
    StageSound parse s req (if p then one else two) := by
  split
  · exact yes
  next not => exact no not

private theorem keeps_requestStep (sound : CacheSound s) {choice : StatusChoice}
    {stage stage' : StatusStage} (before : StageSound parse s req stage)
    (stepped : requestStep parse s req choice stage = some (s', stage')) :
    Keeps parse s s' req stage' := by
  have unchanged {next : StatusStage} (plain : StageSound parse s req next) :
      Keeps parse s s req next := ⟨sound, List.prefix_refl _, plain⟩
  cases stage with
  | trying backends =>
    cases backends with
    | nil =>
      cases stepped
      exact unchanged trivial
    | cons addr rest =>
      exact keeps_cached sound (.checkingDown addr rest) (fun _ => trivial) stepped
  -- a backend that is known to be down is skipped without a dial
  | checkingDown addr rest =>
    simp only [requestStep, Option.some.injEq, Prod.mk.injEq] at stepped
    obtain ⟨rfl, rfl⟩ := stepped
    exact keeps_down sound _ PingCache.isKnownDown_entries _
      (stageSound_ite trivial fun _ => trivial)
  | beginning addr rest =>
    simp only [requestStep, Option.some.injEq, Prod.mk.injEq] at stepped
    obtain ⟨rfl, rfl⟩ := stepped
    exact keeps_runtime sound req.runtime _
      (stageSound_ite trivial fun refused => full_of_refused (Bool.eq_false_iff.mpr refused))
  | overCap addr rest inFlight => exact keeps_overCap sound before stepped
  | waiting addr rest =>
    cases stepped
    exact unchanged trivial
  -- at the head of the wait's loop only the clock is read
  | polling addr rest deadline =>
    simp only [requestStep, Option.some.injEq, Prod.mk.injEq] at stepped
    obtain ⟨rfl, rfl⟩ := stepped
    exact unchanged (stageSound_ite trivial fun _ => trivial)
  | slept addr rest deadline =>
    exact keeps_cached sound (.retrying addr rest deadline) (fun _ => trivial) stepped
  | retrying addr rest deadline =>
    simp only [requestStep, Option.some.injEq, Prod.mk.injEq] at stepped
    obtain ⟨rfl, rfl⟩ := stepped
    exact keeps_runtime sound req.runtime _ (stageSound_ite trivial fun _ => trivial)
  | starting addr rest =>
    cases stepped
    exact unchanged trivial
  | dialing addr rest start =>
    cases stepped
    exact keeps_dial sound _
  -- the slot is given back whether or not the dial has succeeded
  | ending addr rest start result =>
    cases result with
    | some json =>
      cases stepped
      exact keeps_runtime sound req.runtime _ (before json rfl)
    | none =>
      cases stepped
      exact keeps_runtime sound req.runtime _ trivial
  | recording addr start json =>
    cases stepped
    exact keeps_runtime sound req.runtime _ before
  | clearing addr json =>
    cases stepped
    exact keeps_down sound (s.cache.clearDown _) rfl _ before
  | storing addr json =>
    cases stepped
    exact keeps_store sound before
  | clearingLast addr json =>
    cases stepped
    exact keeps_down sound (s.cache.clearDown _) rfl _ before
  | storingLast addr json =>
    cases stepped
    exact keeps_storeLast sound before
  | markingDown addr rest =>
    cases stepped
    exact keeps_down sound (s.cache.markDown _ _) rfl (.trying rest) trivial
  | answered addr json source => cases stepped
  | failed => cases stepped

/-- A thread's step keeps what is cached sound, and the dials that were made. -/
theorem advance_keeps (sound : CacheSound s) {thread thread' : StatusThread}
    {choice : StatusChoice} (before : ThreadSound parse s thread)
    (moved : advance parse s thread choice = some (s', thread')) :
    (CacheSound s' ∧ ThreadSound parse s' thread') ∧ s.dials <+: s'.dials := by
  cases thread with
  | request req stage =>
    obtain ⟨⟨next, stage'⟩, stepped, same⟩ := Option.map_eq_some_iff.mp moved
    cases same
    obtain ⟨cache, dials, after⟩ := keeps_requestStep sound before stepped
    exact ⟨⟨cache, after⟩, dials⟩
  | sweepingEntries =>
    cases moved
    exact ⟨⟨sound.of_within PingCache.sweepEntries_within (List.prefix_refl _) rfl, trivial⟩,
      List.prefix_refl _⟩
  | sweepingDown =>
    cases moved
    exact ⟨⟨sound.of_within (within_refl _) (List.prefix_refl _) rfl, trivial⟩, List.prefix_refl _⟩
  | swept => cases moved

theorem ThreadSound.mono (kept : s.dials <+: s'.dials) {thread : StatusThread}
    (sound : ThreadSound parse s thread) : ThreadSound parse s' thread := by
  cases thread with
  | request req stage => exact StageSound.mono kept sound
  | _ => trivial

variable (parse)

private theorem always_sound (events : List (Event StatusThread StatusChoice)) :
    Always (Threads.step fresh (advance parse)) (Holds CacheSound (ThreadSound parse)) ⟨start, []⟩
      events := by
  have initial : CacheSound start := by
    intro key entry found
    cases found
  refine always_of_stable ?_ ?_ ?_ events ⟨initial, by simp⟩
  · intro s thread _ ready
    cases thread with
    | request req stage => cases stage <;> trivial
    | _ => trivial
  · intro s thread choice s' thread' sound before moved
    exact (advance_keeps sound before moved).1
  · intro s thread choice s' thread' other sound before moved
    exact ThreadSound.mono (advance_keeps sound before moved).2

/-- However the requests of all routes and the sweeps interleave, every backend answer that a
client is sent was fetched with its protocol and host, or is what was last known of a backend
that is dialed too often at the time and is for its protocol; and no two keys are confused. -/
theorem status_answers_match (events : List (Event StatusThread StatusChoice)) :
    Always (Threads.step fresh (advance parse)) (AnswersMatch parse) ⟨start, []⟩ events ∧
      (∀ addr addr' host host' protocol protocol',
        statusCacheKey (downKey addr) host protocol =
            statusCacheKey (downKey addr') host' protocol' ↔
          addr.ip = addr'.ip ∧ addr.port = addr'.port ∧
            toAsciiLowercase host = toAsciiLowercase host' ∧ protocol = protocol') ∧
      ∀ addr addr' host protocol,
        statusCacheKey (downKey addr) host protocol ≠ downKey addr' := by
  refine ⟨(always_sound parse events).imp fun pool holds => ?_, ?_, ?_⟩
  · intro req addr json source member
    exact holds.2 _ member
  · intro addr addr' host host' protocol protocol'
    cases addr
    cases addr'
    rw [statusCacheKey_inj, SocketAddr.mk.injEq, and_assoc]
  · exact fun addr addr' host protocol => statusCacheKey_ne_downKey addr addr' host protocol

end StatusShared

end MCGate
