import Mathlib.Algebra.Group.Int.Defs
import Mathlib.Algebra.Group.Nat.Defs
import Mathlib.Data.List.Rotate
import Mathlib.Data.List.Sort
import MCGate.Config.Types
import MCGate.Lib.StableSort
import MCGate.State.RouteRuntime

/-!
# Ordering backends

Each request, a status ping or a login, asks for the backends of its route in the order in
which they are to be tried: every backend as often as it is listed. With the round-robin
strategy every call takes the next start, whatever it is for: pings and logins share one
cursor. The two strategies that measure sort stably; without a reading, a backend counts as the
slowest there can be.
-/
namespace MCGate.BackendSelector

open Config

/-- What the environment decides for a call: the clock and the shuffle. -/
structure Draw where
  now : Instant
  shuffle : List SocketAddr → List SocketAddr

/-- The key of the lowest-latency strategy; `i64::MAX` without a reading. -/
def latencyKey (runtime : RouteRuntime) (now : Instant) (addr : SocketAddr) : Int64 :=
  (runtime.latencyOf now addr).2.getD (Int64.ofInt (2 ^ 63 - 1))

/-- The readings that are too old are dropped when they are looked at. -/
def readLatencies (runtime : RouteRuntime) (now : Instant) (backends : List SocketAddr) :
    RouteRuntime :=
  backends.foldl (fun runtime addr => (runtime.latencyOf now addr).1) runtime

def orderBackends (route : Config.Route) (runtime : RouteRuntime) (draw : Draw)
    (backends : List SocketAddr) : RouteRuntime × List SocketAddr :=
  if backends.length ≤ 1 then (runtime, backends)
  else match route.strategy with
    | .sequential => (runtime, backends)
    | .random => (runtime, draw.shuffle backends)
    | .roundRobin =>
      let counter := runtime.roundRobinCounter
      let start := (counter.toInt % backends.length).toNat
      ({ runtime with roundRobinCounter := counter + 1 },
        backends.drop start ++ backends.take start)
    | .leastConnections =>
      (runtime, backends.insertionSort fun a b =>
        runtime.activeConnectionsOf a ≤ runtime.activeConnectionsOf b)
    | .lowestLatency =>
      (readLatencies runtime draw.now backends, backends.insertionSort fun a b =>
        latencyKey runtime draw.now a ≤ latencyKey runtime draw.now b)

/-! ### Requests one after the other -/

inductive RequestKind where
  | status
  | login
  deriving DecidableEq, Repr

structure Request where
  kind : RequestKind
  draw : Draw

/-- A request and the backends in the order it tries them. -/
structure Served where
  kind : RequestKind
  ordered : List SocketAddr
  deriving DecidableEq, Repr

/-- The backend a request tries first. -/
def Served.start (served : Served) : Option SocketAddr := served.ordered.head?

/-- `resolve_ordered_backends` for each request in turn, where `resolve_backends` gives the
same list every time. -/
def serveAll (route : Config.Route) (backends : List SocketAddr) :
    RouteRuntime → List Request → List Served
  | _, [] => []
  | runtime, request :: rest =>
    let (runtime, ordered) := orderBackends route runtime request.draw backends
    ⟨request.kind, ordered⟩ :: serveAll route backends runtime rest

private theorem serveAll_length (route : Config.Route) (backends : List SocketAddr)
    (runtime : RouteRuntime) (requests : List Request) :
    (serveAll route backends runtime requests).length = requests.length := by
  induction requests generalizing runtime with
  | nil => rfl
  | cons request rest ih => rw [serveAll, List.length_cons, ih, List.length_cons]

variable {route : Config.Route} {backends : List SocketAddr}

private theorem orderBackends_roundRobin (roundRobin : route.strategy = .roundRobin)
    (several : 2 ≤ backends.length) (runtime : RouteRuntime) (draw : Draw) :
    orderBackends route runtime draw backends =
      ({ runtime with roundRobinCounter := runtime.roundRobinCounter + 1 },
        backends.rotate (runtime.roundRobinCounter.toInt % backends.length).toNat) := by
  have positive : (0 : Int) < backends.length := by omega
  have below := Int.emod_lt_of_pos runtime.roundRobinCounter.toInt positive
  have inRange : (runtime.roundRobinCounter.toInt % backends.length).toNat ≤ backends.length := by
    omega
  rw [orderBackends, if_neg (by omega), roundRobin]
  rw [List.rotate_eq_drop_append_take inRange]

/-- Request `k` starts `k` places after the first one. -/
theorem start_serveAll (roundRobin : route.strategy = .roundRobin)
    (several : 2 ≤ backends.length) (runtime : RouteRuntime) (requests : List Request)
    (noWrap : runtime.roundRobinCounter.toInt + requests.length ≤ 2 ^ 63) (k : Nat)
    (inRange : k < requests.length) :
    ((serveAll route backends runtime requests)[k]?).bind Served.start =
      backends[((runtime.roundRobinCounter.toInt + k) % backends.length).toNat]? := by
  induction requests generalizing runtime k with
  | nil => cases inRange
  | cons request rest ih =>
    rw [serveAll, orderBackends_roundRobin roundRobin several]
    cases k with
    | zero =>
      have positive : (0 : Int) < backends.length := by omega
      have below := Int.emod_lt_of_pos runtime.roundRobinCounter.toInt positive
      have nonneg := Int.emod_nonneg runtime.roundRobinCounter.toInt (Int.ne_of_gt positive)
      simp only [List.getElem?_cons_zero, Option.bind_some, Served.start]
      rw [List.head?_rotate (by omega), Int.natCast_zero, Int.add_zero]
    | succ k =>
      have length : (request :: rest).length = rest.length + 1 := rfl
      -- the counter has not wrapped
      have next : (runtime.roundRobinCounter + 1).toInt = runtime.roundRobinCounter.toInt + 1 := by
        have low := runtime.roundRobinCounter.minValue_le_toInt
        rw [Int64.toInt_add]
        apply Int.bmod_eq_of_le
        · simp at low ⊢; omega
        · simp; omega
      have later := ih { runtime with roundRobinCounter := runtime.roundRobinCounter + 1 }
        (by simp only [next]; omega) k (by omega)
      rw [List.getElem?_cons_succ, later, next]
      congr 3
      omega

private theorem add_toNat_emod (c : Int) (k : Nat) {n : Nat} (positive : 0 < n) :
    (k + (c % n).toNat) % n = ((c + k) % n).toNat := by
  have nonzero : (n : Int) ≠ 0 := by omega
  apply Int.natCast_inj.mp
  rw [Int.natCast_emod, Int.natCast_add, Int.toNat_of_nonneg (Int.emod_nonneg _ nonzero),
    Int.toNat_of_nonneg (Int.emod_nonneg _ nonzero), Int.add_emod_emod, Int.add_comm]

/-- The starts of as many requests in a row as there are backends. -/
theorem starts_eq_rotate (roundRobin : route.strategy = .roundRobin)
    (several : 2 ≤ backends.length) (runtime : RouteRuntime) (requests : List Request)
    (noWrap : runtime.roundRobinCounter.toInt + requests.length ≤ 2 ^ 63) (first : Nat)
    (inRange : first + backends.length ≤ requests.length) :
    (((serveAll route backends runtime requests).drop first).take backends.length).map
        Served.start =
      (backends.rotate ((runtime.roundRobinCounter.toInt + first) % backends.length).toNat).map
        some := by
  have length : (serveAll route backends runtime requests).length = requests.length :=
    serveAll_length route backends runtime requests
  -- request by request: each starts one backend further than the one before
  apply List.ext_getElem?
  intro k
  rw [List.getElem?_map, List.getElem?_map, List.getElem?_take, List.getElem?_drop]
  by_cases within : k < backends.length
  · have start := start_serveAll roundRobin several runtime requests noWrap (first + k) (by omega)
    have place := add_toNat_emod (runtime.roundRobinCounter.toInt + first) k
      (show 0 < backends.length by omega)
    rw [Int.add_assoc, ← Int.natCast_add] at place
    have inBackends := Nat.mod_lt
      (k + ((runtime.roundRobinCounter.toInt + first) % backends.length).toNat)
      (show 0 < backends.length by omega)
    have inServed : first + k < (serveAll route backends runtime requests).length := by omega
    rw [if_pos within, List.getElem?_rotate within, List.getElem?_eq_getElem inBackends,
      List.getElem?_eq_getElem inServed, Option.map_some, Option.map_some]
    rw [List.getElem?_eq_getElem inServed, Option.bind_some, ← place,
      List.getElem?_eq_getElem inBackends] at start
    rw [start]
  · rw [if_neg within, List.getElem?_eq_none (by rw [List.length_rotate]; omega)]
    rfl

/-- As many requests in a row as there are backends, pings and logins together, start at each
of them once. -/
theorem requests_in_a_row_start_everywhere (route : Config.Route)
    (roundRobin : route.strategy = .roundRobin) (backends : List SocketAddr)
    (several : 2 ≤ backends.length) (runtime : RouteRuntime) (requests : List Request)
    (noWrap : runtime.roundRobinCounter.toInt + requests.length ≤ 2 ^ 63) (first : Nat)
    (inRange : first + backends.length ≤ requests.length) :
    ((((serveAll route backends runtime requests).drop first).take backends.length).map
      Served.start).Perm (backends.map some) := by
  rw [starts_eq_rotate roundRobin several runtime requests noWrap first inRange]
  exact (List.rotate_perm _ _).map some

def rotating : Config.Route :=
  { hostPatterns := []
    backendTemplates := []
    strategy := .roundRobin
    cachePingTtlMillis := 10000
    fallback := none
    modifyVirtualHost := false
    proxyProtocol := false
    priority := 0
    reconnect := {}
    kickMessage := []
    voicechatTemplates := []
    metrics := none }

/-- Backends that differ in the last group of their address. -/
def backendAt (d : UInt8) : SocketAddr := ⟨.v4 ⟨10, 0, 0, d⟩, 25565⟩

def request (kind : RequestKind) : Request := ⟨kind, ⟨0, id⟩⟩

theorem three_requests_start_everywhere :
    ((((serveAll rotating [backendAt 1, backendAt 2, backendAt 3] .new
        [request .login, request .login, request .status, request .login]).drop 1).take 3).map
      Served.start).Perm [some (backendAt 1), some (backendAt 2), some (backendAt 3)] :=
  requests_in_a_row_start_everywhere rotating rfl [backendAt 1, backendAt 2, backendAt 3]
    (by decide) .new _ (by decide) 1 (by decide)

/-- A ping between two logins takes the turn of the second backend. -/
theorem ping_takes_turn :
    ¬ ∀ (route : Config.Route), route.strategy = .roundRobin →
      ∀ (backends : List SocketAddr), 2 ≤ backends.length → backends.Nodup →
      ∀ (requests : List Request), requests.length < 2 ^ 63 →
      ∀ before logins after, (serveAll route backends .new requests).filter
          (fun served => served.kind = .login) = before ++ logins ++ after →
        logins.length = backends.length → (logins.map Served.start).Nodup := by
  intro fair
  have distinct := fair rotating rfl [backendAt 1, backendAt 2] (by decide) (by decide)
    [request .login, request .status, request .login] (by decide) []
    [⟨.login, [backendAt 1, backendAt 2]⟩, ⟨.login, [backendAt 1, backendAt 2]⟩] []
    (by decide) (by decide)
  exact absurd distinct (by decide)

/-! ### The order of one call -/

open StableSort

def ByConnections (runtime : RouteRuntime) (a b : SocketAddr) : Prop :=
  runtime.activeConnectionsOf a ≤ runtime.activeConnectionsOf b

def ByLatency (runtime : RouteRuntime) (now : Instant) (a b : SocketAddr) : Prop :=
  latencyKey runtime now a ≤ latencyKey runtime now b

instance (runtime : RouteRuntime) : DecidableRel (ByConnections runtime) :=
  fun _ _ => inferInstanceAs (Decidable (_ ≤ _))

instance (runtime : RouteRuntime) (now : Instant) : DecidableRel (ByLatency runtime now) :=
  fun _ _ => inferInstanceAs (Decidable (_ ≤ _))

instance (runtime : RouteRuntime) : IsTrans SocketAddr (ByConnections runtime) :=
  ⟨fun _ _ _ => Int.le_trans⟩

instance (runtime : RouteRuntime) : Std.Total (ByConnections runtime) :=
  ⟨fun _ _ => Int.le_total _ _⟩

instance (runtime : RouteRuntime) (now : Instant) : IsTrans SocketAddr (ByLatency runtime now) :=
  ⟨fun _ _ _ => Int64.le_trans⟩

instance (runtime : RouteRuntime) (now : Instant) : Std.Total (ByLatency runtime now) :=
  ⟨fun _ _ => Int64.le_total _ _⟩

/-- An order of one backend or none is the list itself. -/
theorem eq_of_perm_of_short {ordered : List SocketAddr} (perm : ordered.Perm backends)
    (short : backends.length ≤ 1) : ordered = backends := by
  match backends, short with
  | [], _ => exact List.perm_nil.mp perm
  | [_], _ => exact List.perm_singleton.mp perm

private theorem orderBackends_leastConnections (least : route.strategy = .leastConnections)
    (runtime : RouteRuntime) (draw : Draw) :
    (orderBackends route runtime draw backends).2 =
      backends.insertionSort (ByConnections runtime) := by
  unfold orderBackends
  split
  next short => exact (eq_of_perm_of_short (List.perm_insertionSort _ _) short).symm
  next =>
    rw [least]
    rfl

private theorem orderBackends_lowestLatency (lowest : route.strategy = .lowestLatency)
    (runtime : RouteRuntime) (draw : Draw) :
    (orderBackends route runtime draw backends).2 =
      backends.insertionSort (ByLatency runtime draw.now) := by
  unfold orderBackends
  split
  next short => exact (eq_of_perm_of_short (List.perm_insertionSort _ _) short).symm
  next =>
    rw [lowest]
    rfl

private theorem orderBackends_rotates (roundRobin : route.strategy = .roundRobin)
    (runtime : RouteRuntime) (draw : Draw) :
    (orderBackends route runtime draw backends).2 =
      backends.rotate (runtime.roundRobinCounter.toInt % backends.length).toNat := by
  by_cases several : 2 ≤ backends.length
  · rw [orderBackends_roundRobin roundRobin several]
  · have short : backends.length ≤ 1 := by omega
    rw [orderBackends, if_pos short, eq_of_perm_of_short (List.rotate_perm _ _) short]

/-- Every strategy tries each backend as often as it is listed. -/
theorem orderBackends_perm (runtime : RouteRuntime) {draw : Draw}
    (shuffles : (draw.shuffle backends).Perm backends) :
    (orderBackends route runtime draw backends).2.Perm backends := by
  cases strategy : route.strategy with
  | sequential =>
    simp [orderBackends, strategy]
  | random =>
    unfold orderBackends
    split
    · rfl
    · rw [strategy]
      exact shuffles
  | roundRobin =>
    rw [orderBackends_rotates strategy]
    exact List.rotate_perm _ _
  | leastConnections =>
    rw [orderBackends_leastConnections strategy]
    exact List.perm_insertionSort _ _
  | lowestLatency =>
    rw [orderBackends_lowestLatency strategy]
    exact List.perm_insertionSort _ _

/-- An unknown latency counts as the greatest, so only such a one can stand behind it. -/
theorem latencyKey_eq_of_unknown {runtime : RouteRuntime} {now : Instant} {a b : SocketAddr}
    (below : ByLatency runtime now a b) (unknown : (runtime.latencyOf now a).2 = none) :
    (runtime.latencyOf now b).2 = none ∨
      (runtime.latencyOf now b).2 = some (Int64.ofInt (2 ^ 63 - 1)) := by
  unfold ByLatency latencyKey at below
  rw [unknown] at below
  cases known : (runtime.latencyOf now b).2 with
  | none => exact .inl rfl
  | some millis =>
    rw [known] at below
    -- behind the greatest key stands only one that is as great
    have greatest := Int64.le_antisymm (Int64.le_maxValue millis) below
    exact .inr (congrArg some greatest)

/-- What a call of `order_backends` returns: each backend as often as it is listed, in the order
of the strategy. Ties keep the listed order; a backend without a latency ties with the greatest
one there is, and with no other. -/
theorem orderBackends_spec (route : Config.Route) (runtime : RouteRuntime) (draw : Draw)
    (backends : List SocketAddr) (shuffles : (draw.shuffle backends).Perm backends) :
    (orderBackends route runtime draw backends).2.Perm backends ∧
    (route.strategy = .sequential → (orderBackends route runtime draw backends).2 = backends) ∧
    (route.strategy = .leastConnections → StablySorted (ByConnections runtime) backends
      (orderBackends route runtime draw backends).2) ∧
    (route.strategy = .lowestLatency → StablySorted (ByLatency runtime draw.now) backends
        (orderBackends route runtime draw backends).2 ∧
      (orderBackends route runtime draw backends).2.Pairwise fun a b =>
        (runtime.latencyOf draw.now a).2 = none → (runtime.latencyOf draw.now b).2 = none ∨
          (runtime.latencyOf draw.now b).2 = some (Int64.ofInt (2 ^ 63 - 1))) ∧
    (route.strategy = .roundRobin → (orderBackends route runtime draw backends).2 =
      backends.rotate (runtime.roundRobinCounter.toInt % backends.length).toNat) := by
  refine ⟨orderBackends_perm runtime shuffles, fun sequential => ?_, fun least => ?_,
    fun lowest => ?_, fun roundRobin => orderBackends_rotates roundRobin runtime draw⟩
  · simp [orderBackends, sequential]
  · rw [orderBackends_leastConnections least]
    exact stablySorted_insertionSort backends
  · rw [orderBackends_lowestLatency lowest]
    have sorted := stablySorted_insertionSort (r := ByLatency runtime draw.now) backends
    exact ⟨sorted, sorted.pairwise.imp latencyKey_eq_of_unknown⟩

/-- The first of three backends has a connection, and the others keep their order. -/
theorem leastConnections_ordered :
    StablySorted (ByConnections (RouteRuntime.new.recordConnectOpened (backendAt 1)))
      [backendAt 1, backendAt 2, backendAt 3]
      (orderBackends { rotating with strategy := .leastConnections }
        (RouteRuntime.new.recordConnectOpened (backendAt 1)) ⟨0, id⟩
        [backendAt 1, backendAt 2, backendAt 3]).2 :=
  (orderBackends_spec { rotating with strategy := .leastConnections }
    (RouteRuntime.new.recordConnectOpened (backendAt 1)) ⟨0, id⟩
    [backendAt 1, backendAt 2, backendAt 3] (.refl _)).2.2.1 rfl

/-- With a reading of `i64::MAX`, a backend without one is not behind it. -/
theorem unknown_ties_with_greatest :
    ¬ ∀ (route : Config.Route) (runtime : RouteRuntime) (draw : Draw)
      (backends : List SocketAddr), (draw.shuffle backends).Perm backends →
      route.strategy = .lowestLatency →
      (orderBackends route runtime draw backends).2.Pairwise fun a b =>
        (runtime.latencyOf draw.now a).2 = none → (runtime.latencyOf draw.now b).2 = none := by
  intro last
  have ordered := last { rotating with strategy := .lowestLatency }
    (RouteRuntime.new.recordLatency 0 (backendAt 2) (Int64.ofInt (2 ^ 63 - 1))) ⟨0, id⟩
    [backendAt 1, backendAt 2] (.refl _) rfl
  revert ordered
  decide

end MCGate.BackendSelector
