import MCGate.State.AppState
import MCGate.State.RouteRuntime

/-!
# Runtimes across reloads

`set_config` gives a route of the new config the runtime of the first old route equal to it.
Connections keep the runtime they were given and count themselves in it, however often the
config is reloaded. Calls of `set_config` do not overlap here, so each is one step.
-/
namespace MCGate

open Config Machine Threads

namespace Tenure

/-- A connection with the allocation of its runtime. -/
inductive Connection where
  | given (arc : Nat)
  | connected (arc : Nat) (addr : SocketAddr)
  | gone
  deriving DecidableEq, Repr

/-- Where a connection is counted. -/
def Connection.counted : Connection → Option (Nat × SocketAddr)
  | .connected arc addr => some (arc, addr)
  | _ => none

end Tenure

/-- The live config with the contents of its runtimes; an allocation that nobody has written
to is a new runtime. Only the statements read `opened` and `closed`, the calls of
`record_connect_opened` and `record_connect_closed` so far. -/
structure Tenure where
  app : AppState
  runtimes : Nat → RouteRuntime
  connections : List Tenure.Connection
  opened : List (Nat × SocketAddr)
  closed : List (Nat × SocketAddr)

inductive TenureEvent where
  | setConfig (newConfig : GateConfig)
  /-- a connection that has matched the route at `index` takes its runtime -/
  | accept (index : Nat)
  /-- connection `i` has reached the backend at `addr` -/
  | connectOpened (i : Nat) (addr : SocketAddr)
  | connectClosed (i : Nat)

namespace Tenure

def start (config : GateConfig) (messages : GateMessages) : Tenure :=
  ⟨AppState.new config messages, fun _ => .new, [], [], []⟩

def step (s : Tenure) : TenureEvent → Option Tenure
  | .setConfig newConfig => some { s with app := s.app.setConfig newConfig }
  | .accept index =>
    match s.app.routeRuntime index with
    | some assigned => some { s with connections := s.connections ++ [.given assigned.arc] }
    | none =>
      -- `unwrap_or_default`
      some { s with
        app := { s.app with nextArc := s.app.nextArc + 1 }
        connections := s.connections ++ [.given s.app.nextArc] }
  | .connectOpened i addr =>
    match s.connections[i]? with
    | some (.given arc) =>
      some { s with
        runtimes := Function.update s.runtimes arc ((s.runtimes arc).recordConnectOpened addr)
        connections := s.connections.set i (.connected arc addr)
        opened := (arc, addr) :: s.opened }
    | _ => none
  | .connectClosed i =>
    match s.connections[i]? with
    | some (.connected arc addr) =>
      some { s with
        runtimes := Function.update s.runtimes arc ((s.runtimes arc).recordConnectClosed addr)
        connections := s.connections.set i .gone
        closed := (arc, addr) :: s.closed }
    | _ => none

/-- The config has a route equal to `route`. -/
def Has (route : Config.Route) (s : Tenure) : Prop :=
  ∃ other ∈ s.app.config.routes, other.eq route

instance (route : Config.Route) (s : Tenure) : Decidable (Has route s) :=
  inferInstanceAs (Decidable (∃ other ∈ s.app.config.routes, other.eq route))

/-- The runtime at the first index of a route equal to `route`. -/
def runtimeFor (s : Tenure) (route : Config.Route) : Option Nat :=
  ((s.app.config.routes.findIdx? fun other => other.eq route).bind s.app.routeRuntime).map
    Assigned.arc

/-! ### Which runtime a route gets -/

private theorem eq_congr {one two : Config.Route} (equal : one.eq two) :
    (fun other : Config.Route => other.eq one) = fun other => other.eq two := by
  funext other
  rw [Bool.eq_iff_iff, Config.Route.eq_iff, Config.Route.eq_iff, Config.Route.eq_iff.mp equal]

/-- A route whose equal was there gets the runtime of the first one. -/
theorem newRuntimes_carried (oldRoutes : List Config.Route) (oldRuntimes : Runtimes)
    (index nextArc : Nat) (routes : List Config.Route) (k : Nat) (route : Config.Route)
    (carried : Assigned) (at_k : routes[k]? = some route)
    (found : (oldRoutes.findIdx? fun r => r.eq route).bind oldRuntimes.get = some carried) :
    ((newRuntimes oldRoutes oldRuntimes index nextArc routes).1.get (index + k)).map
      Assigned.arc = some carried.arc := by
  induction routes generalizing index nextArc k with
  | nil => cases at_k
  | cons first rest ih =>
    cases k with
    | zero =>
      obtain rfl : first = route := Option.some.inj at_k
      simp [newRuntimes, found, Runtimes.get]
    | succ k =>
      have later (nextArc : Nat) := ih (index + 1) nextArc k at_k
      have shift : index + 1 + k = index + (k + 1) := by omega
      rw [shift] at later
      have apart : index ≠ index + (k + 1) := by omega
      unfold newRuntimes
      split <;> simpa [Runtimes.get, apart] using later _

variable {s s' t : Tenure} {event : TenureEvent}

/-- No call of `set_config` is in progress: the runtimes are those of the config's routes. -/
def Settled (s : Tenure) : Prop := s.app.published = s.app.config.routes ∧ s.app.Published

theorem step_settled (settled : Settled s) (stepped : s.step event = some s') : Settled s' := by
  cases event with
  | setConfig newConfig =>
    cases stepped
    exact ⟨rfl, s.app.publish_published _ _ newConfig⟩
  | accept index =>
    simp only [step] at stepped
    split at stepped <;> cases stepped <;> exact settled
  | connectOpened i addr =>
    simp only [step] at stepped
    split at stepped <;> cases stepped
    exact settled
  | connectClosed i =>
    simp only [step] at stepped
    split at stepped <;> cases stepped
    exact settled

theorem Settled.keys (settled : Settled s) (i : Nat) :
    (s.app.routeRuntime i).isSome ↔ i < s.app.config.routes.length := by
  have selected : Option.isSome ((s.app.routeRuntime i).map Assigned.route) =
      (s.app.published[i]?).isSome := by rw [settled.2 i]
  rw [Option.isSome_map] at selected
  rw [selected, settled.1]
  simp

private theorem Settled.runtimeFor_isSome (settled : Settled s) {route : Config.Route}
    (has : Has route s) : ∃ arc, s.runtimeFor route = some arc := by
  obtain ⟨other, member, equal⟩ := has
  obtain ⟨i, first⟩ : ∃ i, (s.app.config.routes.findIdx? fun other => other.eq route) = some i := by
    rw [← Option.isSome_iff_exists, List.findIdx?_isSome, List.any_eq_true]
    exact ⟨other, member, equal⟩
  obtain ⟨inRange, -⟩ := List.findIdx?_eq_some_iff_getElem.mp first
  obtain ⟨assigned, found⟩ := Option.isSome_iff_exists.mp ((settled.keys i).mpr inRange)
  exact ⟨assigned.arc, by rw [runtimeFor, first, Option.bind_some, found, Option.map_some]⟩

/-- Right after a reload every route equal to `route` has the runtime that its first equal had. -/
theorem arc_setConfig {route other : Config.Route} {arc i : Nat} {newConfig : GateConfig}
    (had : s.runtimeFor route = some arc) (here : newConfig.routes[i]? = some other)
    (equal : other.eq route) :
    ((s.app.setConfig newConfig).routeRuntime i).map Assigned.arc = some arc := by
  obtain ⟨carried, found, rfl⟩ := Option.map_eq_some_iff.mp had
  rw [← eq_congr equal] at found
  have got := newRuntimes_carried s.app.config.routes s.app.routeRuntimes 0 s.app.nextArc
    newConfig.routes i other carried here found
  rwa [Nat.zero_add] at got

/-- A step that keeps an equal of `route` keeps its runtime. -/
theorem step_runtimeFor {route : Config.Route} {arc : Nat} (had : s.runtimeFor route = some arc)
    (has : Has route s') (stepped : s.step event = some s') :
    s'.runtimeFor route = some arc := by
  cases event with
  | setConfig newConfig =>
    cases stepped
    obtain ⟨other, member, equal⟩ := has
    have some_index : (newConfig.routes.findIdx? fun other => other.eq route).isSome := by
      rw [List.findIdx?_isSome, List.any_eq_true]
      exact ⟨other, member, equal⟩
    obtain ⟨i, first⟩ := Option.isSome_iff_exists.mp some_index
    obtain ⟨inRange, equal', -⟩ := List.findIdx?_eq_some_iff_getElem.mp first
    have got := arc_setConfig had (List.getElem?_eq_getElem inRange) equal'
    have index : (s.app.setConfig newConfig).config.routes.findIdx?
        (fun other => other.eq route) = some i := first
    rw [runtimeFor, index]
    exact got
  | accept index =>
    simp only [step] at stepped
    split at stepped <;> cases stepped <;> exact had
  | connectOpened i addr =>
    simp only [step] at stepped
    split at stepped <;> cases stepped
    exact had
  | connectClosed i =>
    simp only [step] at stepped
    split at stepped <;> cases stepped
    exact had

/-! ### Counting connections -/

/-- Every runtime counts the calls made on it, and each connection that is counted has been
opened and not closed. -/
structure Tallied (s : Tenure) : Prop where
  positive : ∀ arc, (s.runtimes arc).activeConnections.Positive
  active : ∀ arc addr, (s.runtimes arc).activeConnectionsOf addr =
    (s.opened.count (arc, addr) : Int) - s.closed.count (arc, addr)
  balance : ∀ arc addr, (s.connections.filterMap Connection.counted).count (arc, addr) +
    s.closed.count (arc, addr) = s.opened.count (arc, addr)

private theorem count_cons_arc (arc arc' : Nat) (addr addr' : SocketAddr)
    (l : List (Nat × SocketAddr)) :
    ((arc', addr') :: l).count (arc, addr) =
      l.count (arc, addr) + if arc = arc' ∧ addr = addr' then 1 else 0 := by
  rw [List.count_cons]
  congr 1
  simp only [beq_iff_eq, Prod.mk.injEq]
  exact if_congr (and_congr eq_comm eq_comm) rfl rfl

private theorem tallied_opened (tallied : Tallied s) {i arc : Nat} (addr : SocketAddr)
    (here : s.connections[i]? = some (.given arc)) :
    Tallied { s with
      runtimes := Function.update s.runtimes arc ((s.runtimes arc).recordConnectOpened addr)
      connections := s.connections.set i (.connected arc addr)
      opened := (arc, addr) :: s.opened } := by
  obtain ⟨positive, active, balance⟩ := tallied
  refine ⟨fun other => ?_, fun other at_ => ?_, fun other at_ => ?_⟩
  · dsimp only
    by_cases same : other = arc
    · subst same
      rw [Function.update_self]
      exact (positive other).countUp
    · rw [Function.update_of_ne same]
      exact positive other
  · dsimp only
    rw [count_cons_arc]
    by_cases same : other = arc
    · subst same
      rw [Function.update_self, RouteRuntime.activeConnectionsOf,
        RouteRuntime.recordConnectOpened, HashMap.countOf_countUp]
      have before := active other
      simp only [RouteRuntime.activeConnectionsOf] at before
      rw [before, before]
      by_cases here : at_ = addr
      · subst here
        simp only [if_true, and_self]
        push_cast
        omega
      · simp only [here, and_false, if_false, Nat.add_zero]
    · rw [Function.update_of_ne same, active]
      simp only [same, false_and, if_false, Nat.add_zero]
  · -- the connection is new among those that are counted
    have marked : ((s.connections.set i (.connected arc addr)).filterMap
        Connection.counted).Perm ((arc, addr) :: s.connections.filterMap Connection.counted) :=
      filterMap_set_of_new here rfl rfl
    dsimp only
    rw [marked.count_eq, count_cons_arc, count_cons_arc]
    have before := balance other at_
    omega

private theorem tallied_closed (tallied : Tallied s) {i arc : Nat} {addr : SocketAddr}
    (here : s.connections[i]? = some (.connected arc addr)) :
    Tallied { s with
      runtimes := Function.update s.runtimes arc ((s.runtimes arc).recordConnectClosed addr)
      connections := s.connections.set i .gone
      closed := (arc, addr) :: s.closed } := by
  obtain ⟨positive, active, balance⟩ := tallied
  have left : (s.connections.filterMap Connection.counted).Perm
      ((arc, addr) :: (s.connections.set i .gone).filterMap Connection.counted) :=
    filterMap_set_of_gone here rfl rfl
  refine ⟨fun other => ?_, fun other at_ => ?_, fun other at_ => ?_⟩
  · dsimp only
    by_cases same : other = arc
    · subst same
      rw [Function.update_self]
      exact (positive other).countDown
    · rw [Function.update_of_ne same]
      exact positive other
  · dsimp only
    rw [count_cons_arc]
    by_cases same : other = arc
    · subst same
      rw [Function.update_self, RouteRuntime.activeConnectionsOf,
        RouteRuntime.recordConnectClosed, (positive other).countOf_countDown]
      have before := active other
      simp only [RouteRuntime.activeConnectionsOf] at before
      rw [before, before]
      by_cases here : at_ = addr
      · subst here
        -- the connection that closes is counted, so there is one to take away
        have one := balance other at_
        rw [left.count_eq, List.count_cons_self] at one
        have nonzero : ¬ (s.opened.count (other, at_) : Int) - s.closed.count (other, at_) = 0 := by
          omega
        simp only [if_true, and_self, nonzero, if_false]
        push_cast
        omega
      · simp only [here, and_false, if_false, Nat.add_zero]
    · rw [Function.update_of_ne same, active]
      simp only [same, false_and, if_false, Nat.add_zero]
  · have before := balance other at_
    rw [left.count_eq, count_cons_arc] at before
    dsimp only
    rw [count_cons_arc]
    omega

private theorem step_tallied (tallied : Tallied s) (stepped : s.step event = some s') :
    Tallied s' := by
  cases event with
  | setConfig newConfig =>
    cases stepped
    exact ⟨tallied.positive, tallied.active, tallied.balance⟩
  | accept index =>
    simp only [step] at stepped
    split at stepped <;> cases stepped <;> refine ⟨tallied.positive, tallied.active, ?_⟩ <;>
      (intro arc addr
       rw [List.filterMap_append, List.filterMap_cons_none rfl, List.filterMap_nil,
        List.append_nil]
       exact tallied.balance arc addr)
  | connectOpened i addr =>
    simp only [step] at stepped
    split at stepped <;> cases stepped
    next arc here => exact tallied_opened tallied addr here
  | connectClosed i =>
    simp only [step] at stepped
    split at stepped <;> cases stepped
    next arc addr here => exact tallied_closed tallied here

/-! ### A stretch of reloads -/

private theorem start_settled (config : GateConfig) (messages : GateMessages) :
    Settled (start config messages) :=
  ⟨rfl, AppState.new_published config messages⟩

private theorem start_tallied (config : GateConfig) (messages : GateMessages) :
    Tallied (start config messages) := by
  refine ⟨fun arc addr count stored => ?_, fun arc addr => rfl, fun arc addr => rfl⟩
  cases stored

/-- Every equal of `route` has the runtime at `arc`. -/
def Shares (route : Config.Route) (arc : Nat) (s : Tenure) : Prop :=
  ∀ i other, s.app.config.routes[i]? = some other → other.eq route →
    (s.app.routeRuntime i).map Assigned.arc = some arc

private theorem step_shares {route : Config.Route} {arc : Nat} (had : s.runtimeFor route = some arc)
    (shares : Shares route arc s ∨ ∃ newConfig, event = .setConfig newConfig)
    (stepped : s.step event = some s') : Shares route arc s' := by
  have unchanged (reloads : ∀ newConfig, event ≠ .setConfig newConfig) : Shares route arc s := by
    rcases shares with shares | ⟨newConfig, same⟩
    · exact shares
    · exact absurd same (reloads newConfig)
  cases event with
  | setConfig newConfig =>
    cases stepped
    exact fun i other here equal => arc_setConfig had here equal
  | accept index =>
    have shares := unchanged (by simp)
    simp only [step] at stepped
    split at stepped <;> cases stepped <;> exact shares
  | connectOpened i addr =>
    have shares := unchanged (by simp)
    simp only [step] at stepped
    split at stepped <;> cases stepped
    exact shares
  | connectClosed i =>
    have shares := unchanged (by simp)
    simp only [step] at stepped
    split at stepped <;> cases stepped
    exact shares

/-- The runtime that a route has at the start of a stretch it keeps to the end, and once
there was a reload in between, every equal of the route has it. -/
theorem runtimeFor_run {route : Config.Route} {arc : Nat} {during : List TenureEvent}
    (had : s.runtimeFor route = some arc) (ran : run step s during = some t)
    (kept : Always step (Has route) s during) :
    t.runtimeFor route = some arc ∧
      (Shares route arc s ∨ (∃ newConfig, .setConfig newConfig ∈ during) →
        Shares route arc t) := by
  induction during generalizing s with
  | nil =>
    cases ran
    refine ⟨had, ?_⟩
    rintro (shares | ⟨newConfig, member⟩)
    · exact shares
    · cases member
  | cons event rest ih =>
    obtain ⟨s', first, later⟩ := run_cons_eq_some.mp ran
    have along := ((always_cons_iff first).mp kept).2
    have still := step_runtimeFor had along.first first
    obtain ⟨last, shared⟩ := ih still later along
    refine ⟨last, ?_⟩
    rintro (shares | ⟨newConfig, member⟩)
    · exact shared (.inl (step_shares had (.inl shares) first))
    · rcases List.mem_cons.mp member with same | member
      · exact shared (.inl (step_shares had (.inr ⟨newConfig, same.symm⟩) first))
      · exact shared (.inr ⟨newConfig, member⟩)

/-- Throughout a stretch of reloads that all keep a route, the first index of the route has
one runtime, and from the first reload of the stretch on so has every index of an equal
route; the runtime counts the connections opened and closed on it. -/
theorem runtime_kept_over_stretch (config : GateConfig) (messages : GateMessages)
    (before during : List TenureEvent) (s t : Tenure)
    (reached : run step (start config messages) before = some s)
    (ran : run step s during = some t) (route : Config.Route)
    (kept : Always step (Has route) s during) :
    ∃ arc, s.runtimeFor route = some arc ∧ t.runtimeFor route = some arc ∧
      ((∃ newConfig, .setConfig newConfig ∈ during) → Shares route arc t) ∧
      (∀ addr, (t.runtimes arc).activeConnectionsOf addr =
        (s.runtimes arc).activeConnectionsOf addr +
          ((t.opened.count (arc, addr) : Int) - s.opened.count (arc, addr)) -
          ((t.closed.count (arc, addr) : Int) - s.closed.count (arc, addr))) ∧
      ∀ i, (t.app.routeRuntime i).isSome ↔ i < t.app.config.routes.length := by
  have settled := run_invariant Settled (fun _ _ _ => step_settled)
    (start_settled config messages) reached
  have tallied := run_invariant Tallied (fun _ _ _ => step_tallied)
    (start_tallied config messages) reached
  have settled' := run_invariant Settled (fun _ _ _ => step_settled) settled ran
  have tallied' := run_invariant Tallied (fun _ _ _ => step_tallied) tallied ran
  obtain ⟨arc, had⟩ := settled.runtimeFor_isSome kept.first
  obtain ⟨last, shared⟩ := runtimeFor_run had ran kept
  refine ⟨arc, had, last, fun reloaded => shared (.inr reloaded), fun addr => ?_, settled'.keys⟩
  rw [tallied'.active, tallied.active]
  omega

def lobbyRoute : Config.Route := Gate.plainRoute "lobby.example.com" "10.0.0.1"

def lobbyBackend : SocketAddr := ⟨.v4 ⟨10, 0, 0, 1⟩, 25565⟩

/-- The route moves to another index, with a connection on it. -/
theorem runtime_kept_while_moving :
    ∃ t, run step (start Gate.lobby {})
        [.accept 0, .connectOpened 0 lobbyBackend, .setConfig Gate.gamesAndLobby] = some t ∧
      ∃ arc, (start Gate.lobby {}).runtimeFor lobbyRoute = some arc ∧
        t.runtimeFor lobbyRoute = some arc ∧
        (t.runtimes arc).activeConnectionsOf lobbyBackend = 1 := by
  refine ⟨_, rfl, ?_⟩
  obtain ⟨arc, had, last, -, counts, -⟩ := runtime_kept_over_stretch Gate.lobby {} []
    [.accept 0, .connectOpened 0 lobbyBackend, .setConfig Gate.gamesAndLobby] _ _ rfl rfl
    lobbyRoute (by decide)
  obtain rfl : 0 = arc := Option.some.inj had
  exact ⟨0, had, last, counts lobbyBackend⟩

/-- Two equal routes start with a runtime each; a reload of the same config gives both the
first one's. -/
theorem second_equal_changes_runtime :
    ¬ ∀ (config : GateConfig) (messages : GateMessages) (before during : List TenureEvent)
        (s t : Tenure), run step (start config messages) before = some s →
      run step s during = some t →
      ∀ route, Always step (Has route) s during →
      ∀ i one two, s.app.config.routes[i]? = some one → one.eq route →
        t.app.config.routes[i]? = some two → two.eq route →
        (s.app.routeRuntime i).map Assigned.arc = (t.app.routeRuntime i).map Assigned.arc := by
  intro same
  have arcs := same { routes := [lobbyRoute, lobbyRoute] } {} []
    [.setConfig { routes := [lobbyRoute, lobbyRoute] }] _ _ rfl rfl lobbyRoute (by decide) 1
    lobbyRoute lobbyRoute rfl (by decide) rfl (by decide)
  exact absurd arcs (by decide)

end Tenure

end MCGate
