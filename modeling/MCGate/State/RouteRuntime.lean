import MCGate.Std.HashMap
import MCGate.Std.Net
import MCGate.Std.Time

/-!
# What a route remembers of its backends

A `RouteRuntime` counts the connections of each backend, remembers the latency last seen,
holds the cursor of the round-robin strategy and counts the status dials that are in flight.
Connections and dials are counted without a bound: there are never `2 ^ 63` of them.
-/
namespace MCGate

structure RouteRuntime where
  activeConnections : HashMap SocketAddr Int
  /-- milliseconds, and when they were measured -/
  latencies : HashMap SocketAddr (Int64 × Instant)
  roundRobinCounter : Int64
  statusDialsInFlight : HashMap SocketAddr Int

namespace RouteRuntime

def latencyTtl : Nat := 3 * 60 * nanosPerSecond

def maxConcurrentStatusDials : Int := 8

/-- `RouteRuntime::default` -/
def new : RouteRuntime := ⟨∅, ∅, 0, ∅⟩

def activeConnectionsOf (self : RouteRuntime) (addr : SocketAddr) : Int :=
  self.activeConnections.countOf addr

def recordConnectOpened (self : RouteRuntime) (addr : SocketAddr) : RouteRuntime :=
  { self with activeConnections := self.activeConnections.countUp addr }

def recordConnectClosed (self : RouteRuntime) (addr : SocketAddr) : RouteRuntime :=
  { self with activeConnections := self.activeConnections.countDown addr }

def recordLatency (self : RouteRuntime) (now : Instant) (addr : SocketAddr) (millis : Int64) :
    RouteRuntime :=
  { self with
    latencies := HashMap.retain (fun _ entry => now - entry.2 ≤ latencyTtl)
      (self.latencies.insert addr (millis, now)) }

/-- A reading that is too old is dropped. -/
def latencyOf (self : RouteRuntime) (now : Instant) (addr : SocketAddr) :
    RouteRuntime × Option Int64 :=
  match self.latencies.lookup addr with
  | none => (self, none)
  | some (millis, measuredAt) =>
    if latencyTtl < now - measuredAt then
      ({ self with latencies := self.latencies.erase addr }, none)
    else (self, some millis)

def tryBeginStatusDial (self : RouteRuntime) (addr : SocketAddr) (max : Int) :
    RouteRuntime × Bool :=
  let (statusDialsInFlight, admitted) := self.statusDialsInFlight.tryCountUp addr max
  ({ self with statusDialsInFlight }, admitted)

def endStatusDial (self : RouteRuntime) (addr : SocketAddr) : RouteRuntime :=
  { self with statusDialsInFlight := self.statusDialsInFlight.countDown addr }

end RouteRuntime

end MCGate
