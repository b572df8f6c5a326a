import MCGate.Config.Types
import MCGate.Protocol.ProxyProtocolDatagram
import MCGate.Udp.VoiceRouting

/-!
# The voice relay

A client's datagrams go to the voice backend of its route through a session of its own. In
PROXY protocol mode only the first datagram of a flow names the client; the rest is matched
by the address it came from, through `by_via`. Two indexes thus lead to one session, and a
session that moves to another address takes its entry along.
-/
namespace MCGate.VoiceRelay

open Machine ProxyProtocol

/-! ### Sessions and their indexes -/

/-- `backend` is where the session's socket sends to. -/
structure Session where
  clientIp : Text
  host : Text
  backend : SocketAddr
  via : SocketAddr
  dead : Bool
  deriving DecidableEq, Repr

/-- The sessions and the maps that lead to them. An `Arc<Session>` is the session's place in
`opened`, which lists all that were ever opened. -/
structure Index where
  expectProxyProtocol : Bool
  opened : List Session
  sessions : HashMap SocketAddr Nat
  byVia : HashMap SocketAddr Nat

/-- What the tasks of the relay share. `sent` is what the sessions have sent to their
backends. -/
structure Shared extends Index where
  sessionsPerIp : HashMap Text Int32
  sent : List (Nat × Bytes)

namespace Index

/-- The address an open session is reached by. -/
def openVia (self : Index) (arc : Nat) : Option SocketAddr :=
  self.opened[arc]?.bind fun session => if session.dead then none else some session.via

def repointVia (self : Index) (arc : Nat) (newVia : SocketAddr) : Index :=
  match self.opened[arc]? with
  | none => self
  | some session =>
    let moved := self.opened.set arc { session with via := newVia }
    if ¬ self.expectProxyProtocol then { self with opened := moved }
    else if session.via = newVia then self
    else
      { self with opened := moved, byVia := (self.byVia.erase session.via).insert newVia arc }

/-- `Arc::new(Session { .. })` and its insertion into `sessions`. -/
def insertSession (self : Index) (clientAddr via : SocketAddr) (route : VoiceRouting.Entry) :
    Index :=
  { self with
    opened := self.opened ++ [⟨displayIp clientAddr.ip, route.host, route.backend, via, false⟩]
    sessions := self.sessions.insert clientAddr self.opened.length }

def insertVia (self : Index) (via : SocketAddr) (arc : Nat) : Index :=
  if self.expectProxyProtocol then { self with byVia := self.byVia.insert via arc } else self

def removeSession (self : Index) (clientAddr : SocketAddr) : Index :=
  { self with sessions := self.sessions.erase clientAddr }

/-- The first section of `close_session`. -/
def unindex (self : Index) (arc : Nat) : Index :=
  { self with byVia := self.byVia.retain fun _ other => other ≠ arc }

/-- `session.dead.store(true)` -/
def markDead (self : Index) (arc : Nat) : Index :=
  match self.opened[arc]? with
  | none => self
  | some session => { self with opened := self.opened.set arc { session with dead := true } }

end Index

namespace Shared

def new (expectProxyProtocol : Bool) : Shared := ⟨⟨expectProxyProtocol, [], ∅, ∅⟩, ∅, []⟩

def forward (self : Shared) (arc : Nat) (content : Bytes) : Shared :=
  if (self.openVia arc).isSome then { self with sent := self.sent ++ [(arc, content)] } else self

/-- `*count <= 0` drops the entry. -/
def setCount (self : Shared) (ip : Text) (count : Int32) : Shared :=
  if count ≤ 0 then { self with sessionsPerIp := self.sessionsPerIp.erase ip }
  else { self with sessionsPerIp := self.sessionsPerIp.insert ip count }

def acquireIpSlot (self : Shared) (max : Int32) (ip : Text) : Shared × Bool :=
  if max ≤ 0 then (self, true)
  else
    let count := (self.sessionsPerIp.lookup ip).getD 0 + 1
    if max < count then (self.setCount ip (count - 1), false)
    else ({ self with sessionsPerIp := self.sessionsPerIp.insert ip count }, true)

def releaseIpSlot (self : Shared) (ip : Text) : Shared :=
  match self.sessionsPerIp.lookup ip with
  | none => self
  | some count => self.setCount ip (count - 1)

/-- The relay is full; `len() as i32` keeps the low 32 bits. -/
def atCap (self : Shared) (maxSessions : Int32) : Bool :=
  0 < maxSessions ∧ maxSessions ≤ Int32.ofNat self.sessions.entries.length

def closeSession (self : Shared) (arc : Nat) : Shared :=
  let closed := { self with toIndex := (self.unindex arc).markDead arc }
  match self.opened[arc]? with
  | none => closed
  | some session => closed.releaseIpSlot session.clientIp

/-! ### Datagrams, one at a time -/

/-- What decides whether a session can be opened: the limits, the routing entry of the
client's IP and whether a socket could be opened. -/
structure Admission where
  throttle : Config.UdpThrottleConfig
  route : Option VoiceRouting.Entry
  opens : Bool

/-- A datagram of a client that has a session. -/
def handleExisting (self : Shared) (arc : Nat) (via : SocketAddr) (content : Bytes) : Shared :=
  { self with toIndex := self.repointVia arc via }.forward arc content

def handleForClient (self : Shared) (clientAddr via : SocketAddr) (content : Bytes)
    (admission : Admission) : Shared :=
  match self.sessions.lookup clientAddr with
  | some existing => self.handleExisting existing via content
  | none =>
    match admission.route with
    | none => self
    | some route =>
      if self.atCap admission.throttle.maxSessions then self
      else
        let clientIp := displayIp clientAddr.ip
        let (acquired, admitted) := self.acquireIpSlot admission.throttle.maxSessionsPerIp clientIp
        if ¬ admitted then acquired
        else if ¬ admission.opens then acquired.releaseIpSlot clientIp
        else
          let arc := acquired.opened.length
          let index := (acquired.insertSession clientAddr via route).insertVia via arc
          { acquired with toIndex := index }.forward arc content

def routeHeaderedDatagram (self : Shared) (via clientAddr : SocketAddr) (content : Bytes)
    (admission : Admission) : Shared :=
  match self.sessions.lookup clientAddr with
  | some existing => self.handleExisting existing via content
  | none => self.handleForClient clientAddr via content admission

def handleClientPacket (self : Shared) (via : SocketAddr) (content : Bytes)
    (admission : Admission) : Shared :=
  if self.expectProxyProtocol then
    match parseProxyProtocolHeader content with
    | .ok (some addr, headerLen) =>
      self.routeHeaderedDatagram via addr (content.drop headerLen) admission
    | .ok (none, _) => self
    | .error _ =>
      match self.byVia.lookup via with
      | some known => self.forward known content
      | none => self
  else self.handleForClient via via content admission

end Shared

/-! ### What an operation does to the indexes -/

namespace Shared

@[simp] theorem forward_toIndex (self : Shared) (arc : Nat) (content : Bytes) :
    (self.forward arc content).toIndex = self.toIndex := by
  unfold forward
  split <;> rfl

@[simp] theorem setCount_toIndex (self : Shared) (ip : Text) (count : Int32) :
    (self.setCount ip count).toIndex = self.toIndex := by
  unfold setCount
  split <;> rfl

@[simp] theorem acquireIpSlot_toIndex (self : Shared) (max : Int32) (ip : Text) :
    (self.acquireIpSlot max ip).1.toIndex = self.toIndex := by
  unfold acquireIpSlot
  split
  · rfl
  · dsimp only
    split
    · exact setCount_toIndex _ _ _
    · rfl

@[simp] theorem releaseIpSlot_toIndex (self : Shared) (ip : Text) :
    (self.releaseIpSlot ip).toIndex = self.toIndex := by
  unfold releaseIpSlot
  split
  · rfl
  · exact setCount_toIndex _ _ _

@[simp] theorem closeSession_toIndex (self : Shared) (arc : Nat) :
    (self.closeSession arc).toIndex = (self.unindex arc).markDead arc := by
  unfold closeSession
  dsimp only
  split
  · rfl
  · exact releaseIpSlot_toIndex _ _

end Shared

namespace Index

variable {self : Index} {arc : Nat} {current : SocketAddr}

private theorem openVia_eq_some :
    self.openVia arc = some current ↔
      ∃ session, self.opened[arc]? = some session ∧ session.dead = false ∧
        session.via = current := by
  simp [openVia, Option.bind_eq_some_iff]

private theorem lt_of_openVia (reached : self.openVia arc = some current) :
    arc < self.opened.length := by
  obtain ⟨session, stored, -⟩ := openVia_eq_some.mp reached
  exact (List.getElem?_eq_some_iff.mp stored).1

/-- In PROXY protocol mode an open session that moves gives up its entry and takes the new one. -/
theorem repointVia_of_openVia (proxy : self.expectProxyProtocol)
    (reached : self.openVia arc = some current) (newVia : SocketAddr) :
    (∀ other, (self.repointVia arc newVia).openVia other =
        if other = arc then some newVia else self.openVia other) ∧
      ∀ v, (self.repointVia arc newVia).byVia.lookup v =
        if current = newVia then self.byVia.lookup v
        else if v = newVia then some arc
        else if v = current then none else self.byVia.lookup v := by
  obtain ⟨session, stored, alive, rfl⟩ := openVia_eq_some.mp reached
  by_cases stays : session.via = newVia
  · have same : self.repointVia arc newVia = self := by
      simp only [repointVia, stored, proxy, not_true, if_false, stays, if_true]
    rw [same]
    refine ⟨fun other => ?_, fun v => by rw [if_pos stays]⟩
    split
    next own => rw [own, reached, stays]
    next => rfl
  · have moved : self.repointVia arc newVia =
        { self with
          opened := self.opened.set arc { session with via := newVia }
          byVia := (self.byVia.erase session.via).insert newVia arc } := by
      simp only [repointVia, stored, proxy, not_true, if_false, stays]
    rw [moved]
    constructor
    · intro other
      by_cases own : other = arc
      · subst own
        rw [if_pos rfl, openVia_eq_some]
        exact ⟨_, List.getElem?_set_self (List.getElem?_eq_some_iff.mp stored).1, alive, rfl⟩
      · rw [if_neg own, openVia, openVia, List.getElem?_set_ne (Ne.symm own)]
    · intro v
      rw [if_neg stays, HashMap.lookup_insert_eq, HashMap.lookup_erase_eq]

theorem repointVia_frame (self : Index) (arc : Nat) (newVia : SocketAddr) :
    (self.repointVia arc newVia).sessions = self.sessions ∧
      (self.repointVia arc newVia).expectProxyProtocol = self.expectProxyProtocol ∧
      (self.repointVia arc newVia).opened.length = self.opened.length := by
  unfold repointVia
  split
  next => exact ⟨rfl, rfl, rfl⟩
  next =>
    dsimp only
    split
    · exact ⟨rfl, rfl, List.length_set⟩
    · split
      · exact ⟨rfl, rfl, rfl⟩
      · exact ⟨rfl, rfl, List.length_set⟩

theorem openVia_insertSession (self : Index) (clientAddr via : SocketAddr)
    (route : VoiceRouting.Entry) (other : Nat) :
    (self.insertSession clientAddr via route).openVia other =
      if other = self.opened.length then some via else self.openVia other := by
  by_cases own : other = self.opened.length
  · subst own
    simp [insertSession, openVia]
  · rw [if_neg own, openVia, openVia, insertSession]
    rcases Nat.lt_or_gt_of_ne own with before | beyond
    · rw [List.getElem?_append_left before]
    · rw [List.getElem?_eq_none (Nat.le_of_lt beyond), List.getElem?_eq_none]
      rw [List.length_append]
      exact beyond

/-- `insertVia` touches `by_via` alone. -/
theorem insertVia_frame (self : Index) (via : SocketAddr) (arc : Nat) :
    (self.insertVia via arc).sessions = self.sessions ∧
      (self.insertVia via arc).expectProxyProtocol = self.expectProxyProtocol ∧
      (self.insertVia via arc).opened = self.opened := by
  unfold insertVia
  split <;> exact ⟨rfl, rfl, rfl⟩

/-- In PROXY protocol mode a new session is in both indexes. -/
theorem open_of_proxy (proxy : self.expectProxyProtocol) (clientAddr via : SocketAddr)
    (route : VoiceRouting.Entry) :
    (∀ other, ((self.insertSession clientAddr via route).insertVia via
        self.opened.length).openVia other =
          if other = self.opened.length then some via else self.openVia other) ∧
      (∀ v, ((self.insertSession clientAddr via route).insertVia via
        self.opened.length).byVia.lookup v =
          if v = via then some self.opened.length else self.byVia.lookup v) ∧
      ∀ client, ((self.insertSession clientAddr via route).insertVia via
        self.opened.length).sessions.lookup client =
          if client = clientAddr then some self.opened.length
          else self.sessions.lookup client := by
  have mode : (self.insertSession clientAddr via route).expectProxyProtocol := proxy
  refine ⟨fun other => ?_, fun v => ?_, fun client => ?_⟩
  · rw [← openVia_insertSession self clientAddr via route other, openVia,
      (insertVia_frame _ _ _).2.2, openVia]
  · rw [insertVia, if_pos mode, HashMap.lookup_insert_eq]
    rfl
  · rw [(insertVia_frame _ _ _).1]
    exact HashMap.lookup_insert_eq _ _ _ _

/-- A closed session is not reached any more. -/
theorem openVia_markDead (self : Index) (arc other : Nat) :
    (self.markDead arc).openVia other = if other = arc then none else self.openVia other := by
  unfold markDead
  split
  next absent =>
    split
    next own => rw [own, openVia, absent]; rfl
    next => rfl
  next session stored =>
    by_cases own : other = arc
    · subst own
      rw [if_pos rfl, openVia, List.getElem?_set_self (List.getElem?_eq_some_iff.mp stored).1]
      rfl
    · rw [if_neg own, openVia, List.getElem?_set_ne (Ne.symm own)]
      rfl

/-- Nor is it when its entries are gone. -/
theorem openVia_close (self : Index) (arc other : Nat) :
    ((self.unindex arc).markDead arc).openVia other =
      if other = arc then none else self.openVia other :=
  openVia_markDead (self.unindex arc) arc other

theorem markDead_frame (self : Index) (arc : Nat) :
    (self.markDead arc).sessions = self.sessions ∧ (self.markDead arc).byVia = self.byVia ∧
      (self.markDead arc).expectProxyProtocol = self.expectProxyProtocol ∧
      (self.markDead arc).opened.length = self.opened.length := by
  unfold markDead
  split
  next => exact ⟨rfl, rfl, rfl, rfl⟩
  next => exact ⟨rfl, rfl, rfl, List.length_set⟩

private theorem byVia_close (self : Index) (arc : Nat) (v : SocketAddr) :
    ((self.unindex arc).markDead arc).byVia.lookup v =
      (self.byVia.lookup v).filter fun other => other ≠ arc := by
  rw [(markDead_frame _ _).2.1, unindex, HashMap.lookup_retain]

end Index

/-- How a datagram of a named client leaves the indexes. -/
inductive Handled (index : Index) (clientAddr via : SocketAddr) : Index → Prop
  | existing (arc : Nat) (known : index.sessions.lookup clientAddr = some arc) :
    Handled index clientAddr via (index.repointVia arc via)
  | refused (unknown : index.sessions.lookup clientAddr = none) :
    Handled index clientAddr via index
  | opened (route : VoiceRouting.Entry) (unknown : index.sessions.lookup clientAddr = none) :
    Handled index clientAddr via
      ((index.insertSession clientAddr via route).insertVia via index.opened.length)

private theorem handleForClient_handled (self : Shared) (clientAddr via : SocketAddr)
    (content : Bytes) (admission : Shared.Admission) :
    Handled self.toIndex clientAddr via
      (self.handleForClient clientAddr via content admission).toIndex := by
  unfold Shared.handleForClient
  split
  next arc known =>
    rw [Shared.handleExisting, Shared.forward_toIndex]
    exact .existing arc known
  next unknown =>
    split
    next => exact .refused unknown
    next route _ =>
      split
      next => exact .refused unknown
      next =>
        have same := Shared.acquireIpSlot_toIndex self admission.throttle.maxSessionsPerIp
          (displayIp clientAddr.ip)
        dsimp only
        split
        next =>
          rw [same]
          exact .refused unknown
        next =>
          split
          next =>
            rw [Shared.releaseIpSlot_toIndex, same]
            exact .refused unknown
          next =>
            rw [Shared.forward_toIndex, same]
            exact .opened route unknown

private theorem routeHeaderedDatagram_handled (self : Shared) (via clientAddr : SocketAddr)
    (content : Bytes) (admission : Shared.Admission) :
    Handled self.toIndex clientAddr via
      (self.routeHeaderedDatagram via clientAddr content admission).toIndex := by
  unfold Shared.routeHeaderedDatagram
  split
  next arc known =>
    rw [Shared.handleExisting, Shared.forward_toIndex]
    exact .existing arc known
  next => exact handleForClient_handled self clientAddr via content admission

/-! ### Flows -/

/-- The relay in PROXY protocol mode. `last` is, for each address, the session that took the
last datagram with a header from there; only the statements read it. -/
structure Flows where
  shared : Shared
  last : HashMap SocketAddr Nat

inductive FlowEvent where
  | datagram (via : SocketAddr) (content : Bytes) (admission : Shared.Admission)
  /-- the session of a client is closed, for whatever reason -/
  | close (clientAddr : SocketAddr)

/-- The client that a datagram names. -/
def namedClient (content : Bytes) : Option SocketAddr :=
  match parseProxyProtocolHeader content with
  | .ok (addr, _) => addr
  | .error _ => none

/-- The datagram has no header. -/
def headerLess (content : Bytes) : Bool :=
  match parseProxyProtocolHeader content with
  | .ok _ => false
  | .error _ => true

namespace Flows

def start : Flows := ⟨Shared.new true, ∅⟩

def step (s : Flows) : FlowEvent → Option Flows
  | .datagram via content admission =>
    let shared := s.shared.handleClientPacket via content admission
    let taker := (namedClient content).bind fun clientAddr => shared.sessions.lookup clientAddr
    some ⟨shared, match taker with
      | some arc => s.last.insert via arc
      | none => s.last⟩
  | .close clientAddr => do
    let arc ← s.shared.sessions.lookup clientAddr
    let removed := { s.shared with toIndex := s.shared.removeSession clientAddr }
    return { s with shared := removed.closeSession arc }

/-- The session that the flow from `via` belongs to: the one that took the last datagram with
a header from there, while it is open and has not moved to another address. -/
def owner (s : Flows) (via : SocketAddr) : Option Nat :=
  (s.last.lookup via).filter fun arc => s.shared.openVia arc = some via

/-- A client with a session still owns the entry of the session's address when it sends a
datagram with a header. -/
def KeepsEntry (s : Flows) : FlowEvent → Prop
  | .datagram _ content _ =>
    ∀ clientAddr ∈ namedClient content, ∀ arc ∈ s.shared.sessions.lookup clientAddr,
      ∀ via ∈ s.shared.openVia arc, s.shared.byVia.lookup via = some arc
  | .close _ => True

instance (s : Flows) (event : FlowEvent) : Decidable (KeepsEntry s event) :=
  match event with
  | .datagram _ content _ =>
    inferInstanceAs (Decidable (∀ clientAddr ∈ namedClient content,
      ∀ arc ∈ s.shared.sessions.lookup clientAddr, ∀ via ∈ s.shared.openVia arc,
        s.shared.byVia.lookup via = some arc))
  | .close _ => isTrue trivial

structure Wellformed (s : Flows) : Prop where
  proxy : s.shared.expectProxyProtocol
  /-- a session that is in the map is open -/
  alive : ∀ clientAddr arc, s.shared.sessions.lookup clientAddr = some arc →
    ∃ via, s.shared.openVia arc = some via
  distinct : ∀ one two arc, s.shared.sessions.lookup one = some arc →
    s.shared.sessions.lookup two = some arc → one = two
  known : ∀ via arc, s.last.lookup via = some arc → arc < s.shared.opened.length

/-- `by_via` leads every flow to its owner. -/
def Indexed (s : Flows) : Prop := ∀ via, s.shared.byVia.lookup via = s.owner via

/-- What a step does to the indexes. -/
inductive Effect (s : Flows) : FlowEvent → Flows → Prop
  | quiet {via : SocketAddr} {content : Bytes} {admission : Shared.Admission} {shared : Shared}
      (same : shared.toIndex = s.shared.toIndex) :
      Effect s (.datagram via content admission) ⟨shared, s.last⟩
  | existing {via clientAddr : SocketAddr} {content : Bytes} {admission : Shared.Admission}
      {shared : Shared} {arc : Nat} (named : namedClient content = some clientAddr)
      (known : s.shared.sessions.lookup clientAddr = some arc)
      (index : shared.toIndex = s.shared.repointVia arc via) :
      Effect s (.datagram via content admission) ⟨shared, s.last.insert via arc⟩
  | opened {via clientAddr : SocketAddr} {content : Bytes} {admission : Shared.Admission}
      {shared : Shared} {route : VoiceRouting.Entry}
      (named : namedClient content = some clientAddr)
      (unknown : s.shared.sessions.lookup clientAddr = none)
      (index : shared.toIndex =
        (s.shared.insertSession clientAddr via route).insertVia via s.shared.opened.length) :
      Effect s (.datagram via content admission)
        ⟨shared, s.last.insert via s.shared.opened.length⟩
  | closed {clientAddr : SocketAddr} {shared : Shared} {arc : Nat}
      (known : s.shared.sessions.lookup clientAddr = some arc)
      (index : shared.toIndex = ((s.shared.removeSession clientAddr).unindex arc).markDead arc) :
      Effect s (.close clientAddr) { s with shared }

variable {s s' : Flows} {event : FlowEvent}

theorem step_effect (proxy : s.shared.expectProxyProtocol) (stepped : s.step event = some s') :
    Effect s event s' := by
  cases event with
  | close clientAddr =>
    obtain ⟨arc, known, same⟩ := Option.bind_eq_some_iff.mp stepped
    cases same
    exact .closed known (Shared.closeSession_toIndex _ _)
  | datagram via content admission =>
    cases stepped
    simp only [Shared.handleClientPacket, proxy, if_true, namedClient]
    cases parsed : parseProxyProtocolHeader content with
    -- without a header the datagram belongs to the session its sender speaks for, if any
    | error e =>
      apply Effect.quiet
      cases s.shared.byVia.lookup via with
      | none => rfl
      | some arc => exact Shared.forward_toIndex _ _ _
    | ok header =>
      obtain ⟨addr, headerLen⟩ := header
      cases addr with
      | none => exact .quiet rfl
      | some clientAddr =>
        have named : namedClient content = some clientAddr := by rw [namedClient, parsed]
        have handled := routeHeaderedDatagram_handled s.shared via clientAddr
          (content.drop headerLen) admission
        simp only [Option.bind_some]
        generalize s.shared.routeHeaderedDatagram via clientAddr (content.drop headerLen)
          admission = shared at handled ⊢
        generalize index : shared.toIndex = after at handled
        cases handled with
        | existing arc known =>
          -- the session that the datagram reaches is still the client's after `repoint_via`
          have taken : (s.shared.repointVia arc via).sessions.lookup clientAddr = some arc := by
            rw [(Index.repointVia_frame _ _ _).1]
            exact known
          rw [taken]
          exact .existing named known index
        | refused unknown =>
          rw [unknown]
          exact .quiet index
        | opened route unknown =>
          have taken : ((s.shared.insertSession clientAddr via route).insertVia via
              s.shared.opened.length).sessions.lookup clientAddr = some s.shared.opened.length := by
            rw [(Index.insertVia_frame _ _ _).1]
            exact AList.lookup_insert _
          rw [taken]
          exact .opened named unknown index

private theorem wellformed_existing (wf : Wellformed s) {clientAddr via : SocketAddr} {arc : Nat}
    {shared : Shared} (found : s.shared.sessions.lookup clientAddr = some arc)
    (index : shared.toIndex = s.shared.repointVia arc via) :
    Wellformed ⟨shared, s.last.insert via arc⟩ := by
  obtain ⟨proxy, alive, distinct, known⟩ := wf
  obtain ⟨current, reached⟩ := alive clientAddr arc found
  obtain ⟨sessions, mode, length⟩ := Index.repointVia_frame s.shared.toIndex arc via
  have moved := (Index.repointVia_of_openVia proxy reached via).1
  refine ⟨?_, ?_, ?_, ?_⟩ <;> dsimp only <;> rw [index]
  · rw [mode]
    exact proxy
  · intro client other stored
    rw [sessions] at stored
    rw [moved]
    split
    · exact ⟨via, rfl⟩
    · exact alive client other stored
  · rw [sessions]
    exact distinct
  · intro from_via other stored
    rw [length]
    rw [HashMap.lookup_insert_eq] at stored
    split at stored
    · cases stored
      exact Index.lt_of_openVia reached
    · exact known from_via other stored

private theorem wellformed_opened (wf : Wellformed s) {clientAddr via : SocketAddr}
    {route : VoiceRouting.Entry} {shared : Shared}
    (index : shared.toIndex =
      (s.shared.insertSession clientAddr via route).insertVia via s.shared.opened.length) :
    Wellformed ⟨shared, s.last.insert via s.shared.opened.length⟩ := by
  obtain ⟨proxy, alive, distinct, known⟩ := wf
  obtain ⟨reached, -, sessions⟩ := Index.open_of_proxy proxy clientAddr via route
  obtain ⟨-, mode, opened⟩ := Index.insertVia_frame
    (s.shared.insertSession clientAddr via route) via s.shared.opened.length
  -- an arc that is stored anywhere is older than the new one
  have older : ∀ client arc, s.shared.sessions.lookup client = some arc →
      arc ≠ s.shared.opened.length := by
    intro client arc stored
    obtain ⟨_, old⟩ := alive client arc stored
    exact Nat.ne_of_lt (Index.lt_of_openVia old)
  refine ⟨?_, ?_, ?_, ?_⟩ <;> dsimp only <;> rw [index]
  · rw [mode]
    exact proxy
  · intro client arc stored
    rw [sessions] at stored
    rw [reached]
    split at stored
    · cases stored
      exact ⟨via, if_pos rfl⟩
    · rw [if_neg (older client arc stored)]
      exact alive client arc stored
  · intro one two arc first second
    rw [sessions] at first second
    split at first <;> split at second
    next same same' => rw [same, same']
    next => cases first; exact absurd rfl (older two _ second)
    next => cases second; exact absurd rfl (older one _ first)
    next => exact distinct one two arc first second
  · intro from_via arc stored
    have longer : arc ≤ s.shared.opened.length := by
      rw [HashMap.lookup_insert_eq] at stored
      split at stored
      · cases stored
        exact Nat.le_refl _
      · exact Nat.le_of_lt (known from_via arc stored)
    rw [opened, Index.insertSession, List.length_append]
    exact Nat.lt_succ_of_le longer

private theorem wellformed_closed (wf : Wellformed s) {clientAddr : SocketAddr} {arc : Nat}
    {shared : Shared} (found : s.shared.sessions.lookup clientAddr = some arc)
    (index : shared.toIndex = ((s.shared.removeSession clientAddr).unindex arc).markDead arc) :
    Wellformed { s with shared } := by
  obtain ⟨proxy, alive, distinct, known⟩ := wf
  obtain ⟨sessions, -, mode, length⟩ :=
    Index.markDead_frame ((s.shared.removeSession clientAddr).unindex arc) arc
  have reached := Index.openVia_close (s.shared.removeSession clientAddr) arc
  have stored_iff (client : SocketAddr) :
      ((s.shared.removeSession clientAddr).unindex arc).sessions.lookup client =
        if client = clientAddr then none else s.shared.sessions.lookup client :=
    HashMap.lookup_erase_eq _ _ _
  refine ⟨?_, ?_, ?_, ?_⟩ <;> dsimp only <;> rw [index]
  · rw [mode]
    exact proxy
  · intro client other stored
    rw [sessions, stored_iff] at stored
    split at stored
    · cases stored
    next apart =>
      -- the session that was closed had only this one entry
      have elsewhere : other ≠ arc := by
        rintro rfl
        exact apart (distinct client clientAddr other stored found)
      rw [reached, if_neg elsewhere]
      exact alive client other stored
  · intro one two other first second
    rw [sessions, stored_iff] at first second
    split at first
    · cases first
    · split at second
      · cases second
      · exact distinct one two other first second
  · rw [length]
    exact known

theorem Effect.wellformed (effect : Effect s event s') (wf : Wellformed s) : Wellformed s' := by
  cases effect with
  | quiet same =>
    obtain ⟨proxy, alive, distinct, known⟩ := wf
    refine ⟨?_, ?_, ?_, ?_⟩ <;> dsimp only <;> rw [same]
    · exact proxy
    · exact alive
    · exact distinct
    · exact known
  | existing _ found index => exact wellformed_existing wf found index
  | opened _ _ index => exact wellformed_opened wf index
  | closed found index => exact wellformed_closed wf found index

private theorem owner_eq {via : SocketAddr} {arc : Nat} :
    s.owner via = some arc ↔
      s.last.lookup via = some arc ∧ s.shared.openVia arc = some via := by
  simp [owner, Option.filter_eq_some_iff]

private theorem Indexed.byVia_eq_some (indexed : Indexed s) {via : SocketAddr} {arc : Nat} :
    s.shared.byVia.lookup via = some arc ↔
      s.last.lookup via = some arc ∧ s.shared.openVia arc = some via := by
  rw [indexed via, owner_eq]

theorem Effect.indexed (effect : Effect s event s') (wf : Wellformed s) (indexed : Indexed s)
    (keeps : KeepsEntry s event) : Indexed s' := by
  obtain ⟨proxy, alive, -, known⟩ := wf
  intro v
  apply Option.ext
  intro owner
  rw [owner_eq]
  cases effect with
  | quiet same =>
    dsimp only
    rw [same, indexed.byVia_eq_some]
  | @existing via clientAddr content admission shared arc named found index =>
    obtain ⟨current, reached⟩ := alive clientAddr arc found
    obtain ⟨moved, entries⟩ := Index.repointVia_of_openVia proxy reached via
    have own : s.shared.byVia.lookup current = some arc :=
      keeps clientAddr named arc found current reached
    have lastOwn := (indexed.byVia_eq_some.mp own).1
    dsimp only
    rw [index, moved, entries, HashMap.lookup_insert_eq]
    by_cases here : v = via
    · -- the entry is the session's, whether it has just come or was there
      subst here
      have entry : (if current = v then s.shared.byVia.lookup v else some arc) = some arc := by
        split
        next same => rw [← same, own]
        next => rfl
      grind
    · by_cases left : v = current
      · -- the address it has left has no owner
        subst left
        grind
      · have elsewhere : s.shared.openVia arc ≠ some v := by
          rw [reached]
          exact fun same => left (Option.some.inj same).symm
        rw [if_neg here, if_neg here, if_neg left, ite_self, indexed.byVia_eq_some]
        grind
  | @opened via clientAddr content admission shared route named unknown index =>
    obtain ⟨reached, entries, -⟩ := Index.open_of_proxy proxy clientAddr via route
    dsimp only
    rw [index, reached, entries, HashMap.lookup_insert_eq]
    by_cases here : v = via
    · rw [if_pos here, if_pos here, here]
      grind
    · rw [if_neg here, if_neg here, indexed.byVia_eq_some]
      refine and_congr_right fun stored => ?_
      rw [if_neg (Nat.ne_of_lt (known v owner stored))]
  | @closed clientAddr shared arc found index =>
    dsimp only
    have removed : (s.shared.removeSession clientAddr).byVia = s.shared.byVia ∧
        (s.shared.removeSession clientAddr).openVia owner = s.shared.openVia owner := ⟨rfl, rfl⟩
    rw [index, Index.openVia_close, Index.byVia_close, removed.1, removed.2,
      Option.filter_eq_some_iff, indexed.byVia_eq_some]
    grind

/-! ### What a run keeps -/

/-- A datagram without a header goes to the owner of its flow, and to nobody if there is none. -/
def FollowsOwner (s : Flows) : Prop :=
  ∀ via content admission, headerLess content →
    (s.shared.handleClientPacket via content admission).sent =
      s.shared.sent ++ (s.owner via).toList.map fun arc => (arc, content)

/-- The entries of other sessions outlive the closing of a session and, at other addresses,
the arrival of a datagram. -/
def SparesOthers (s : Flows) : Prop :=
  ∀ event s', s.step event = some s' → KeepsEntry s event →
    ∀ v arc, s.shared.byVia.lookup v = some arc →
      (∀ clientAddr, event = .close clientAddr → s.shared.sessions.lookup clientAddr ≠ some arc) →
      (∀ via content admission, event = .datagram via content admission →
        v ≠ via ∧ ∀ clientAddr ∈ namedClient content,
          s.shared.sessions.lookup clientAddr ≠ some arc) →
      s'.shared.byVia.lookup v = some arc

private theorem followsOwner_of_indexed (wf : Wellformed s) (indexed : Indexed s) :
    FollowsOwner s := by
  intro via content admission bare
  have unparsed : ∃ e, parseProxyProtocolHeader content = .error e := by
    unfold headerLess at bare
    split at bare
    · cases bare
    next e failed => exact ⟨e, failed⟩
  obtain ⟨e, failed⟩ := unparsed
  simp only [Shared.handleClientPacket, wf.proxy, if_true, failed, indexed via]
  cases flow : s.owner via with
  | none => exact (List.append_nil _).symm
  | some arc =>
    have reached := (owner_eq.mp flow).2
    simp only [Shared.forward, reached, Option.isSome_some, if_true]
    rfl

theorem Effect.spares (effect : Effect s event s') (wf : Wellformed s) (keeps : KeepsEntry s event)
    {v : SocketAddr} {arc : Nat} (entry : s.shared.byVia.lookup v = some arc)
    (notClosed : ∀ clientAddr, event = .close clientAddr →
      s.shared.sessions.lookup clientAddr ≠ some arc)
    (elsewhere : ∀ via content admission, event = .datagram via content admission →
      v ≠ via ∧ ∀ clientAddr ∈ namedClient content,
        s.shared.sessions.lookup clientAddr ≠ some arc) :
    s'.shared.byVia.lookup v = some arc := by
  cases effect with
  | quiet same =>
    dsimp only
    rw [same, entry]
  | @existing via clientAddr content admission shared mover named found index =>
    obtain ⟨current, reached⟩ := wf.alive clientAddr mover found
    obtain ⟨apart, others⟩ := elsewhere via content admission rfl
    have own : s.shared.byVia.lookup current = some mover :=
      keeps clientAddr named mover found current reached
    have distinct : mover ≠ arc := fun same => others clientAddr named (same ▸ found)
    -- the address that is given up is the mover's own
    have notCurrent : v ≠ current := by
      rintro rfl
      exact distinct (Option.some.inj (own.symm.trans entry))
    dsimp only
    rw [index, (Index.repointVia_of_openVia wf.proxy reached via).2, if_neg apart,
      if_neg notCurrent, ite_self, entry]
  | @opened via clientAddr content admission shared route named unknown index =>
    obtain ⟨apart, -⟩ := elsewhere via content admission rfl
    dsimp only
    rw [index, (Index.open_of_proxy wf.proxy clientAddr via route).2.1, if_neg apart, entry]
  | @closed clientAddr shared closing found index =>
    have distinct : arc ≠ closing := fun same => notClosed clientAddr rfl (same ▸ found)
    dsimp only
    rw [index, Index.byVia_close]
    exact Option.filter_eq_some_iff.mpr ⟨entry, decide_eq_true distinct⟩

/-- In every run in which a client whose entry was taken over sends no further datagram with
a header, datagrams without one follow the owner of their flow, and no session loses its
entry to another one that moves or closes. -/
theorem followsOwner_of_keepsEntry {events : List FlowEvent}
    (keeps : Guarded step KeepsEntry start events) :
    Always step (fun s => FollowsOwner s ∧ SparesOthers s) start events := by
  have indexed : Always step (fun s => Wellformed s ∧ Indexed s) start events := by
    refine always_of_guarded (fun s event s' holds keeps stepped => ?_) ?_ keeps
    · have effect := step_effect holds.1.proxy stepped
      exact ⟨effect.wellformed holds.1, effect.indexed holds.1 holds.2 keeps⟩
    · refine ⟨⟨rfl, ?_, ?_, ?_⟩, fun via => rfl⟩
      · intro clientAddr arc stored
        cases stored
      · intro one two arc stored
        cases stored
      · intro via arc stored
        cases stored
  refine indexed.imp fun s holds => ⟨followsOwner_of_indexed holds.1 holds.2, ?_⟩
  intro event s' stepped keeps v arc entry notClosed elsewhere
  exact (step_effect holds.1.proxy stepped).spares holds.1 keeps entry notClosed elsewhere

/-- A player and two addresses of the proxy in front. -/
def player : SocketAddr := ⟨.v4 ⟨203, 0, 113, 7⟩, 4000⟩

def proxyOne : SocketAddr := ⟨.v4 ⟨10, 0, 0, 1⟩, 5001⟩

def proxyTwo : SocketAddr := ⟨.v4 ⟨10, 0, 0, 1⟩, 5002⟩

/-- A route for everybody, and sockets that open. -/
def admitted : Shared.Admission :=
  ⟨{}, some ⟨"play.example.com".toList, ⟨.v4 ⟨10, 0, 0, 5⟩, 24454⟩, 0, 1⟩, true⟩

/-- A datagram with the player's header. -/
def headered (via : SocketAddr) : FlowEvent :=
  .datagram via (literal "PROXY TCP4 203.0.113.7 10.0.0.9 4000 24454\r\nvoice") admitted

def bare (via : SocketAddr) : FlowEvent := .datagram via (literal "voice") admitted

/-- A datagram with the header of somebody else. -/
def visiting (via : SocketAddr) : FlowEvent :=
  .datagram via (literal "PROXY TCP4 203.0.113.8 10.0.0.9 4001 24454\r\nvoice") admitted

/-- A session moves to another address and is followed there. Then a second client comes to the
address that was left, takes over the other one, and keeps it when the first one is closed. -/
theorem followsOwner_while_moving :
    Always step (fun s => FollowsOwner s ∧ SparesOthers s) start
      [headered proxyOne, bare proxyOne, headered proxyTwo, bare proxyTwo, visiting proxyOne,
        bare proxyOne, visiting proxyTwo, bare proxyTwo, .close player, bare proxyTwo] ∧
    ((run step start [headered proxyOne, bare proxyOne, headered proxyTwo, bare proxyTwo,
        visiting proxyOne, bare proxyOne, visiting proxyTwo, bare proxyTwo, .close player,
        bare proxyTwo]).map fun s => s.shared.sent.map Prod.fst) =
      some [0, 0, 0, 0, 1, 1, 1, 1, 1] :=
  ⟨followsOwner_of_keepsEntry (by decide), by decide⟩

/-- The flow from an address that its session has left is dropped, although the session is
open. -/
theorem bare_dropped_after_move :
    ¬ ∀ (events : List FlowEvent) (s : Flows) (via : SocketAddr) (content : Bytes)
        (admission : Shared.Admission) (arc : Nat),
      run step start events = some s → headerLess content → s.last.lookup via = some arc →
      (s.shared.openVia arc).isSome →
      (s.shared.handleClientPacket via content admission).sent =
        s.shared.sent ++ [(arc, content)] := by
  intro always
  have forwarded := always [headered proxyOne, headered proxyTwo] _ proxyOne (literal "voice")
    admitted 0 rfl (by decide) (by decide) (by decide)
  exact absurd forwarded (by decide)

end Flows

end MCGate.VoiceRelay
