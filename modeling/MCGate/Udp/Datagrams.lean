import Mathlib.Algebra.Order.Group.Multiset
import MCGate.Udp.RelayReaders

/-!
# Whose datagrams go where

Where a UDP relay reads no PROXY headers, the sender of a datagram is its client. However the
datagrams are handled beside each other, beside evictions and disconnects, each of them is sent to
the backend once at most, nothing else is, and it goes over a session whose replies go to the
same sender: no client's datagrams or replies pass through the session of another. The step
lemma says what a task carries, and what it can do with it.
-/
namespace MCGate.UdpRelay

open Config Threads
open VoiceRelay (Index Packet Session Shared)

/-- The relay reads no PROXY headers. -/
def Kind.direct : Kind → Bool
  | .voice true => false
  | _ => true

namespace Relay

def vias (s : Relay) : List SocketAddr := s.opened.map Session.via

/-- Where the replies of a session's backend are sent. -/
def replyTo (s : Relay) (arc : Nat) : Option SocketAddr := s.vias[arc]?

/-- What the sessions have sent to their backends, with where its replies go. -/
def forwarded (s : Relay) : Multiset (Option SocketAddr × Bytes) :=
  s.sent.map fun (arc, content) => (s.replyTo arc, content)

end Relay

/-! ### What a task carries -/

/-- A datagram, with its session once that is found or opened. -/
inductive Load where
  | named (packet : Packet) (arc : Option Nat)
  | bare (content : Bytes) (arc : Nat)

def Task.load : Task → Option Load
  | .arrived packet | .waiting packet | .locked packet | .unrouted packet | .routed packet _
  | .capRead packet _ _ | .belowCap packet _ | .perIpRead packet _ _ | .slotAcquired packet _ _
  | .socketOpened packet _ _ => some (.named packet none)
  | .inserted packet arc | .indexed packet arc | .unlocked packet arc | .spawned packet arc
  | .foundLocked packet arc | .touchedLocked packet arc | .found packet arc
  | .touched packet arc => some (.named packet (some arc))
  | .forwarding content arc | .known content arc => some (.bare content arc)
  | _ => none

/-- The session leads to the one who sent the datagram. -/
def Load.Sound (s : Relay) : Load → Prop
  | .named packet arc =>
    packet.clientAddr = packet.via ∧ ∀ own ∈ arc, s.replyTo own = some packet.via
  | .bare _ arc => (s.replyTo arc).isSome

/-- The datagram as the backend is to get it, with where its replies are to go. -/
def Relay.parcel (s : Relay) : Load → Option SocketAddr × Bytes
  | .named packet _ => (some packet.via, packet.content)
  | .bare content arc => (s.replyTo arc, content)

/-- What a step of a task does with the datagram that it carries. -/
inductive Handles (s : Relay) (t : Task) (s' : Relay) (t' : Task) : Prop
  | goesOn (vias : s'.vias = s.vias) (sent : s'.sent = s.sent)
    (fewer : ∀ addr arc, s'.sessions.lookup addr = some arc → s.sessions.lookup addr = some arc)
    (load : t'.load = t.load ∨ t'.load = none)
  | finds (packet : Packet) (arc : Nat) (found : s.sessions.lookup packet.clientAddr = some arc)
    (before : t.load = some (.named packet none))
    (after : t'.load = some (.named packet (some arc))) (same : s' = s)
  | opens (packet : Packet) (before : t.load = some (.named packet none))
    (after : t'.load = some (.named packet (some s.vias.length)))
    (vias : s'.vias = s.vias ++ [packet.via]) (sent : s'.sent = s.sent)
    (sessions : s'.sessions = s.sessions.insert packet.clientAddr s.vias.length)
  | passes (packet : Packet) (arc : Nat) (before : t.load = some (.named packet (some arc)))
    (after : t'.load = some (.bare packet.content arc))
    (vias : s'.vias = s.vias ∨ s'.vias = s.vias.set arc packet.via) (sent : s'.sent = s.sent)
    (sessions : s'.sessions = s.sessions)
  | sends (content : Bytes) (arc : Nat) (before : t.load = some (.bare content arc))
    (after : t'.load = none) (vias : s'.vias = s.vias) (sessions : s'.sessions = s.sessions)
    (sent : s'.sent = s.sent ∨ s'.sent = s.sent ++ [(arc, content)])

namespace Relay

private theorem vias_repointVia (index : Index) (arc : Nat) (via : SocketAddr) :
    (index.repointVia arc via).opened.map Session.via =
      (index.opened.map Session.via).set arc via := by
  unfold Index.repointVia
  cases at_arc : index.opened[arc]? with
  | none =>
    have beyond := List.getElem?_eq_none_iff.mp at_arc
    rw [List.set_eq_of_length_le (by rwa [List.length_map])]
  | some session =>
    have moved : (index.opened.set arc { session with via }).map Session.via =
        (index.opened.map Session.via).set arc via := List.map_set
    dsimp only
    split
    · exact moved
    · split
      next same =>
        obtain ⟨inRange, rfl⟩ := List.getElem?_eq_some_iff.mp at_arc
        rw [← same, ← List.map_set, List.set_getElem_self]
      next => exact moved

private theorem vias_markDead (index : Index) (arc : Nat) :
    (index.markDead arc).opened.map Session.via = index.opened.map Session.via := by
  unfold Index.markDead
  split
  · rfl
  next session at_arc => exact Threads.map_set_of_eq at_arc rfl

private theorem vias_insert (s : Relay) (packet : Packet) (route : VoiceRouting.Entry)
    (now : Instant) (reserved : Bool) :
    (s.insert packet route now reserved).vias = s.vias ++ [packet.via] := by
  simp [vias, insert, withIndex, Index.insertSession]

end Relay

namespace Task

open UdpRelay.Relay

variable {throttle : UdpThrottleConfig} {s s' : Relay} {task task' : Task} {choice : Choice}

private theorem kind_of_advance (moved : advance throttle s task choice = some (s', task')) :
    s'.kind = s.kind := by
  cases task with
  | closing rest => cases rest <;> simp only [advance] at moved <;> grind [Relay.withIndex]
  | _ =>
    simp only [advance] at moved
    grind [Relay.withIndex, Relay.modifyLife, Relay.touch, Relay.insert, Relay.takeHandle,
      Relay.reply]

/-- A reply goes to where its session leads. -/
theorem replies_of_advance (moved : advance throttle s task choice = some (s', task')) :
    s'.replies = s.replies ∨ ∃ arc via content, s.replyTo arc = some via ∧
      s'.replies = s.replies ++ [(arc, via, content)] := by
  cases task with
  | replied arc content =>
    simp only [advance, Option.some.injEq, Prod.mk.injEq] at moved
    obtain ⟨rfl, -⟩ := moved
    unfold Relay.reply
    cases at_arc : s.opened[arc]? with
    | none => exact .inl rfl
    | some session =>
      refine .inr ⟨arc, session.via, content, ?_, rfl⟩
      rw [replyTo, vias, List.getElem?_map, at_arc, Option.map_some]
  | closing rest => cases rest <;> simp only [advance] at moved <;> grind [Relay.withIndex]
  | _ =>
    simp only [advance] at moved
    grind [Relay.withIndex, Relay.modifyLife, Relay.touch, Relay.insert, Relay.takeHandle]

private theorem handles_goesOn {t t' : Task} (vias : s'.vias = s.vias) (sent : s'.sent = s.sent)
    (sessions : s'.sessions = s.sessions) (load : t'.load = t.load ∨ t'.load = none) :
    Handles s t s' t' := by
  refine .goesOn vias sent (fun addr arc found => ?_) load
  rwa [sessions] at found

/-! #### The way to a session -/

private theorem handles_arrived {packet : Packet}
    (moved : advance throttle s (.arrived packet) choice = some (s', task')) :
    Handles s (.arrived packet) s' task' := by
  unfold advance at moved
  dsimp only at moved
  split at moved
  next existing found =>
    cases moved
    exact .finds packet existing found rfl rfl rfl
  next =>
    cases moved
    exact handles_goesOn rfl rfl rfl (.inl rfl)

private theorem handles_waiting {packet : Packet}
    (moved : advance throttle s (.waiting packet) choice = some (s', task')) :
    Handles s (.waiting packet) s' task' := by
  unfold advance at moved
  dsimp only at moved
  split at moved
  · cases moved
  · cases moved
    exact handles_goesOn rfl rfl rfl (.inl rfl)

private theorem handles_locked {packet : Packet}
    (moved : advance throttle s (.locked packet) choice = some (s', task')) :
    Handles s (.locked packet) s' task' := by
  unfold advance at moved
  dsimp only at moved
  split at moved
  next existing found =>
    cases moved
    exact .finds packet existing found rfl rfl rfl
  next => split at moved <;> cases moved <;> exact handles_goesOn rfl rfl rfl (.inl rfl)

private theorem handles_unrouted {packet : Packet}
    (moved : advance throttle s (.unrouted packet) choice = some (s', task')) :
    Handles s (.unrouted packet) s' task' := by
  unfold advance at moved
  dsimp only at moved
  split at moved
  · cases moved
    exact handles_goesOn rfl rfl rfl (.inr rfl)
  · cases moved
    exact handles_goesOn rfl rfl rfl (.inl rfl)

private theorem handles_capRead {packet : Packet} {route : VoiceRouting.Entry} {globalCap : Int32}
    (moved : advance throttle s (.capRead packet route globalCap) choice = some (s', task')) :
    Handles s (.capRead packet route globalCap) s' task' := by
  cases moved
  split
  · exact handles_goesOn rfl rfl rfl (.inr rfl)
  · exact handles_goesOn rfl rfl rfl (.inl rfl)

private theorem handles_perIpRead {packet : Packet} {route : VoiceRouting.Entry} {perIpCap : Int32}
    (moved : advance throttle s (.perIpRead packet route perIpCap) choice = some (s', task')) :
    Handles s (.perIpRead packet route perIpCap) s' task' := by
  unfold advance at moved
  simp only [Counts.acquireIpSlot_eq, Option.some.injEq, Prod.mk.injEq] at moved
  obtain ⟨rfl, rfl⟩ := moved
  split
  · exact handles_goesOn rfl rfl rfl (.inl rfl)
  · exact handles_goesOn rfl rfl rfl (.inr rfl)

private theorem handles_slotAcquired {packet : Packet} {route : VoiceRouting.Entry}
    {reserved : Bool}
    (moved : advance throttle s (.slotAcquired packet route reserved) choice = some (s', task')) :
    Handles s (.slotAcquired packet route reserved) s' task' := by
  cases moved
  split
  · exact handles_goesOn rfl rfl rfl (.inl rfl)
  · exact handles_goesOn rfl rfl rfl (.inr rfl)

private theorem handles_socketFailed {packet : Packet} {reserved : Bool}
    (moved : advance throttle s (.socketFailed packet reserved) choice = some (s', task')) :
    Handles s (.socketFailed packet reserved) s' task' := by
  unfold advance at moved
  simp only [Counts.releaseIpSlot_eq, Option.some.injEq, Prod.mk.injEq] at moved
  obtain ⟨rfl, rfl⟩ := moved
  exact handles_goesOn rfl rfl rfl (.inr rfl)

private theorem handles_socketOpened {packet : Packet} {route : VoiceRouting.Entry}
    {reserved : Bool}
    (moved : advance throttle s (.socketOpened packet route reserved) choice = some (s', task')) :
    Handles s (.socketOpened packet route reserved) s' task' := by
  cases moved
  -- a session is known by its place in the table, so the new one's is the length
  have length : s.vias.length = s.opened.length := List.length_map ..
  refine .opens packet rfl ?_ (vias_insert s packet route choice.now reserved) rfl ?_
  · rw [length]
    rfl
  · rw [length]
    rfl

private theorem handles_inserted {packet : Packet} {arc : Nat}
    (moved : advance throttle s (.inserted packet arc) choice = some (s', task')) :
    Handles s (.inserted packet arc) s' task' := by
  cases moved
  obtain ⟨sessions, -, opened⟩ := Index.insertVia_frame s.toIndex packet.via arc
  exact handles_goesOn (congrArg (List.map Session.via) opened) rfl sessions (.inl rfl)

/-! #### Forwarding -/

private theorem handles_foundLocked {packet : Packet} {arc : Nat}
    (moved : advance throttle s (.foundLocked packet arc) choice = some (s', task')) :
    Handles s (.foundLocked packet arc) s' task' := by
  unfold advance at moved
  dsimp only at moved
  split at moved <;> cases moved <;> exact handles_goesOn rfl rfl rfl (.inl rfl)

/-- Only the voice relay has an address to set first. -/
theorem handles_found {packet : Packet} {arc : Nat}
    (moved : advance throttle s (.found packet arc) choice = some (s', task')) :
    Handles s (.found packet arc) s' task' := by
  cases moved
  split
  · exact .passes packet arc rfl rfl (.inl rfl) rfl rfl
  · exact handles_goesOn rfl rfl rfl (.inl rfl)

private theorem handles_touched {packet : Packet} {arc : Nat}
    (moved : advance throttle s (.touched packet arc) choice = some (s', task')) :
    Handles s (.touched packet arc) s' task' := by
  cases moved
  refine .passes packet arc rfl rfl (.inr ?_) rfl ?_
  · exact vias_repointVia s.toIndex arc packet.via
  · exact (Index.repointVia_frame s.toIndex arc packet.via).1

private theorem handles_forwarding {content : Bytes} {arc : Nat}
    (moved : advance throttle s (.forwarding content arc) choice = some (s', task')) :
    Handles s (.forwarding content arc) s' task' := by
  cases moved
  have same := Shared.forward_toIndex s.toShared arc content
  refine .sends content arc rfl rfl ?_ ?_ ?_
  · exact congrArg (fun index => index.opened.map Session.via) same
  · exact congrArg Index.sessions same
  · unfold Shared.forward
    split
    · exact .inr rfl
    · exact .inl rfl

/-- Only a relay that reads headers misses one. -/
theorem not_headerless (direct : s.kind.direct) {via : SocketAddr} {content : Bytes} :
    advance throttle s (.headerless via content) choice ≠ some (s', task') := by
  intro moved
  unfold advance at moved
  dsimp only at moved
  split at moved
  next voice _ =>
    rw [voice] at direct
    cases direct
  next voice _ =>
    rw [voice] at direct
    cases direct
  next => cases moved

/-! #### Closing, and the reader -/

private theorem handles_disconnect {clientIp : Text}
    (moved : advance throttle s (.disconnect clientIp) choice = some (s', task')) :
    Handles s (.disconnect clientIp) s' task' := by
  unfold advance at moved
  dsimp only at moved
  split at moved <;> cases moved
  exact handles_goesOn rfl rfl rfl (.inl rfl)

/-- A session leaves the map, but not its place in the table. -/
theorem handles_closing {addrs : List SocketAddr}
    (moved : advance throttle s (.closing addrs) choice = some (s', task')) :
    Handles s (.closing addrs) s' task' := by
  cases addrs with
  | nil =>
    cases moved
    exact handles_goesOn rfl rfl rfl (.inl rfl)
  | cons addr rest =>
    unfold advance at moved
    dsimp only at moved
    split at moved
    · cases moved
      exact handles_goesOn rfl rfl rfl (.inl rfl)
    next arc found =>
      simp only [Option.some.injEq, Prod.mk.injEq] at moved
      obtain ⟨rfl, rfl⟩ := moved
      refine .goesOn rfl rfl (fun other session there => ?_) (.inr ?_)
      · have erased : (s.sessions.erase addr).lookup other = some session := there
        rw [HashMap.lookup_erase_eq] at erased
        split at erased
        · cases erased
        · exact erased
      · split <;> rfl

private theorem handles_unindexed {arc : Nat} {rest : List SocketAddr} {slot : Option Text}
    (moved : advance throttle s (.unindexed arc rest slot) choice = some (s', task')) :
    Handles s (.unindexed arc rest slot) s' task' := by
  cases moved
  refine handles_goesOn (vias_markDead s.toIndex arc) rfl ?_ (.inl rfl)
  exact (Index.markDead_frame s.toIndex arc).1

private theorem handles_killed {arc : Nat} {rest : List SocketAddr} {slot : Option Text}
    (moved : advance throttle s (.killed arc rest slot) choice = some (s', task')) :
    Handles s (.killed arc rest slot) s' task' := by
  unfold advance at moved
  dsimp only at moved
  split at moved
  · cases moved
  · simp only [Counts.releaseIpSlot_eq, Option.some.injEq, Prod.mk.injEq] at moved
    obtain ⟨rfl, rfl⟩ := moved
    exact handles_goesOn rfl rfl rfl (.inl rfl)

private theorem handles_received {arc : Nat} {content : Bytes}
    (moved : advance throttle s (.received arc content) choice = some (s', task')) :
    Handles s (.received arc content) s' task' := by
  unfold advance at moved
  dsimp only at moved
  split at moved
  · split at moved
    · cases moved
    · split at moved <;> cases moved <;> exact handles_goesOn rfl rfl rfl (.inl rfl)
  · cases moved

private theorem handles_replied {arc : Nat} {content : Bytes}
    (moved : advance throttle s (.replied arc content) choice = some (s', task')) :
    Handles s (.replied arc content) s' task' := by
  cases moved
  unfold reply
  split <;> exact handles_goesOn rfl rfl rfl (.inl rfl)

private theorem handles_recvFailed {arc : Nat}
    (moved : advance throttle s (.recvFailed arc) choice = some (s', task')) :
    Handles s (.recvFailed arc) s' task' := by
  unfold advance at moved
  dsimp only at moved
  split at moved
  · cases moved
  · split at moved
    · cases moved
    · split at moved <;> cases moved <;> exact handles_goesOn rfl rfl rfl (.inl rfl)

/-- A step handles the datagram that its task carries. -/
theorem handles_of_advance (direct : s.kind.direct)
    (moved : advance throttle s task choice = some (s', task')) : Handles s task s' task' := by
  cases task with
  | arrived packet => exact handles_arrived moved
  | waiting packet => exact handles_waiting moved
  | locked packet => exact handles_locked moved
  | unrouted packet => exact handles_unrouted moved
  | capRead packet route globalCap => exact handles_capRead moved
  | perIpRead packet route perIpCap => exact handles_perIpRead moved
  | slotAcquired packet route reserved => exact handles_slotAcquired moved
  | socketFailed packet reserved => exact handles_socketFailed moved
  | socketOpened packet route reserved => exact handles_socketOpened moved
  | inserted packet arc => exact handles_inserted moved
  | foundLocked packet arc => exact handles_foundLocked moved
  | found packet arc => exact handles_found moved
  | touched packet arc => exact handles_touched moved
  | forwarding content arc => exact handles_forwarding moved
  | headerless via content => exact absurd moved (not_headerless direct)
  | disconnect clientIp => exact handles_disconnect moved
  | closing addrs => exact handles_closing moved
  | unindexed arc rest slot => exact handles_unindexed moved
  | killed arc rest slot => exact handles_killed moved
  | received arc content => exact handles_received moved
  | replied arc content => exact handles_replied moved
  | recvFailed arc => exact handles_recvFailed moved
  | spawned packet arc | touchedLocked packet arc =>
    cases moved
    exact .passes packet arc rfl rfl (.inl rfl) rfl rfl
  | routed | belowCap | indexed | unlocked | refused | known | evict | removed | released
  | replying =>
    cases moved
    exact handles_goesOn rfl rfl rfl (.inl rfl)
  | done => cases moved

end Task

/-! ### What is kept -/

variable {s s' : Relay} {t t' : Task} {load : Load}

/-- Sessions lead where they did. -/
def Extends (s s' : Relay) : Prop :=
  ∀ arc via, s.replyTo arc = some via → s'.replyTo arc = some via

theorem Handles.extends (handles : Handles s t s' t') (sound : ∀ load ∈ t.load, load.Sound s) :
    Extends s s' := by
  intro arc via known
  unfold Relay.replyTo at *
  cases handles with
  | goesOn vias | sends _ _ _ _ vias =>
    rw [vias]
    exact known
  | finds _ _ _ _ _ same =>
    rw [same]
    exact known
  | opens packet before after vias =>
    rw [vias, List.getElem?_append_left (List.getElem?_eq_some_iff.mp known).1]
    exact known
  | passes packet own before after vias =>
    rcases vias with same | moved
    · rw [same]
      exact known
    · rw [moved, List.getElem?_set]
      split
      next same =>
        -- the session is moved to where it was
        subst same
        have here := (sound _ before).2 own rfl
        rw [Relay.replyTo, known] at here
        rw [if_pos (List.getElem?_eq_some_iff.mp known).1, ← here]
      next => exact known

theorem Load.Sound.extend (sound : load.Sound s) (extend : Extends s s') :
    load.Sound s' ∧ s'.parcel load = s.parcel load := by
  cases load with
  | named packet arc => exact ⟨⟨sound.1, fun own here => extend _ _ (sound.2 own here)⟩, rfl⟩
  | bare content arc =>
    obtain ⟨via, known⟩ := Option.isSome_iff_exists.mp sound
    have later := extend arc via known
    refine ⟨Option.isSome_iff_exists.mpr ⟨via, later⟩, ?_⟩
    rw [Relay.parcel, Relay.parcel, later, known]

/-- What a set of tasks carries. -/
def loads (tasks : Multiset Task) : Multiset Load := tasks.filterMap Task.load

/-- A datagram whose replies go to its sender. -/
def answered : SocketAddr × Bytes → Option SocketAddr × Bytes
  | (sender, content) => (some sender, content)

/-- Of the datagrams `offered`, each has been forwarded, or is carried by a task, or was dropped. -/
structure Delivers (offered : Multiset (SocketAddr × Bytes)) (s : Relay) (tasks : Multiset Task) :
    Prop where
  direct : s.kind.direct
  sessions : ∀ addr arc, s.sessions.lookup addr = some arc → s.replyTo arc = some addr
  sound : ∀ load ∈ loads tasks, load.Sound s
  reached : ∀ entry ∈ s.sent, (s.replyTo entry.1).isSome
  replied : ∀ reply ∈ s.replies, s.replyTo reply.1 = some reply.2.1
  counted : s.forwarded + (loads tasks).map s.parcel ≤ offered.map answered

variable {offered : Multiset (SocketAddr × Bytes)} {tasks others : Multiset Task}

private theorem loads_cons_some (carries : t.load = some load) :
    loads (t ::ₘ tasks) = load ::ₘ loads tasks := Multiset.filterMap_cons_some _ _ _ carries

private theorem loads_cons_none (carries : t.load = none) : loads (t ::ₘ tasks) = loads tasks :=
  Multiset.filterMap_cons_none _ _ carries

theorem Delivers.own (delivers : Delivers offered s (t ::ₘ others)) (load : Load)
    (own : load ∈ t.load) : load.Sound s := by
  apply delivers.sound
  rw [loads_cons_some own]
  exact Multiset.mem_cons_self _ _

theorem Delivers.rest (delivers : Delivers offered s (t ::ₘ others)) (load : Load)
    (member : load ∈ loads others) : load.Sound s := by
  apply delivers.sound
  cases carries : t.load with
  | none => rwa [loads_cons_none carries]
  | some own =>
    rw [loads_cons_some carries]
    exact Multiset.mem_cons_of_mem member

/-- What has been forwarded is meant for who it was meant for. -/
theorem forwarded_extend (reached : ∀ entry ∈ s.sent, (s.replyTo entry.1).isSome)
    (extend : Extends s s') :
    s.sent.map (fun (arc, content) => (s'.replyTo arc, content)) =
      s.sent.map fun (arc, content) => (s.replyTo arc, content) := by
  apply List.map_congr_left
  rintro ⟨arc, content⟩ member
  obtain ⟨via, known⟩ := Option.isSome_iff_exists.mp (reached _ member)
  dsimp only at known ⊢
  rw [known, extend arc via known]

/-- What a task carries is sound still, and so is what it has found. -/
theorem Handles.sound (handles : Handles s t s' t') (own : ∀ load ∈ t.load, load.Sound s)
    (sessions : ∀ addr arc, s.sessions.lookup addr = some arc → s.replyTo arc = some addr) :
    ∀ load ∈ t'.load, load.Sound s' := by
  have extend := handles.extends own
  intro load carried
  cases handles with
  | goesOn vias sent fewer kept =>
    rcases kept with same | dropped
    · exact ((own load (same ▸ carried)).extend extend).1
    · rw [dropped] at carried
      cases carried
  | finds packet arc found before after same =>
    rw [after] at carried
    cases carried
    -- the map was asked for the client, who is the sender
    have direct := (own _ before).1
    refine ⟨direct, ?_⟩
    rintro _ ⟨⟩
    rw [same, ← direct]
    exact sessions _ _ found
  | opens packet before after vias =>
    rw [after] at carried
    cases carried
    refine ⟨(own _ before).1, ?_⟩
    rintro _ ⟨⟩
    rw [Relay.replyTo, vias]
    exact List.getElem?_concat_length
  | passes packet arc before after =>
    rw [after] at carried
    cases carried
    have led := extend _ _ ((own _ before).2 arc rfl)
    exact Option.isSome_iff_exists.mpr ⟨_, led⟩
  | sends content arc before after =>
    rw [after] at carried
    cases carried

theorem Handles.sessions (handles : Handles s t s' t') (own : ∀ load ∈ t.load, load.Sound s)
    (sessions : ∀ addr arc, s.sessions.lookup addr = some arc → s.replyTo arc = some addr)
    {addr : SocketAddr} {arc : Nat} (found : s'.sessions.lookup addr = some arc) :
    s'.replyTo arc = some addr := by
  have extend := handles.extends own
  cases handles with
  | goesOn vias sent fewer => exact extend _ _ (sessions _ _ (fewer _ _ found))
  | finds _ _ _ _ _ same =>
    subst same
    exact sessions _ _ found
  | opens packet before after vias sent inserted =>
    rw [inserted, HashMap.lookup_insert_eq] at found
    split at found
    next client =>
      cases found
      rw [Relay.replyTo, vias, client, (own _ before).1]
      exact List.getElem?_concat_length
    next => exact extend _ _ (sessions _ _ found)
  | passes _ _ _ _ _ _ same | sends _ _ _ _ _ same =>
    rw [same] at found
    exact extend _ _ (sessions _ _ found)

/-- The part of a task. -/
def Relay.share (s : Relay) (t : Task) : Multiset (Option SocketAddr × Bytes) :=
  match t.load with
  | none => 0
  | some load => {s.parcel load}

theorem share_none (s : Relay) (carries : t.load = none) : s.share t = 0 := by
  rw [Relay.share, carries]

theorem share_some (s : Relay) (carries : t.load = some load) : s.share t = {s.parcel load} := by
  rw [Relay.share, carries]

/-- A step sends on what the task carries, or carries it on, or drops it. -/
theorem Handles.shares (handles : Handles s t s' t') (own : ∀ load ∈ t.load, load.Sound s)
    (reached : ∀ entry ∈ s.sent, (s.replyTo entry.1).isSome) :
    s'.forwarded + s'.share t' ≤ s.forwarded + s.share t := by
  have extend := handles.extends own
  have meant := forwarded_extend reached extend
  have forwarded (sent : s'.sent = s.sent) : s'.forwarded = s.forwarded := by
    rw [Relay.forwarded, sent, meant, Relay.forwarded]
  cases handles with
  | goesOn vias sent fewer kept =>
    rw [forwarded sent]
    rcases kept with same | dropped
    · cases carries : t.load with
      | none =>
        rw [share_none s carries, share_none s' (same.trans carries)]
      | some load =>
        rw [share_some s carries, share_some s' (same.trans carries),
          ((own load carries).extend extend).2]
    · rw [share_none s' dropped, add_zero]
      exact Multiset.le_add_right _ _
  | finds packet arc found before after same =>
    rw [share_some s before, share_some s' after, forwarded (by rw [same])]
    exact le_rfl
  | opens packet before after vias sent =>
    rw [share_some s before, share_some s' after, forwarded sent]
    exact le_rfl
  | passes packet arc before after vias sent =>
    have led := extend _ _ ((own _ before).2 arc rfl)
    have meant : s'.parcel (.bare packet.content arc) = (some packet.via, packet.content) := by
      rw [Relay.parcel, led]
    rw [share_some s before, share_some s' after, forwarded sent, meant]
    exact le_rfl
  | sends content arc before after vias sessions sent =>
    have same := ((own _ before).extend extend).2
    rw [share_some s before, share_none s' after, add_zero]
    rcases sent with dropped | sent
    -- a session that was closed in the meantime sends nothing
    · rw [forwarded dropped]
      exact Multiset.le_add_right _ _
    · rw [Relay.forwarded, sent, List.map_append, meant, ← Multiset.coe_add, ← same]
      exact le_rfl

private theorem total_cons (s : Relay) (t : Task) (others : Multiset Task) :
    s.forwarded + (loads (t ::ₘ others)).map s.parcel =
      s.forwarded + s.share t + (loads others).map s.parcel := by
  cases carries : t.load with
  | none => rw [share_none s carries, loads_cons_none carries, add_zero]
  | some load =>
    rw [share_some s carries, loads_cons_some carries, Multiset.map_cons,
      ← Multiset.singleton_add, add_assoc]

theorem Delivers.move (delivers : Delivers offered s (t ::ₘ others)) (kind : s'.kind = s.kind)
    (replies : s'.replies = s.replies ∨ ∃ arc via content, s.replyTo arc = some via ∧
      s'.replies = s.replies ++ [(arc, via, content)])
    (handles : Handles s t s' t') : Delivers offered s' (t' ::ₘ others) := by
  have own : ∀ load ∈ t.load, load.Sound s := delivers.own
  have extend := handles.extends own
  constructor
  case direct => exact kind ▸ delivers.direct
  case sessions => exact fun addr arc found => handles.sessions own delivers.sessions found
  case sound =>
    intro load member
    cases carries : t'.load with
    | none =>
      rw [loads_cons_none carries] at member
      exact ((delivers.rest load member).extend extend).1
    | some mine =>
      rw [loads_cons_some carries] at member
      rcases Multiset.mem_cons.mp member with rfl | old
      · exact handles.sound own delivers.sessions load carries
      · exact ((delivers.rest load old).extend extend).1
  case reached =>
    have still (entry : Nat × Bytes) (member : entry ∈ s.sent) : (s'.replyTo entry.1).isSome := by
      obtain ⟨via, known⟩ := Option.isSome_iff_exists.mp (delivers.reached entry member)
      exact Option.isSome_iff_exists.mpr ⟨via, extend _ _ known⟩
    intro entry member
    cases handles with
    | goesOn _ sent | opens _ _ _ _ sent | passes _ _ _ _ _ sent =>
      exact still entry (sent ▸ member)
    | finds _ _ _ _ _ same => exact still entry (same ▸ member)
    | sends content arc before after vias sessions sent =>
      rcases sent with dropped | sent
      · exact still entry (dropped ▸ member)
      · rw [sent] at member
        rcases List.mem_append.mp member with old | new
        · exact still entry old
        · rw [List.mem_singleton.mp new]
          exact ((own _ before).extend extend).1
  case replied =>
    intro reply member
    rcases replies with same | ⟨arc, via, content, known, more⟩
    · rw [same] at member
      exact extend _ _ (delivers.replied reply member)
    · rw [more] at member
      rcases List.mem_append.mp member with old | new
      · exact extend _ _ (delivers.replied reply old)
      · rw [List.mem_singleton.mp new]
        exact extend _ _ known
  case counted =>
    -- sessions lead where they did, so what the other tasks carry is still for the same senders
    have others_same : (loads others).map s'.parcel = (loads others).map s.parcel := by
      apply Multiset.map_congr rfl
      intro load member
      exact ((delivers.rest load member).extend extend).2
    have before := delivers.counted
    rw [total_cons] at before ⊢
    rw [others_same]
    exact (add_le_add_left (handles.shares own delivers.reached) _).trans before

/-! ### Runs -/

/-- The datagram that a task starts with, and its sender. -/
def Task.brings : Task → Option (SocketAddr × Bytes)
  | .arrived packet => some (packet.via, packet.content)
  | _ => none

/-- Its sender is its client. -/
def Task.Direct : Task → Prop
  | .arrived packet => packet.clientAddr = packet.via
  | _ => True

instance (t : Task) : Decidable t.Direct := by
  unfold Task.Direct
  split <;> infer_instance

/-- The datagrams that come in at relay `r`, each with its sender. -/
def PathEvent.brings (r : Nat) : PathEvent → Option (SocketAddr × Bytes)
  | .relay r' (.spawn task) => if r' = r then task.brings else none
  | _ => none

def PathEvent.Direct (r : Nat) : PathEvent → Prop
  | .relay r' (.spawn task) => r' = r → task.Direct
  | _ => True

instance (r : Nat) (event : PathEvent) : Decidable (event.Direct r) := by
  unfold PathEvent.Direct
  split <;> infer_instance

def received (r : Nat) (events : List PathEvent) : List (SocketAddr × Bytes) :=
  events.filterMap (PathEvent.brings r)

theorem Delivers.spawn (delivers : Delivers offered s tasks) (fresh : t.fresh) (direct : t.Direct) :
    Delivers (offered + (t.brings.toList : Multiset _)) s (t ::ₘ tasks) := by
  have counted := delivers.counted
  cases t with
  | arrived packet =>
    have carries : Task.load (.arrived packet) = some (.named packet none) := rfl
    refine { delivers with sound := fun load member => ?_, counted := ?_ }
    · rw [loads_cons_some carries] at member
      rcases Multiset.mem_cons.mp member with rfl | old
      · exact ⟨direct, by rintro _ ⟨⟩⟩
      · exact delivers.sound load old
    · rw [total_cons, share_some s carries, add_right_comm, Multiset.map_add]
      exact add_le_add_left counted _
  | headerless | evict | disconnect | received | recvFailed =>
    refine { delivers with sound := ?_, counted := ?_ }
    · rw [loads_cons_none rfl]
      exact delivers.sound
    · rw [loads_cons_none rfl]
      simpa [Task.brings] using counted
  | _ => cases fresh

/-- What one event of the relay does. -/
theorem Delivers.step {throttle : UdpThrottleConfig} {pool next : Pool Relay Task}
    {event : Threads.Event Task Choice} {r : Nat}
    (delivers : Delivers offered pool.shared pool.threads)
    (direct : (PathEvent.relay r event).Direct r)
    (stepped : Threads.step Task.fresh (Task.advance throttle) pool event = some next) :
    Delivers (offered + (((PathEvent.relay r event).brings r).toList : Multiset _)) next.shared
        next.threads ∧
      Extends pool.shared next.shared := by
  cases event with
  | spawn task =>
    obtain ⟨fresh, rfl⟩ := step_spawn_eq_some.mp stepped
    have more : ((pool.threads ++ [task] : List Task) : Multiset Task) = task ::ₘ pool.threads :=
      Multiset.coe_eq_coe.mpr (List.perm_append_singleton task pool.threads)
    have brings : (PathEvent.relay r (.spawn task)).brings r = task.brings := if_pos rfl
    refine ⟨?_, fun _ _ => id⟩
    dsimp only
    rw [more, brings]
    exact delivers.spawn fresh (direct rfl)
  | move i choice =>
    obtain ⟨task, shared', task', at_i, moved, rfl⟩ := step_move_eq_some.mp stepped
    obtain ⟨others, before, after⟩ := @coe_set _ _ _ _ task' at_i
    rw [before] at delivers
    have handles := Task.handles_of_advance delivers.direct moved
    refine ⟨?_, handles.extends delivers.own⟩
    have nothing : (PathEvent.relay r (.move i choice)).brings r = none := rfl
    dsimp only
    rw [after, nothing, Option.toList_none, Multiset.coe_nil, add_zero]
    exact delivers.move (Task.kind_of_advance moved) (Task.replies_of_advance moved) handles

/-- What a run of all relays does for one of them. -/
theorem Delivers.run {r : Nat} {events : List PathEvent} {paths last : Paths}
    {pool : Pool Relay Task} (at_r : paths.relays[r]? = some pool)
    (delivers : Delivers offered pool.shared pool.threads)
    (direct : ∀ event ∈ events, event.Direct r)
    (ran : Machine.run Paths.step paths events = some last) :
    ∃ pool', last.relays[r]? = some pool' ∧
      Delivers (offered + (received r events : Multiset _)) pool'.shared pool'.threads ∧
      Extends pool.shared pool'.shared := by
  induction events generalizing offered paths pool with
  | nil =>
    cases ran
    refine ⟨pool, at_r, ?_, fun _ _ => id⟩
    rwa [received, List.filterMap_nil, Multiset.coe_nil, add_zero]
  | cons event events ih =>
    obtain ⟨next, stepped, rest⟩ := Machine.run_cons_eq_some.mp ran
    obtain ⟨now, later⟩ := List.forall_mem_cons.mp direct
    have split : (received r (event :: events) : Multiset (SocketAddr × Bytes)) =
        ((event.brings r).toList : Multiset (SocketAddr × Bytes)) +
          (received r events : Multiset (SocketAddr × Bytes)) := by
      rw [received, List.filterMap_cons]
      cases event.brings r <;> rfl
    rw [split, ← add_assoc]
    -- another relay's step, or a new limit, leaves this one alone
    have aside (same : next.relays[r]? = some pool) (brings : event.brings r = none) :
        ∃ pool', last.relays[r]? = some pool' ∧
          Delivers (offered + ((event.brings r).toList : Multiset (SocketAddr × Bytes)) +
            (received r events : Multiset (SocketAddr × Bytes))) pool'.shared pool'.threads ∧
          Extends pool.shared pool'.shared := by
      rw [brings, Option.toList_none, Multiset.coe_nil, add_zero]
      exact ih same delivers later rest
    cases event with
    | store throttle =>
      cases stepped
      exact aside at_r rfl
    | relay r' event =>
      obtain ⟨pool', next', at_r', moved, rfl⟩ := Paths.step_relay_eq_some.mp stepped
      by_cases mine : r' = r
      · subst mine
        rw [at_r] at at_r'
        cases at_r'
        obtain ⟨delivers', extend⟩ := delivers.step now moved
        have here : (paths.relays.set r' next')[r']? = some next' :=
          List.getElem?_set_self (List.getElem?_eq_some_iff.mp at_r).1
        obtain ⟨last', at_last, delivered, extends'⟩ := ih here delivers' later rest
        exact ⟨last', at_last, delivered, fun arc via known => extends' _ _ (extend _ _ known)⟩
      · refine aside ?_ ?_
        · exact (List.getElem?_set_ne mine).trans at_r
        · cases event with
          | spawn task => exact if_neg mine
          | move i choice => rfl

private theorem delivers_start (kind : Kind) (direct : kind.direct) :
    Delivers 0 (Relay.new kind) 0 := by
  have fresh : (Relay.new kind).kind = kind ∧ (Relay.new kind).sessions = ∅ ∧
      (Relay.new kind).sent = [] ∧ (Relay.new kind).replies = [] := by
    cases kind <;> exact ⟨rfl, rfl, rfl, rfl⟩
  obtain ⟨same, sessions, sent, replies⟩ := fresh
  constructor
  case direct =>
    rw [same]
    exact direct
  case sessions =>
    intro addr arc found
    rw [sessions] at found
    cases found
  case sound => rintro _ ⟨⟩
  case reached =>
    rw [sent]
    rintro _ ⟨⟩
  case replied =>
    rw [replies]
    rintro _ ⟨⟩
  case counted =>
    rw [Relay.forwarded, sent]
    exact le_rfl

/-- In every run of any relays, in whatever order datagrams are handled, sessions are opened and
evicted and limits are changed: a relay that reads no headers has sent each datagram once at most,
and no others; the replies to it go to its sender, and have gone there; and they always will, since
a session's replies never go to another address. -/
theorem datagrams_delivered {throttle : UdpThrottleConfig} {kinds : List Kind}
    {before after : List PathEvent} {early late : Paths} {r : Nat} {kind : Kind}
    (started : Machine.run Paths.step (Paths.start throttle kinds) before = some early)
    (ran : Machine.run Paths.step early after = some late) (at_r : kinds[r]? = some kind)
    (direct : kind.direct) (senders : ∀ event ∈ before ++ after, event.Direct r) :
    ∃ first last, early.relays[r]? = some first ∧ late.relays[r]? = some last ∧
      last.shared.forwarded ≤ ((received r (before ++ after)).map answered : List _) ∧
      (∀ addr arc, last.shared.sessions.lookup addr = some arc →
        last.shared.replyTo arc = some addr) ∧
      (∀ reply ∈ last.shared.replies, last.shared.replyTo reply.1 = some reply.2.1) ∧
      Extends first.shared last.shared := by
  have fresh : (Paths.start throttle kinds).relays[r]? = some ⟨.new kind, []⟩ := by
    rw [Paths.start, List.getElem?_map, at_r]
    rfl
  obtain ⟨earlier, later⟩ := List.forall_mem_append.mp senders
  obtain ⟨first, at_first, delivers, -⟩ :=
    Delivers.run fresh (delivers_start kind direct) earlier started
  obtain ⟨last, at_last, delivered, extend⟩ := Delivers.run at_first delivers later ran
  refine ⟨first, last, at_first, at_last, ?_, delivered.sessions, delivered.replied, extend⟩
  have all := (Multiset.le_add_right _ _).trans delivered.counted
  rw [zero_add, Multiset.coe_add, Multiset.map_coe] at all
  rwa [received, List.filterMap_append]

/-- The player who was disconnected sends another datagram, and is answered. -/
def secondVoice : List PathEvent :=
  .relay 0 (.spawn (.arrived firstVoice)) :: PathEvent.moves 0 2 15 admitting ++
    .relay 0 (.spawn (.received 1 (literal "answer"))) :: PathEvent.moves 0 3 3 admitting

theorem datagrams_delivered_secondVoice :
    ∃ first last : Pool Relay Task,
      last.shared.sent = [(0, literal "voice"), (1, literal "voice")] ∧
      last.shared.replies = [(1, VoiceRelay.Flows.player, literal "answer")] ∧
      last.shared.forwarded ≤
        ((received 0 (lateDisconnect ++ secondVoice)).map answered : List _) ∧
      (∀ reply ∈ last.shared.replies, last.shared.replyTo reply.1 = some reply.2.1) ∧
      Extends first.shared last.shared := by
  have runs : ((Machine.run Paths.step (Paths.start {} [.voice false])
      (lateDisconnect ++ secondVoice)).bind (·.relays[0]?)).map
        (fun pool => (pool.shared.sent, pool.shared.replies)) =
        some ([(0, literal "voice"), (1, literal "voice")],
          [(1, VoiceRelay.Flows.player, literal "answer")]) := by decide +kernel
  obtain ⟨last, at_last, both⟩ := Option.map_eq_some_iff.mp runs
  obtain ⟨sent, replies⟩ := Prod.mk.inj both
  obtain ⟨late, ran, at_late⟩ := Option.bind_eq_some_iff.mp at_last
  obtain ⟨early, started, after⟩ := Machine.run_append_eq_some.mp ran
  have at_r : [Kind.voice false][0]? = some (.voice false) := rfl
  obtain ⟨first, last', -, same, forwarded, -, replied, extend⟩ :=
    datagrams_delivered started after at_r rfl (by decide)
  cases same.symm.trans at_late
  exact ⟨first, last, sent, replies, forwarded, replied, extend⟩

end MCGate.UdpRelay
