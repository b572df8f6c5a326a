import MCGate.Udp.Relay

/-!
# What a relay's tasks can do

Of a relay, the statements about readers, slots and limits look at the sessions map, a few
facts about each session, the counts per IP and the creation lock. A step of a task is one of
a few moves of that view, or none; the rest of the state only decides which. A task is seen
by what it holds: the lock, a session that it has yet to give its reader, a session that it
closes, a slot.
-/
namespace MCGate.UdpRelay

open Config Threads
open VoiceRelay (Index Packet Session Shared)

/-- The facts about a session. -/
structure Facts where
  clientIp : Text
  dead : Bool
  readerHandle : Bool
  reader : Reader
  aborted : Bool
  reserved : Bool
  deriving DecidableEq, Repr

/-- The end of `close_session`. -/
def Facts.taken (facts : Facts) : Facts :=
  if facts.readerHandle then
    { facts with
      readerHandle := false
      reader := if facts.reader = .running then .ended else facts.reader
      aborted := true }
  else facts

structure View where
  sessions : HashMap SocketAddr Nat
  facts : List Facts
  sessionsPerIp : HashMap Text Int32
  createLock : Bool

/-! ### The counts -/

namespace Counts

def setCount (counts : HashMap Text Int32) (ip : Text) (count : Int32) : HashMap Text Int32 :=
  if count ≤ 0 then counts.erase ip else counts.insert ip count

def acquire (counts : HashMap Text Int32) (max : Int32) (ip : Text) : HashMap Text Int32 × Bool :=
  if max ≤ 0 then (counts, true)
  else
    let count := (counts.lookup ip).getD 0 + 1
    if max < count then (setCount counts ip (count - 1), false) else (counts.insert ip count, true)

def release (counts : HashMap Text Int32) (ip : Text) : HashMap Text Int32 :=
  match counts.lookup ip with
  | none => counts
  | some count => setCount counts ip (count - 1)

theorem acquireIpSlot_eq (self : Shared) (max : Int32) (ip : Text) :
    self.acquireIpSlot max ip =
      ({ self with sessionsPerIp := (acquire self.sessionsPerIp max ip).1 },
        (acquire self.sessionsPerIp max ip).2) := by
  unfold Shared.acquireIpSlot acquire Shared.setCount setCount
  split
  · rfl
  · dsimp only
    split
    · split <;> rfl
    · rfl

theorem releaseIpSlot_eq (self : Shared) (ip : Text) :
    self.releaseIpSlot ip =
      { self with sessionsPerIp := release self.sessionsPerIp ip } := by
  unfold Shared.releaseIpSlot release Shared.setCount setCount
  cases self.sessionsPerIp.lookup ip with
  | none => rfl
  | some count =>
    dsimp only
    split <;> rfl

end Counts

/-! ### The view of a relay -/

namespace View

def modify (v : View) (arc : Nat) (f : Facts → Facts) : View :=
  { v with facts := v.facts.modify arc f }

/-- The slot that a session was admitted with. -/
def slotOf (v : View) (arc : Nat) : Option Text :=
  v.facts[arc]?.bind fun facts => if facts.reserved then some facts.clientIp else none

end View

namespace Relay

def factsOf (session : Session) (life : Life) : Facts :=
  ⟨session.clientIp, session.dead, life.readerHandle, life.reader, life.aborted, life.reserved⟩

def view (s : Relay) : View :=
  ⟨s.sessions, List.zipWith factsOf s.opened s.lives, s.sessionsPerIp, s.createLock⟩

/-- Every session has its life. -/
def Parallel (s : Relay) : Prop := s.lives.length = s.opened.length

private theorem zipWith_modify_left {α β γ : Type} {g : α → β → γ} {f : α → α} {f' : γ → γ}
    (commutes : ∀ a b, g (f a) b = f' (g a b)) (xs : List α) (ys : List β) (i : Nat) :
    List.zipWith g (xs.modify i f) ys = (List.zipWith g xs ys).modify i f' := by
  apply List.ext_getElem?
  intro j
  simp only [List.getElem?_zipWith, List.getElem?_modify]
  cases xs[j]? <;> cases ys[j]? <;> by_cases same : i = j <;> simp [same, commutes]

private theorem zipWith_modify_right {α β γ : Type} {g : α → β → γ} {f : β → β} {f' : γ → γ}
    (commutes : ∀ a b, g a (f b) = f' (g a b)) (xs : List α) (ys : List β) (i : Nat) :
    List.zipWith g xs (ys.modify i f) = (List.zipWith g xs ys).modify i f' := by
  apply List.ext_getElem?
  intro j
  simp only [List.getElem?_zipWith, List.getElem?_modify]
  cases xs[j]? <;> cases ys[j]? <;> by_cases same : i = j <;> simp [same, commutes]

private theorem set_eq_modify {α : Type} {xs : List α} {i : Nat} {x : α} (at_i : xs[i]? = some x)
    (f : α → α) : xs.set i (f x) = xs.modify i f := by
  apply List.ext_getElem?
  intro j
  rw [List.getElem?_set, List.getElem?_modify]
  by_cases same : i = j
  · subst same
    obtain ⟨inRange, rfl⟩ := List.getElem?_eq_some_iff.mp at_i
    simp [inRange]
  · simp [same]

/-- A change to a life shows as one to the facts. -/
theorem view_modifyLife (s : Relay) (arc : Nat) {f : Life → Life} {f' : Facts → Facts}
    (commutes : ∀ session life, factsOf session (f life) = f' (factsOf session life)) :
    (s.modifyLife arc f).view = s.view.modify arc f' := by
  simp only [view, modifyLife, View.modify, zipWith_modify_right commutes]

/-- And does not show if it is to something else. -/
theorem view_modifyLife_of_eq (s : Relay) (arc : Nat) {f : Life → Life}
    (unseen : ∀ session life, factsOf session (f life) = factsOf session life) :
    (s.modifyLife arc f).view = s.view := by
  rw [@view_modifyLife s arc f id unseen, View.modify, List.modify_id]

/-- An index with the same sessions, as far as they are seen. -/
theorem view_withIndex_of_eq (s : Relay) {index : Index} (sessions : index.sessions = s.sessions)
    (opened : index.opened.map (fun session => (session.clientIp, session.dead)) =
      s.opened.map (fun session => (session.clientIp, session.dead))) :
    (s.withIndex index).view = s.view := by
  have split (opened : List Session) : List.zipWith factsOf opened s.lives =
      List.zipWith (fun seen life => (⟨seen.1, seen.2, life.readerHandle, life.reader,
          life.aborted, life.reserved⟩ : Facts))
        (opened.map fun session => (session.clientIp, session.dead)) s.lives := by
    rw [List.zipWith_map_left]
    rfl
  simp only [view, withIndex, sessions, split index.opened, split s.opened, opened]

private theorem view_repointVia (s : Relay) (arc : Nat) (via : SocketAddr) :
    (s.withIndex (s.repointVia arc via)).view = s.view := by
  apply view_withIndex_of_eq
  · exact (Index.repointVia_frame s.toIndex arc via).1
  · unfold Index.repointVia
    split
    · rfl
    next session at_arc =>
      dsimp only
      split
      · exact Threads.map_set_of_eq at_arc rfl
      · split
        · rfl
        · exact Threads.map_set_of_eq at_arc rfl

private theorem view_insertVia (s : Relay) (via : SocketAddr) (arc : Nat) :
    (s.withIndex (s.insertVia via arc)).view = s.view := by
  obtain ⟨sessions, -, opened⟩ := Index.insertVia_frame s.toIndex via arc
  exact view_withIndex_of_eq s sessions (by rw [opened])

private theorem view_unindex (s : Relay) (arc : Nat) :
    (s.withIndex (s.unindex arc)).view = s.view :=
  view_withIndex_of_eq s rfl rfl

theorem view_forward (s : Relay) (arc : Nat) (content : Bytes) :
    ({ s with toShared := s.forward arc content } : Relay).view = s.view := by
  unfold Shared.forward
  split <;> rfl

private theorem view_markDead (s : Relay) (arc : Nat) :
    (s.withIndex (s.markDead arc)).view =
      s.view.modify arc fun facts => { facts with dead := true } := by
  have opened : (s.markDead arc).opened =
      s.opened.modify arc fun session => { session with dead := true } := by
    unfold Index.markDead
    split
    next absent => rw [List.modify_eq_self (List.getElem?_eq_none_iff.mp absent)]
    next session at_arc =>
      exact set_eq_modify at_arc fun session : Session => { session with dead := true }
  have sessions : (s.markDead arc).sessions = s.sessions := by
    unfold Index.markDead
    split <;> rfl
  have facts : List.zipWith factsOf (s.markDead arc).opened s.lives =
      (List.zipWith factsOf s.opened s.lives).modify arc fun facts =>
        { facts with dead := true } := by
    rw [opened]
    apply zipWith_modify_left
    intro session life
    rfl
  simp only [view, withIndex, facts, sessions, View.modify]

private theorem view_takeHandle (s : Relay) (arc : Nat) :
    (s.takeHandle arc).view = s.view.modify arc Facts.taken := by
  apply view_modifyLife
  intro session life
  unfold Facts.taken factsOf
  dsimp only
  split <;> rfl

private theorem length_facts (s : Relay) (parallel : s.Parallel) :
    s.view.facts.length = s.opened.length := by
  rw [view, List.length_zipWith, parallel, Nat.min_self]

theorem getElem?_facts (s : Relay) (arc : Nat) :
    s.view.facts[arc]? =
      s.opened[arc]?.bind fun session => s.lives[arc]?.map (factsOf session) := by
  rw [view, List.getElem?_zipWith]
  cases s.opened[arc]? <;> cases s.lives[arc]? <;> rfl

theorem view_slotOf (s : Relay) (arc : Nat) : s.view.slotOf arc = s.slotOf arc := by
  rw [View.slotOf, getElem?_facts, slotOf]
  cases s.opened[arc]? <;> cases s.lives[arc]? <;> rfl

private theorem view_insert (s : Relay) (parallel : s.Parallel) (packet : Packet)
    (route : VoiceRouting.Entry) (now : Instant) (reserved : Bool) :
    (s.insert packet route now reserved).view =
      { s.view with
        sessions := s.view.sessions.insert packet.clientAddr s.view.facts.length
        facts := s.view.facts ++
          [⟨packet.clientIp, false, false, .unspawned, false, reserved⟩] } := by
  rw [length_facts s parallel]
  simp only [view, insert, withIndex, Index.insertSession]
  rw [List.zipWith_append parallel.symm]
  rfl

end Relay

/-! ### What a task holds -/

namespace Task

/-- The task holds `create_lock`. -/
def holdsLock : Task → Bool
  | .locked _ | .unrouted _ | .routed _ _ | .capRead _ _ _ | .belowCap _ _ | .perIpRead _ _ _
  | .slotAcquired _ _ _ | .socketOpened _ _ _ | .socketFailed _ _ | .inserted _ _ | .indexed _ _
  | .refused | .foundLocked _ _ | .touchedLocked _ _ => true
  | _ => false

/-- The session whose reader's handle the task has yet to store. -/
def owes : Task → Option Nat
  | .inserted _ arc | .indexed _ arc | .unlocked _ arc | .spawned _ arc => some arc
  | _ => none

/-- The session that the task has removed and not closed yet. -/
def closes : Task → Option Nat
  | .removed arc _ _ | .unindexed arc _ _ | .killed arc _ _ | .released arc _ => some arc
  | _ => none

/-- The slot that the task has to pass on or to give back. -/
def slot : Task → Option Text
  | .slotAcquired packet _ reserved | .socketOpened packet _ reserved
  | .socketFailed packet reserved => if reserved then some packet.clientIp else none
  | .removed _ _ slot | .unindexed _ _ slot | .killed _ _ slot => slot
  | _ => none

/-- Two tasks hold the same, but for the lock. -/
structure SameBut (t t' : Task) : Prop where
  owes : t'.owes = t.owes
  closes : t'.closes = t.closes
  slot : t'.slot = t.slot

theorem holds_nothing_of_atRest {task : Task} (rest : task.atRest) :
    task.owes = none ∧ task.closes = none ∧ task.slot = none := by
  cases task <;> first | exact ⟨rfl, rfl, rfl⟩ | cases rest

end Task

/-- No operation is in progress. -/
def AtRest (pool : Pool Relay Task) : Prop := ∀ task ∈ pool.threads, task.atRest

instance (pool : Pool Relay Task) : Decidable (AtRest pool) :=
  inferInstanceAs (Decidable (∀ task ∈ pool.threads, task.atRest))

namespace View

/-- What a step of a task does to what is seen of the relay. -/
inductive Moves : View → Task → View → Task → Prop
  | quiet {v : View} {t t' : Task} : t'.holdsLock = t.holdsLock →
      Task.SameBut t t' → Moves v t v t'
  | lock {v : View} {packet : Packet} : v.createLock = false →
      Moves v (.waiting packet) { v with createLock := true } (.locked packet)
  | unlock {v : View} {t t' : Task} : t.holdsLock → t'.holdsLock = false →
      Task.SameBut t t' →
      Moves v t { v with createLock := false } t'
  | acquire {v : View} {packet : Packet} {route : VoiceRouting.Entry} {cap : Int32} :
      Moves v (.perIpRead packet route cap)
        { v with sessionsPerIp := (Counts.acquire v.sessionsPerIp cap packet.clientIp).1 }
        (if (Counts.acquire v.sessionsPerIp cap packet.clientIp).2 then
          .slotAcquired packet route (decide (0 < cap)) else .refused)
  | fail {v : View} {packet : Packet} {reserved : Bool} :
      Moves v (.socketFailed packet reserved)
        { v with sessionsPerIp := Counts.release v.sessionsPerIp packet.clientIp } .refused
  | insert {v : View} {packet : Packet} {route : VoiceRouting.Entry} {reserved : Bool} :
      Moves v (.socketOpened packet route reserved)
        { v with
          sessions := v.sessions.insert packet.clientAddr v.facts.length
          facts := v.facts ++ [⟨packet.clientIp, false, false, .unspawned, false, reserved⟩] }
        (.inserted packet v.facts.length)
  | spawn {v : View} {packet : Packet} {arc : Nat} :
      Moves v (.unlocked packet arc)
        (v.modify arc fun facts => { facts with reader := .running }) (.spawned packet arc)
  | store {v : View} {packet : Packet} {arc : Nat} :
      Moves v (.spawned packet arc)
        (v.modify arc fun facts => { facts with readerHandle := true })
        (.forwarding packet.content arc)
  | remove {v : View} {addr : SocketAddr} {rest : List SocketAddr} {arc : Nat} {t' : Task} :
      v.sessions.lookup addr = some arc →
      t' = .unindexed arc rest (v.slotOf arc) ∨ t' = .removed arc rest (v.slotOf arc) →
      Moves v (.closing (addr :: rest)) { v with sessions := v.sessions.erase addr } t'
  | kill {v : View} {arc : Nat} {rest : List SocketAddr} {slot : Option Text} :
      Moves v (.unindexed arc rest slot) (v.modify arc fun facts => { facts with dead := true })
        (.killed arc rest slot)
  | release {v : View} {arc : Nat} {rest : List SocketAddr} {slot : Option Text}
      {facts : Facts} : v.facts[arc]? = some facts →
      Moves v (.killed arc rest slot)
        { v with sessionsPerIp := Counts.release v.sessionsPerIp facts.clientIp }
        (.released arc rest)
  | take {v : View} {arc : Nat} {rest : List SocketAddr} :
      Moves v (.released arc rest) (v.modify arc Facts.taken) (.closing rest)
  | readerEnds {v : View} {t : Task} {arc : Nat} :
      (∃ content, t = .received arc content) ∨ t = .recvFailed arc →
      Moves v t (v.modify arc fun facts => { facts with reader := .ended }) .done

end View

namespace Task

open UdpRelay.Relay

variable {throttle : UdpThrottleConfig} {s s' : Relay} {task task' : Task} {choice : Choice}

private theorem view_touch (s : Relay) (arc : Nat) (now : Instant) :
    (s.touch arc now).view = s.view :=
  view_modifyLife_of_eq s arc fun _ _ => rfl

/-- A step that is not seen. -/
theorem moves_quiet {t t' : Task} (seen : s'.view = s.view) (lock : t'.holdsLock = t.holdsLock)
    (same : SameBut t t') : View.Moves s.view t s'.view t' := by
  rw [seen]
  exact .quiet lock same

/-! ### The way to a session -/

private theorem moves_arrived {packet : Packet}
    (moved : advance throttle s (.arrived packet) choice = some (s', task')) :
    View.Moves s.view (.arrived packet) s'.view task' := by
  unfold advance at moved
  dsimp only at moved
  split at moved <;> cases moved <;> exact moves_quiet rfl rfl ⟨rfl, rfl, rfl⟩

private theorem moves_waiting {packet : Packet}
    (moved : advance throttle s (.waiting packet) choice = some (s', task')) :
    View.Moves s.view (.waiting packet) s'.view task' := by
  unfold advance at moved
  dsimp only at moved
  split at moved
  · cases moved
  next free =>
    cases moved
    exact .lock (Bool.eq_false_iff.mpr free)

private theorem moves_locked {packet : Packet}
    (moved : advance throttle s (.locked packet) choice = some (s', task')) :
    View.Moves s.view (.locked packet) s'.view task' := by
  unfold advance at moved
  dsimp only at moved
  split at moved
  · cases moved
    exact moves_quiet rfl rfl ⟨rfl, rfl, rfl⟩
  · -- only the voice relay has a route to look up
    split at moved <;> cases moved <;> exact moves_quiet rfl rfl ⟨rfl, rfl, rfl⟩

private theorem moves_unrouted {packet : Packet}
    (moved : advance throttle s (.unrouted packet) choice = some (s', task')) :
    View.Moves s.view (.unrouted packet) s'.view task' := by
  unfold advance at moved
  dsimp only at moved
  split at moved <;> cases moved <;> exact moves_quiet rfl rfl ⟨rfl, rfl, rfl⟩

private theorem moves_capRead {packet : Packet} {route : VoiceRouting.Entry} {globalCap : Int32}
    (moved : advance throttle s (.capRead packet route globalCap) choice = some (s', task')) :
    View.Moves s.view (.capRead packet route globalCap) s'.view task' := by
  cases moved
  split <;> exact moves_quiet rfl rfl ⟨rfl, rfl, rfl⟩

private theorem moves_perIpRead {packet : Packet} {route : VoiceRouting.Entry} {perIpCap : Int32}
    (moved : advance throttle s (.perIpRead packet route perIpCap) choice = some (s', task')) :
    View.Moves s.view (.perIpRead packet route perIpCap) s'.view task' := by
  unfold advance at moved
  simp only [Counts.acquireIpSlot_eq, Option.some.injEq, Prod.mk.injEq] at moved
  obtain ⟨rfl, rfl⟩ := moved
  exact .acquire

private theorem moves_slotAcquired {packet : Packet} {route : VoiceRouting.Entry} {reserved : Bool}
    (moved : advance throttle s (.slotAcquired packet route reserved) choice = some (s', task')) :
    View.Moves s.view (.slotAcquired packet route reserved) s'.view task' := by
  cases moved
  split <;> exact moves_quiet rfl rfl ⟨rfl, rfl, rfl⟩

private theorem moves_socketFailed {packet : Packet} {reserved : Bool}
    (moved : advance throttle s (.socketFailed packet reserved) choice = some (s', task')) :
    View.Moves s.view (.socketFailed packet reserved) s'.view task' := by
  unfold advance at moved
  simp only [Counts.releaseIpSlot_eq, Option.some.injEq, Prod.mk.injEq] at moved
  obtain ⟨rfl, rfl⟩ := moved
  exact .fail

private theorem moves_socketOpened (parallel : s.Parallel) {packet : Packet}
    {route : VoiceRouting.Entry} {reserved : Bool}
    (moved : advance throttle s (.socketOpened packet route reserved) choice = some (s', task')) :
    View.Moves s.view (.socketOpened packet route reserved) s'.view task' := by
  cases moved
  rw [view_insert s parallel, ← length_facts s parallel]
  exact .insert

private theorem moves_inserted {packet : Packet} {arc : Nat}
    (moved : advance throttle s (.inserted packet arc) choice = some (s', task')) :
    View.Moves s.view (.inserted packet arc) s'.view task' := by
  cases moved
  exact moves_quiet (view_insertVia s _ _) rfl ⟨rfl, rfl, rfl⟩

private theorem moves_unlocked {packet : Packet} {arc : Nat}
    (moved : advance throttle s (.unlocked packet arc) choice = some (s', task')) :
    View.Moves s.view (.unlocked packet arc) s'.view task' := by
  cases moved
  have seen : (s.modifyLife arc fun life => { life with reader := .running }).view =
      s.view.modify arc fun facts => { facts with reader := .running } :=
    view_modifyLife s arc fun _ _ => rfl
  rw [seen]
  exact .spawn

private theorem moves_spawned {packet : Packet} {arc : Nat}
    (moved : advance throttle s (.spawned packet arc) choice = some (s', task')) :
    View.Moves s.view (.spawned packet arc) s'.view task' := by
  cases moved
  have seen : (s.modifyLife arc fun life => { life with readerHandle := true }).view =
      s.view.modify arc fun facts => { facts with readerHandle := true } :=
    view_modifyLife s arc fun _ _ => rfl
  rw [seen]
  exact .store

/-! ### Forwarding -/

private theorem moves_foundLocked {packet : Packet} {arc : Nat}
    (moved : advance throttle s (.foundLocked packet arc) choice = some (s', task')) :
    View.Moves s.view (.foundLocked packet arc) s'.view task' := by
  unfold advance at moved
  dsimp only at moved
  -- the proxy sets `last_active` before it unlocks, the voice relay unlocks first
  split at moved
  · cases moved
    exact moves_quiet (view_touch s _ _) rfl ⟨rfl, rfl, rfl⟩
  · cases moved
    exact .unlock rfl rfl ⟨rfl, rfl, rfl⟩

private theorem moves_found {packet : Packet} {arc : Nat}
    (moved : advance throttle s (.found packet arc) choice = some (s', task')) :
    View.Moves s.view (.found packet arc) s'.view task' := by
  cases moved
  split <;> exact moves_quiet (view_touch s _ _) rfl ⟨rfl, rfl, rfl⟩

private theorem moves_touched {packet : Packet} {arc : Nat}
    (moved : advance throttle s (.touched packet arc) choice = some (s', task')) :
    View.Moves s.view (.touched packet arc) s'.view task' := by
  cases moved
  exact moves_quiet (view_repointVia s _ _) rfl ⟨rfl, rfl, rfl⟩

private theorem moves_forwarding {content : Bytes} {arc : Nat}
    (moved : advance throttle s (.forwarding content arc) choice = some (s', task')) :
    View.Moves s.view (.forwarding content arc) s'.view task' := by
  cases moved
  exact moves_quiet (view_forward s _ _) rfl ⟨rfl, rfl, rfl⟩

private theorem moves_headerless {via : SocketAddr} {content : Bytes}
    (moved : advance throttle s (.headerless via content) choice = some (s', task')) :
    View.Moves s.view (.headerless via content) s'.view task' := by
  unfold advance at moved
  dsimp only at moved
  split at moved
  · split at moved <;> cases moved <;> exact moves_quiet rfl rfl ⟨rfl, rfl, rfl⟩
  · cases moved
    exact moves_quiet rfl rfl ⟨rfl, rfl, rfl⟩
  · cases moved

private theorem moves_known {content : Bytes} {arc : Nat}
    (moved : advance throttle s (.known content arc) choice = some (s', task')) :
    View.Moves s.view (.known content arc) s'.view task' := by
  cases moved
  exact moves_quiet (view_touch s _ _) rfl ⟨rfl, rfl, rfl⟩

/-! ### Closing -/

private theorem moves_disconnect {clientIp : Text}
    (moved : advance throttle s (.disconnect clientIp) choice = some (s', task')) :
    View.Moves s.view (.disconnect clientIp) s'.view task' := by
  unfold advance at moved
  dsimp only at moved
  split at moved <;> cases moved
  exact moves_quiet rfl rfl ⟨rfl, rfl, rfl⟩

private theorem moves_closing {addrs : List SocketAddr}
    (moved : advance throttle s (.closing addrs) choice = some (s', task')) :
    View.Moves s.view (.closing addrs) s'.view task' := by
  -- the addresses were listed before, so a session may be gone by now
  cases addrs with
  | nil =>
    cases moved
    exact moves_quiet rfl rfl ⟨rfl, rfl, rfl⟩
  | cons addr rest =>
    unfold advance at moved
    dsimp only at moved
    split at moved
    · cases moved
      exact moves_quiet rfl rfl ⟨rfl, rfl, rfl⟩
    next arc found =>
      simp only [Option.some.injEq, Prod.mk.injEq] at moved
      obtain ⟨rfl, rfl⟩ := moved
      refine View.Moves.remove found ?_
      -- only the voice relay has `by_via` to clean before it marks the session
      rw [view_slotOf]
      split
      · exact .inl rfl
      · exact .inr rfl

private theorem moves_removed {arc : Nat} {rest : List SocketAddr} {slot : Option Text}
    (moved : advance throttle s (.removed arc rest slot) choice = some (s', task')) :
    View.Moves s.view (.removed arc rest slot) s'.view task' := by
  cases moved
  exact moves_quiet (view_unindex s _) rfl ⟨rfl, rfl, rfl⟩

private theorem moves_unindexed {arc : Nat} {rest : List SocketAddr} {slot : Option Text}
    (moved : advance throttle s (.unindexed arc rest slot) choice = some (s', task')) :
    View.Moves s.view (.unindexed arc rest slot) s'.view task' := by
  cases moved
  rw [view_markDead]
  exact .kill

private theorem moves_killed (parallel : s.Parallel) {arc : Nat} {rest : List SocketAddr}
    {slot : Option Text}
    (moved : advance throttle s (.killed arc rest slot) choice = some (s', task')) :
    View.Moves s.view (.killed arc rest slot) s'.view task' := by
  unfold advance at moved
  dsimp only at moved
  split at moved
  · cases moved
  next session at_arc =>
    simp only [Counts.releaseIpSlot_eq, Option.some.injEq, Prod.mk.injEq] at moved
    obtain ⟨rfl, rfl⟩ := moved
    -- the two lists are parallel, so a session that was opened has a life
    obtain ⟨life, lives⟩ : ∃ life, s.lives[arc]? = some life :=
      ⟨_, List.getElem?_eq_getElem (parallel ▸ (List.getElem?_eq_some_iff.mp at_arc).1)⟩
    have facts : s.view.facts[arc]? = some (factsOf session life) := by
      rw [getElem?_facts, at_arc, lives]
      rfl
    exact .release facts

private theorem moves_released {arc : Nat} {rest : List SocketAddr}
    (moved : advance throttle s (.released arc rest) choice = some (s', task')) :
    View.Moves s.view (.released arc rest) s'.view task' := by
  cases moved
  rw [view_takeHandle]
  exact .take

/-! ### The reader -/

private theorem view_reader_ended (s : Relay) (arc : Nat) :
    (s.modifyLife arc fun life => { life with reader := .ended }).view =
      s.view.modify arc fun facts => { facts with reader := .ended } :=
  view_modifyLife s arc fun _ _ => rfl

private theorem moves_received {arc : Nat} {content : Bytes}
    (moved : advance throttle s (.received arc content) choice = some (s', task')) :
    View.Moves s.view (.received arc content) s'.view task' := by
  unfold advance at moved
  dsimp only at moved
  split at moved
  · split at moved
    · cases moved
    · split at moved
      · cases moved
        -- a reader that finds its session dead returns without a reply
        rw [view_reader_ended]
        exact .readerEnds (.inl ⟨content, rfl⟩)
      · cases moved
        exact moves_quiet rfl rfl ⟨rfl, rfl, rfl⟩
  · cases moved

private theorem moves_replying {arc : Nat} {content : Bytes}
    (moved : advance throttle s (.replying arc content) choice = some (s', task')) :
    View.Moves s.view (.replying arc content) s'.view task' := by
  cases moved
  exact moves_quiet (view_modifyLife_of_eq s arc fun _ _ => rfl) rfl ⟨rfl, rfl, rfl⟩

private theorem view_reply (s : Relay) (arc : Nat) (content : Bytes) :
    (s.reply arc content).view = s.view := by
  unfold reply
  split <;> rfl

private theorem moves_replied {arc : Nat} {content : Bytes}
    (moved : advance throttle s (.replied arc content) choice = some (s', task')) :
    View.Moves s.view (.replied arc content) s'.view task' := by
  cases moved
  exact moves_quiet (view_reply s arc content) rfl ⟨rfl, rfl, rfl⟩

private theorem moves_recvFailed {arc : Nat}
    (moved : advance throttle s (.recvFailed arc) choice = some (s', task')) :
    View.Moves s.view (.recvFailed arc) s'.view task' := by
  unfold advance at moved
  dsimp only at moved
  split at moved
  · cases moved
  · split at moved
    · cases moved
    · split at moved
      · cases moved
        rw [view_reader_ended]
        exact .readerEnds (.inr rfl)
      · cases moved
        exact moves_quiet rfl rfl ⟨rfl, rfl, rfl⟩

/-- A step of a task is a move of what is seen. -/
theorem moves_of_advance (parallel : s.Parallel)
    (moved : advance throttle s task choice = some (s', task')) :
    View.Moves s.view task s'.view task' := by
  cases task with
  | arrived packet => exact moves_arrived moved
  | waiting packet => exact moves_waiting moved
  | locked packet => exact moves_locked moved
  | unrouted packet => exact moves_unrouted moved
  | capRead packet route globalCap => exact moves_capRead moved
  | perIpRead packet route perIpCap => exact moves_perIpRead moved
  | slotAcquired packet route reserved => exact moves_slotAcquired moved
  | socketFailed packet reserved => exact moves_socketFailed moved
  | socketOpened packet route reserved => exact moves_socketOpened parallel moved
  | inserted packet arc => exact moves_inserted moved
  | unlocked packet arc => exact moves_unlocked moved
  | spawned packet arc => exact moves_spawned moved
  | foundLocked packet arc => exact moves_foundLocked moved
  | found packet arc => exact moves_found moved
  | touched packet arc => exact moves_touched moved
  | forwarding content arc => exact moves_forwarding moved
  | headerless via content => exact moves_headerless moved
  | known content arc => exact moves_known moved
  | disconnect clientIp => exact moves_disconnect moved
  | closing addrs => exact moves_closing moved
  | removed arc rest slot => exact moves_removed moved
  | unindexed arc rest slot => exact moves_unindexed moved
  | killed arc rest slot => exact moves_killed parallel moved
  | released arc rest => exact moves_released moved
  | received arc content => exact moves_received moved
  | replying arc content => exact moves_replying moved
  | replied arc content => exact moves_replied moved
  | recvFailed arc => exact moves_recvFailed moved
  | routed | belowCap | evict =>
    cases moved
    exact moves_quiet rfl rfl ⟨rfl, rfl, rfl⟩
  | indexed | refused | touchedLocked =>
    cases moved
    exact .unlock rfl rfl ⟨rfl, rfl, rfl⟩
  | done => cases moved

theorem parallel_of_advance (parallel : s.Parallel)
    (moved : advance throttle s task choice = some (s', task')) : s'.Parallel := by
  have index {index : Index} (same : index.opened.length = s.opened.length) :
      (s.withIndex index).Parallel := parallel.trans same.symm
  have life (arc : Nat) (f : Life → Life) : (s.modifyLife arc f).Parallel :=
    (List.length_modify ..).trans parallel
  -- only a new session makes the lists longer, and then both of them
  cases task with
  | socketOpened packet route reserved =>
    simp only [advance, Option.some.injEq, Prod.mk.injEq] at moved
    obtain ⟨rfl, -⟩ := moved
    simp only [Parallel, Relay.insert, withIndex, Index.insertSession, List.length_append,
      List.length_cons, List.length_nil]
    rw [parallel]
  | inserted packet arc =>
    simp only [advance, Option.some.injEq, Prod.mk.injEq] at moved
    obtain ⟨rfl, -⟩ := moved
    exact index (congrArg _ (Index.insertVia_frame _ _ _).2.2)
  | touched packet arc =>
    simp only [advance, Option.some.injEq, Prod.mk.injEq] at moved
    obtain ⟨rfl, -⟩ := moved
    exact index (Index.repointVia_frame _ _ _).2.2
  | unindexed arc rest slot =>
    simp only [advance, Option.some.injEq, Prod.mk.injEq] at moved
    obtain ⟨rfl, -⟩ := moved
    exact index (Index.markDead_frame _ _).2.2.2
  | forwarding content arc =>
    simp only [advance, Shared.forward, Option.some.injEq, Prod.mk.injEq] at moved
    obtain ⟨rfl, -⟩ := moved
    simp only [Parallel]
    split <;> exact parallel
  | replied arc content =>
    simp only [advance, reply, Option.some.injEq, Prod.mk.injEq] at moved
    obtain ⟨rfl, -⟩ := moved
    simp only [Parallel]
    split <;> exact parallel
  | closing rest =>
    cases rest <;> simp only [advance] at moved <;> grind [Index.removeSession]
  | _ =>
    simp only [advance, Counts.acquireIpSlot_eq, Counts.releaseIpSlot_eq] at moved
    grind [Parallel, Relay.touch, Relay.takeHandle, Index.unindex]

/-! ### The creation lock -/

/-- The address that the task has found without a session, under the lock. -/
def vacant : Task → Option SocketAddr
  | .unrouted packet | .routed packet _ | .capRead packet _ _ | .belowCap packet _
  | .perIpRead packet _ _ | .slotAcquired packet _ _ | .socketOpened packet _ _ =>
    some packet.clientAddr
  | _ => none

theorem holdsLock_of_vacant {addr : SocketAddr} (vacant : task.vacant = some addr) :
    task.holdsLock := by
  cases task <;> first | rfl | cases vacant

theorem not_holdsLock_of_fresh (ready : task.fresh) : task.holdsLock = false := by
  cases task <;> first | rfl | cases ready

private theorem vacant_of_advance {addr : SocketAddr}
    (moved : advance throttle s task choice = some (s', task'))
    (vacant : task'.vacant = some addr) :
    task.vacant = some addr ∨ s.sessions.lookup addr = none := by
  cases task with
  | closing rest => cases rest <;> simp only [advance] at moved <;> grind [Task.vacant]
  | _ =>
    simp only [advance] at moved
    grind [Task.vacant]

end Task

namespace View

variable {v v' : View} {t t' : Task}

/-- Only who takes or gives back the lock changes who holds it. -/
theorem Moves.locking (moves : Moves v t v' t') :
    Locking Task.holdsLock v.createLock t v'.createLock t' := by
  cases moves with
  | quiet lock same => exact .keeps lock
  | lock free => exact .takes rfl rfl free
  | unlock held given same => exact .gives held given
  -- whether a slot is granted or not, the lock is kept until the task is done with it
  | acquire => exact .keeps (by split <;> rfl)
  | remove found next => rcases next with rfl | rfl <;> exact .keeps rfl
  | readerEnds reader => rcases reader with ⟨content, rfl⟩ | rfl <;> exact .keeps rfl
  | _ => exact .keeps rfl

/-- Only the holder of the lock inserts a session. -/
theorem Moves.sessions (moves : Moves v t v' t') :
    v'.sessions = v.sessions ∨ (∃ addr, v'.sessions = v.sessions.erase addr) ∨
      (t.holdsLock ∧ t'.vacant = none) := by
  cases moves with
  | insert => exact .inr (.inr ⟨rfl, rfl⟩)
  | remove found next => exact .inr (.inl ⟨_, rfl⟩)
  | _ => exact .inl rfl

end View

/-- One task at most holds the lock, and what it found vacant still is. -/
structure Exclusive (v : View) (tasks : Multiset Task) : Prop where
  holders : OneHolder Task.holdsLock v.createLock tasks
  vacant : ∀ task ∈ tasks, ∀ addr, task.vacant = some addr → v.sessions.lookup addr = none

namespace Exclusive

variable {v : View} {task : Task} {tasks others : Multiset Task}

theorem spawn (exclusive : Exclusive v tasks) (ready : task.fresh) :
    Exclusive v (task ::ₘ tasks) := by
  have free := Task.not_holdsLock_of_fresh ready
  refine ⟨exclusive.holders.spawn free, fun other member addr vacant => ?_⟩
  rcases Multiset.mem_cons.mp member with rfl | old
  · rw [Task.holdsLock_of_vacant vacant] at free
    cases free
  · exact exclusive.vacant other old addr vacant

theorem move {throttle : UdpThrottleConfig} {s s' : Relay} {task' : Task} {choice : Choice}
    (parallel : s.Parallel) (exclusive : Exclusive s.view (task ::ₘ others))
    (moved : Task.advance throttle s task choice = some (s', task')) :
    Exclusive s'.view (task' ::ₘ others) := by
  have moves := Task.moves_of_advance parallel moved
  refine ⟨exclusive.holders.move moves.locking, ?_⟩
  have mine (addr : SocketAddr) (vacant : task'.vacant = some addr) :
      s.view.sessions.lookup addr = none := by
    rcases Task.vacant_of_advance moved vacant with before | unmapped
    · exact exclusive.vacant task (Multiset.mem_cons_self ..) addr before
    · exact unmapped
  intro other member addr vacant
  have before : s.view.sessions.lookup addr = none := by
    rcases Multiset.mem_cons.mp member with rfl | old
    · exact mine addr vacant
    · exact exclusive.vacant other (Multiset.mem_cons_of_mem old) addr vacant
  rcases moves.sessions with same | ⟨gone, erased⟩ | ⟨holds, inserted⟩
  · rw [same, before]
  · rw [erased, HashMap.lookup_erase_eq, before, ite_self]
  · -- a session was inserted, and the lock kept every other task from a second look
    rcases Multiset.mem_cons.mp member with rfl | old
    · rw [inserted] at vacant
      cases vacant
    · have free := exclusive.holders.others_free holds other old
      rw [Task.holdsLock_of_vacant vacant] at free
      cases free

end Exclusive

/-! ### One relay among all -/

namespace Paths

variable {s s' : Paths} {throttle : UdpThrottleConfig} {kinds : List Kind}
  {inv : Pool Relay Task → Prop} {cond : Pool Relay Task → Threads.Event Task Choice → Prop}

/-- A condition on the steps of each relay. -/
def RelayCond (cond : Pool Relay Task → Threads.Event Task Choice → Prop) (s : Paths) :
    PathEvent → Prop
  | .store _ => True
  | .relay r event => ∀ pool, s.relays[r]? = some pool → cond pool event

instance [∀ pool event, Decidable (cond pool event)] (s : Paths) (event : PathEvent) :
    Decidable (RelayCond cond s event) :=
  match event with
  | .store _ => isTrue trivial
  | .relay r event =>
    match at_r : s.relays[r]? with
    | none => isTrue (by simp [RelayCond, at_r])
    | some pool => decidable_of_iff (cond pool event) (by simp [RelayCond, at_r])

theorem relayCond_of_forall (all : ∀ pool event, cond pool event) {event : PathEvent} :
    RelayCond cond s event := by
  cases event with
  | store throttle => trivial
  | relay r event => exact fun pool _ => all pool event

theorem step_relay_eq_some {r : Nat} {event : Threads.Event Task Choice} :
    s.step (.relay r event) = some s' ↔
      ∃ pool next, s.relays[r]? = some pool ∧
        Threads.step Task.fresh (Task.advance s.throttle) pool event = some next ∧
        s' = { s with relays := s.relays.set r next } := by
  simp only [step, Option.bind_eq_bind, Option.bind_eq_some_iff]
  constructor
  · rintro ⟨pool, at_r, next, stepped, same⟩
    exact ⟨pool, next, at_r, stepped, (Option.some.inj same).symm⟩
  · rintro ⟨pool, next, at_r, stepped, rfl⟩
    exact ⟨pool, at_r, next, stepped, rfl⟩

/-- What each relay keeps for itself, all of them keep. -/
theorem step_relays
    (keep : ∀ pool event next, inv pool → cond pool event →
      Threads.step Task.fresh (Task.advance s.throttle) pool event = some next → inv next)
    {event : PathEvent} (holds : ∀ pool ∈ s.relays, inv pool) (allowed : RelayCond cond s event)
    (stepped : s.step event = some s') : ∀ pool ∈ s'.relays, inv pool := by
  cases event with
  | store throttle =>
    cases stepped
    exact holds
  | relay r event =>
    obtain ⟨pool, next, at_r, moved, rfl⟩ := step_relay_eq_some.mp stepped
    intro other member
    rcases Threads.mem_set_cases member with rfl | old
    · exact keep _ _ _ (holds pool (List.mem_of_getElem? at_r)) (allowed pool at_r) moved
    · exact holds other old

theorem forall_start (fresh : ∀ kind, inv ⟨.new kind, []⟩) :
    ∀ pool ∈ (start throttle kinds).relays, inv pool := by
  intro pool member
  obtain ⟨kind, -, rfl⟩ := List.mem_map.mp member
  exact fresh kind

/-- The same in every state, for what they keep whatever the limits are. -/
theorem always_relays (fresh : ∀ kind, inv ⟨.new kind, []⟩)
    (keep : ∀ throttle pool event next, inv pool → cond pool event →
      Threads.step Task.fresh (Task.advance throttle) pool event = some next → inv next)
    {events : List PathEvent}
    (guarded : Machine.Guarded step (RelayCond cond) (start throttle kinds) events) :
    Machine.Always step (fun s => ∀ pool ∈ s.relays, inv pool) (start throttle kinds) events :=
  Machine.always_of_guarded (fun s _ _ holds allowed => step_relays (keep s.throttle) holds allowed)
    (forall_start fresh) guarded

end Paths

end MCGate.UdpRelay
