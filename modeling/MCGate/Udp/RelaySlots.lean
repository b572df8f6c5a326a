import MCGate.Udp.RelayView

/-!
# The slots of an IP

With `maxSessionsPerIp` on, a session is admitted with a slot of its client's IP, which
`sessions_per_ip` counts. The limit may be off, and may change while the relay runs: a session
that is admitted meanwhile has no slot, and yet gives one back when it is closed or when its
socket fails to open. The count is then short of a slot that another session of the IP still
holds. Where that never happens the counts are exact.
-/
namespace MCGate.UdpRelay

open Config Machine Threads
open VoiceRelay (Index Packet Session Shared)

/-! ### Exact counts -/

namespace Counts

variable {counts : HashMap Text Int32} {held : Text → Nat} {ip : Text} {max : Int32}

/-- The entry for `n` slots. -/
def entryOf (n : Nat) : Option Int32 := if n = 0 then none else some (Int32.ofNat n)

/-- `counts` is how many slots are held, and is in range. -/
def Exact (counts : HashMap Text Int32) (held : Text → Nat) : Prop :=
  ∀ ip, counts.lookup ip = entryOf (held ip) ∧ held ip < 2 ^ 31

theorem Exact.congr {held' : Text → Nat} (exact : Exact counts held)
    (same : ∀ ip, held' ip = held ip) : Exact counts held' := by
  intro ip
  rw [same]
  exact exact ip

theorem Exact.getD (exact : Exact counts held) (ip : Text) :
    (counts.lookup ip).getD 0 = Int32.ofNat (held ip) := by
  rw [(exact ip).1, entryOf]
  split
  next none => rw [none]; rfl
  · rfl

private theorem ofNat_succ_sub_one (n : Nat) : Int32.ofNat (n + 1) - 1 = Int32.ofNat n := by
  have split := Int32.ofNat_sub (n + 1) 1 (Nat.le_add_left 1 n)
  rw [Nat.add_sub_cancel] at split
  exact split.symm

private theorem ofNat_le_zero {n : Nat} (small : n < 2 ^ 31) : Int32.ofNat n ≤ 0 ↔ n = 0 := by
  have bound := @Int32.ofNat_le_iff_le n 0 small (by decide)
  rw [← Nat.le_zero, ← bound]
  rfl

private theorem lookup_setCount (counts : HashMap Text Int32) (ip other : Text) {n : Nat}
    (small : n < 2 ^ 31) : (setCount counts ip (Int32.ofNat n)).lookup other =
      if other = ip then entryOf n else counts.lookup other := by
  unfold setCount entryOf
  by_cases none : n = 0
  · rw [if_pos ((ofNat_le_zero small).mpr none), HashMap.lookup_erase_eq, if_pos none]
  · rw [if_neg (mt (ofNat_le_zero small).mp none), HashMap.lookup_insert_eq, if_neg none]

theorem Exact.setCount (exact : Exact counts held) {n : Nat} (small : n < 2 ^ 31)
    {held' : Text → Nat} (here : held' ip = n) (elsewhere : ∀ other, other ≠ ip →
      held' other = held other) : Exact (setCount counts ip (Int32.ofNat n)) held' := by
  intro other
  rw [lookup_setCount counts ip other small]
  by_cases same : other = ip
  · rw [if_pos same, same, here]
    exact ⟨rfl, small⟩
  · rw [if_neg same, elsewhere other same]
    exact exact other

/-- A slot is taken, or the count is as before. -/
theorem Exact.acquire (exact : Exact counts held) (on : 0 < max) (small : held ip + 1 < 2 ^ 31)
    {held' : Text → Nat} (here : held' ip = held ip + if (acquire counts max ip).2 then 1 else 0)
    (elsewhere : ∀ other, other ≠ ip → held' other = held other) :
    Exact (acquire counts max ip).1 held' := by
  have count : (counts.lookup ip).getD 0 + 1 = Int32.ofNat (held ip + 1) := by
    rw [exact.getD, Int32.ofNat_add]
    rfl
  unfold Counts.acquire at here ⊢
  rw [if_neg (Int32.not_le.mpr on)] at here ⊢
  simp only [count, ofNat_succ_sub_one] at here ⊢
  -- the cap is compared with the count after the increment
  split at here
  next full =>
    rw [if_pos full]
    exact exact.setCount (exact ip).2 here elsewhere
  next free =>
    have set : counts.insert ip (Int32.ofNat (held ip + 1)) =
        Counts.setCount counts ip (Int32.ofNat (held ip + 1)) := by
      rw [Counts.setCount, if_neg (mt (ofNat_le_zero small).mp (Nat.succ_ne_zero _))]
    rw [if_neg free, set]
    exact exact.setCount small here elsewhere

/-- A slot that is held is given back. -/
theorem Exact.release (exact : Exact counts held) {held' : Text → Nat}
    (here : held ip = held' ip + 1)
    (elsewhere : ∀ other, other ≠ ip → held' other = held other) :
    Exact (Counts.release counts ip) held' := by
  have entry : counts.lookup ip = some (Int32.ofNat (held' ip + 1)) := by
    rw [(exact ip).1, here]
    rfl
  have small : held' ip < 2 ^ 31 := by
    have bound := (exact ip).2
    omega
  simp only [Counts.release, entry, ofNat_succ_sub_one]
  exact exact.setCount small rfl elsewhere

/-- Where none is held, giving one back does nothing. -/
theorem Exact.release_none (exact : Exact counts held) (none : held ip = 0) :
    Counts.release counts ip = counts := by
  have entry : counts.lookup ip = Option.none := by
    rw [(exact ip).1, none]
    rfl
  simp only [Counts.release, entry]

end Counts

/-! ### Who holds the slots -/

/-- How many sessions of the map were admitted with a slot of this IP. -/
def Relay.slotsHeld (s : Relay) (ip : Text) : Nat :=
  s.sessions.entries.countP fun entry => s.slotOf entry.2 = some ip

/-- With those of the tasks that are opening or closing a session. -/
def Relay.held (s : Relay) (tasks : Multiset Task) (ip : Text) : Nat :=
  s.slotsHeld ip + tasks.countP fun task => task.slot = some ip

/-- `sessions_per_ip` has an entry for each IP with a slot, which says how many. -/
def Relay.SlotsMatch (s : Relay) : Prop :=
  ∀ ip, (s.sessionsPerIp.lookup ip).map Int32.toInt =
    if s.slotsHeld ip = 0 then none else some (s.slotsHeld ip : Int)

namespace View

def slotsHeld (v : View) (ip : Text) : Nat :=
  v.sessions.entries.countP fun entry => v.slotOf entry.2 = some ip

def held (v : View) (tasks : Multiset Task) (ip : Text) : Nat :=
  v.slotsHeld ip + tasks.countP fun task => task.slot = some ip

theorem held_cons (v : View) (t : Task) (others : Multiset Task) (ip : Text) :
    v.held (t ::ₘ others) ip = v.held others ip + if t.slot = some ip then 1 else 0 := by
  rw [held, held, Multiset.countP_cons, Nat.add_assoc]

end View

private theorem Relay.view_held (s : Relay) (tasks : Multiset Task) (ip : Text) :
    s.view.held tasks ip = s.held tasks ip := by
  simp only [View.held, View.slotsHeld, view_slotOf]
  rfl

/-- The counts are exact, and the tasks that close a session have its slot. -/
structure View.Slots (v : View) (tasks : Multiset Task) : Prop where
  exact : Counts.Exact v.sessionsPerIp (v.held tasks)
  inRange : ∀ addr arc, v.sessions.lookup addr = some arc → arc < v.facts.length
  closing : ∀ task ∈ tasks, ∀ arc ip, task.closes = some arc → task.slot = some ip →
    v.slotOf arc = some ip

/-- Who gives back a slot has one, or there is none to give back; and the count of an IP does
not reach the last number. -/
def GivesBackOwn (s : Relay) (task : Task) (tasks : Multiset Task) : Prop :=
  match task with
  | .perIpRead packet _ perIpCap => 0 < perIpCap → s.held tasks packet.clientIp + 1 < 2 ^ 31
  | .socketFailed packet false => s.held tasks packet.clientIp = 0
  | .killed arc _ none => ∀ session ∈ s.opened[arc]?, s.held tasks session.clientIp = 0
  | _ => True

instance (s : Relay) (task : Task) (tasks : Multiset Task) :
    Decidable (GivesBackOwn s task tasks) := by
  unfold GivesBackOwn
  split <;> infer_instance

/-- Closing a session without a slot leaves the counts as they are. -/
def SparesSlots (s : Relay) (task : Task) (_ : Multiset Task) : Prop :=
  match task with
  | .killed arc _ none => ∀ session ∈ s.opened[arc]?,
      (s.releaseIpSlot session.clientIp).sessionsPerIp = s.sessionsPerIp
  | _ => True

namespace View

variable {v v' : View} {t t' : Task} {others : Multiset Task}

private theorem slotOf_modify (v : View) (arc : Nat) {f : Facts → Facts}
    (same : ∀ facts, (f facts).clientIp = facts.clientIp ∧ (f facts).reserved = facts.reserved)
    (other : Nat) : (v.modify arc f).slotOf other = v.slotOf other := by
  simp only [slotOf, modify, List.getElem?_modify]
  cases v.facts[other]? with
  | none => rfl
  | some facts =>
    obtain ⟨ip, reserved⟩ := same facts
    by_cases here : arc = other <;> simp [here, ip, reserved]

private theorem slotOf_append (v : View) (facts : Facts) (sessions : HashMap SocketAddr Nat)
    {arc : Nat} (old : arc < v.facts.length) :
    ({ v with sessions, facts := v.facts ++ [facts] } : View).slotOf arc = v.slotOf arc := by
  simp only [slotOf, List.getElem?_append_left old]

private theorem lt_of_slotOf {arc : Nat} {ip : Text} (slot : v.slotOf arc = some ip) :
    arc < v.facts.length := by
  obtain ⟨facts, at_arc, -⟩ := Option.bind_eq_some_iff.mp slot
  exact (List.getElem?_eq_some_iff.mp at_arc).1

/-- The sessions keep their slots, and the tasks too. -/
theorem Slots.of_same (slots : v.Slots (t ::ₘ others)) (sessions : v'.sessions = v.sessions)
    (length : v'.facts.length = v.facts.length) (slotOf : ∀ arc, v'.slotOf arc = v.slotOf arc)
    (closing : ∀ arc ip, t'.closes = some arc → t'.slot = some ip →
      t.closes = some arc ∧ t.slot = some ip)
    (exact : Counts.Exact v'.sessionsPerIp (v.held (t' ::ₘ others))) :
    v'.Slots (t' ::ₘ others) := by
  constructor
  · apply exact.congr
    intro ip
    simp only [held, slotsHeld, sessions, slotOf]
  · intro addr arc found
    rw [sessions] at found
    rw [length]
    exact slots.inRange addr arc found
  · intro task member arc ip closes slot
    rw [slotOf]
    -- what the mover closes now it was closing before, with the same slot
    rcases Multiset.mem_cons.mp member with rfl | old
    · obtain ⟨closes, slot⟩ := closing arc ip closes slot
      exact slots.closing t (Multiset.mem_cons_self ..) arc ip closes slot
    · exact slots.closing task (Multiset.mem_cons_of_mem old) arc ip closes slot

/-- The task holds what it held, and no session is given or loses a slot. -/
theorem Slots.of_held (slots : v.Slots (t ::ₘ others)) (sessions : v'.sessions = v.sessions)
    (counts : v'.sessionsPerIp = v.sessionsPerIp) (length : v'.facts.length = v.facts.length)
    (slotOf : ∀ arc, v'.slotOf arc = v.slotOf arc) (slot : t'.slot = t.slot)
    (closes : ∀ arc, t'.closes = some arc → t.closes = some arc) : v'.Slots (t' ::ₘ others) := by
  refine slots.of_same sessions length slotOf (fun arc ip mine held => ?_) ?_
  · exact ⟨closes arc mine, slot ▸ held⟩
  · rw [counts]
    apply slots.exact.congr
    intro ip
    rw [held_cons, held_cons, slot]

theorem Slots.modify (slots : v.Slots (t ::ₘ others)) (arc : Nat) {f : Facts → Facts}
    (same : ∀ facts, (f facts).clientIp = facts.clientIp ∧ (f facts).reserved = facts.reserved)
    (slot : t'.slot = t.slot) (closes : ∀ arc, t'.closes = some arc → t.closes = some arc) :
    (v.modify arc f).Slots (t' ::ₘ others) :=
  slots.of_held rfl rfl (List.length_modify ..) (slotOf_modify v arc same) slot closes

/-- The sessions of the map hold one slot more if the new one has one. -/
theorem slotsHeld_insert {addr : SocketAddr} (vacant : v.sessions.lookup addr = none)
    (inRange : ∀ addr arc, v.sessions.lookup addr = some arc → arc < v.facts.length)
    (facts : Facts) (ip : Text) :
    ({ v with
      sessions := v.sessions.insert addr v.facts.length
      facts := v.facts ++ [facts] } : View).slotsHeld ip = v.slotsHeld ip +
        if (if facts.reserved then some facts.clientIp else none) = some ip then 1 else 0 := by
  unfold slotsHeld
  rw [HashMap.countP_insert vacant]
  congr 1
  · apply List.countP_congr
    intro entry member
    have found := HashMap.mem_entries_iff.mp member
    rw [slotOf_append v facts _ (inRange entry.1 entry.2 found)]
  · simp [slotOf]

theorem Slots.insert (slots : v.Slots (t ::ₘ others)) {addr : SocketAddr} {facts : Facts}
    (vacant : v.sessions.lookup addr = none)
    (slot : t.slot = if facts.reserved then some facts.clientIp else none)
    (slot' : t'.slot = none) :
    ({ v with
      sessions := v.sessions.insert addr v.facts.length
      facts := v.facts ++ [facts] } : View).Slots (t' ::ₘ others) := by
  have old {arc : Nat} (before : arc < v.facts.length) :=
    slotOf_append v facts (v.sessions.insert addr v.facts.length) before
  constructor
  · apply slots.exact.congr
    -- the slot passes from the task to its session
    intro ip
    rw [held_cons, held_cons, slot', slot, held, held, slotsHeld_insert vacant slots.inRange,
      if_neg (Option.some_ne_none ip).symm, Nat.add_zero]
    exact Nat.add_right_comm ..
  · intro other arc found
    rw [HashMap.lookup_insert_eq] at found
    simp only [List.length_append, List.length_cons, List.length_nil]
    split at found
    · cases found
      exact Nat.lt_succ_self _
    · exact Nat.lt_succ_of_lt (slots.inRange other arc found)
  · intro task member arc ip closes held
    rcases Multiset.mem_cons.mp member with rfl | before
    · rw [slot'] at held
      cases held
    · have mine := slots.closing task (Multiset.mem_cons_of_mem before) arc ip closes held
      rw [old (lt_of_slotOf mine), mine]

theorem Slots.remove (slots : v.Slots (t ::ₘ others)) {addr : SocketAddr} {arc : Nat}
    (found : v.sessions.lookup addr = some arc) (slot : t.slot = none)
    (slot' : t'.slot = v.slotOf arc) (closes' : t'.closes = some arc) :
    ({ v with sessions := v.sessions.erase addr } : View).Slots (t' ::ₘ others) := by
  constructor
  · apply slots.exact.congr
    -- and here from the session to the task that closes it
    intro ip
    have counted := HashMap.countP_erase found fun entry => decide (v.slotOf entry.2 = some ip)
    simp only [decide_eq_true_eq] at counted
    rw [held_cons, held_cons, slot, slot', held, held, slotsHeld, slotsHeld, counted]
    exact (Nat.add_right_comm ..).symm
  · intro other arc' mapped
    rw [HashMap.lookup_erase_eq] at mapped
    split at mapped
    · cases mapped
    · exact slots.inRange other arc' mapped
  · intro task member other ip closes held
    rcases Multiset.mem_cons.mp member with rfl | before
    · rw [closes', Option.some.injEq] at closes
      rw [slot', closes] at held
      exact held
    · exact slots.closing task (Multiset.mem_cons_of_mem before) other ip closes held

/-- A task that gives its own slot back leaves the counts exact. -/
theorem Slots.gaveBack (slots : v.Slots (t ::ₘ others)) {ip : Text} (slot : t.slot = some ip)
    (done : t'.slot = none) :
    Counts.Exact (Counts.release v.sessionsPerIp ip) (v.held (t' ::ₘ others)) := by
  apply slots.exact.release
  · rw [held_cons, held_cons, slot, done]
    simp
  · intro other apart
    rw [held_cons, held_cons, slot, done]
    simp [apart.symm]

/-- A task without a slot may give one back where none is held. -/
theorem Slots.gaveNone (slots : v.Slots (t ::ₘ others)) {ip : Text} (slot : t.slot = none)
    (done : t'.slot = none) (free : v.held (t ::ₘ others) ip = 0) :
    Counts.Exact (Counts.release v.sessionsPerIp ip) (v.held (t' ::ₘ others)) := by
  rw [slots.exact.release_none free]
  apply slots.exact.congr
  intro other
  rw [held_cons, held_cons, slot, done]

/-- A step keeps all this, unless a slot is given back that was not held. -/
theorem Slots.move (slots : v.Slots (t ::ₘ others)) (exclusive : Exclusive v (t ::ₘ others))
    (room : ∀ packet route cap, t = .perIpRead packet route cap → 0 < cap →
      v.held (t ::ₘ others) packet.clientIp + 1 < 2 ^ 31)
    (failed : ∀ packet, t = .socketFailed packet false →
      v.held (t ::ₘ others) packet.clientIp = 0)
    (closed : ∀ arc rest facts, t = .killed arc rest none → v.facts[arc]? = some facts →
      v.held (t ::ₘ others) facts.clientIp = 0)
    (moves : Moves v t v' t') : v'.Slots (t' ::ₘ others) := by
  cases moves with
  | quiet lock same =>
    exact slots.of_held rfl rfl rfl (fun _ => rfl) same.slot fun _ => same.closes.symm.trans
  | lock free => exact slots.of_held rfl rfl rfl (fun _ => rfl) rfl fun _ => id
  | unlock held given same =>
    exact slots.of_held rfl rfl rfl (fun _ => rfl) same.slot fun _ => same.closes.symm.trans
  | @acquire packet route cap =>
    refine slots.of_same rfl rfl (fun _ => rfl) ?_ ?_
    · intro arc ip closes
      split at closes <;> cases closes
    · -- without a cap nothing is counted, and the session gets no slot
      by_cases on : 0 < cap
      · refine slots.exact.acquire on (room packet route cap rfl on) ?_ ?_
        · rw [held_cons, held_cons]
          split <;> simp [Task.slot, on]
        · intro other apart
          rw [held_cons, held_cons]
          split <;> simp [Task.slot, on, apart.symm]
      · have off : Counts.acquire v.sessionsPerIp cap packet.clientIp = (v.sessionsPerIp, true) :=
          if_pos (Int32.not_lt.mp on)
        rw [off]
        apply slots.exact.congr
        intro ip
        rw [held_cons, held_cons]
        simp [Task.slot, on]
  | @fail packet reserved =>
    refine slots.of_same rfl rfl (fun _ => rfl) (fun arc ip closes => by cases closes) ?_
    cases reserved with
    | false => exact slots.gaveNone rfl rfl (failed packet rfl)
    | true => exact slots.gaveBack rfl rfl
  | insert =>
    exact slots.insert (exclusive.vacant _ (Multiset.mem_cons_self ..) _ rfl) rfl rfl
  | spawn => exact slots.modify _ (fun _ => ⟨rfl, rfl⟩) rfl fun _ => id
  | store => exact slots.modify _ (fun _ => ⟨rfl, rfl⟩) rfl fun _ => id
  | remove found next => rcases next with rfl | rfl <;> exact slots.remove found rfl rfl rfl
  | kill => exact slots.modify _ (fun _ => ⟨rfl, rfl⟩) rfl fun _ => id
  | @release arc rest slot facts at_arc =>
    refine slots.of_same rfl rfl (fun _ => rfl) (fun arc ip _ held => by cases held) ?_
    cases slot with
    | none => exact slots.gaveNone rfl rfl (closed arc rest facts rfl at_arc)
    | some ip =>
      have mine := slots.closing _ (Multiset.mem_cons_self ..) arc ip rfl rfl
      -- the slot is that of the session, so it is given back under the right IP
      have same : facts.clientIp = ip := by
        rw [slotOf, at_arc, Option.bind_some] at mine
        split at mine
        · exact Option.some.inj mine
        · cases mine
      rw [same]
      exact slots.gaveBack rfl rfl
  | take =>
    refine slots.modify _ (fun facts => ?_) rfl (fun _ closes => by cases closes)
    unfold Facts.taken
    split <;> exact ⟨rfl, rfl⟩
  | readerEnds reader =>
    rcases reader with ⟨content, rfl⟩ | rfl
    all_goals exact slots.modify _ (fun _ => ⟨rfl, rfl⟩) rfl fun _ closes => by cases closes

end View

/-! ### Whole runs -/

structure SlotsInv (s : Relay) (tasks : Multiset Task) : Prop where
  parallel : s.Parallel
  exclusive : Exclusive s.view tasks
  slots : s.view.Slots tasks

namespace SlotsInv

variable {s : Relay} {tasks : Multiset Task}

theorem new (kind : Kind) : SlotsInv (.new kind) 0 := by
  have nobody (ip : Text) : (Relay.new kind).view.held 0 ip = 0 := by cases kind <;> rfl
  have counts :
      Counts.Exact (Relay.new kind).view.sessionsPerIp ((Relay.new kind).view.held 0) := by
    intro ip
    rw [nobody]
    cases kind <;> exact ⟨rfl, by decide⟩
  have unmapped (addr : SocketAddr) : (Relay.new kind).view.sessions.lookup addr = none := by
    cases kind <;> rfl
  refine ⟨by cases kind <;> rfl, ⟨by cases kind <;> rfl, by simp⟩, counts, ?_, by simp⟩
  intro addr arc found
  rw [unmapped] at found
  cases found

theorem spawn {task : Task} (inv : SlotsInv s tasks) (ready : task.fresh) :
    SlotsInv s (task ::ₘ tasks) := by
  have rest : task.atRest := by simp [Task.atRest, ready]
  obtain ⟨-, closes, slot⟩ := Task.holds_nothing_of_atRest rest
  refine ⟨inv.parallel, inv.exclusive.spawn ready, ⟨?_, inv.slots.inRange, ?_⟩⟩
  · apply inv.slots.exact.congr
    intro ip
    rw [View.held_cons, slot]
    rfl
  · intro other member arc ip mine
    rcases Multiset.mem_cons.mp member with rfl | old
    · rw [closes] at mine
      cases mine
    · exact inv.slots.closing other old arc ip mine

theorem move {throttle : UdpThrottleConfig} {s' : Relay} {task task' : Task} {choice : Choice}
    {others : Multiset Task} (inv : SlotsInv s (task ::ₘ others))
    (own : GivesBackOwn s task (task ::ₘ others))
    (moved : Task.advance throttle s task choice = some (s', task')) :
    SlotsInv s' (task' ::ₘ others) := by
  refine ⟨Task.parallel_of_advance inv.parallel moved, inv.exclusive.move inv.parallel moved,
    inv.slots.move inv.exclusive ?_ ?_ ?_ (Task.moves_of_advance inv.parallel moved)⟩
  · rintro packet route cap rfl on
    rw [Relay.view_held]
    exact own on
  · rintro packet rfl
    rw [Relay.view_held]
    exact own
  · rintro arc rest facts rfl at_arc
    rw [Relay.getElem?_facts] at at_arc
    obtain ⟨session, opened, at_arc⟩ := Option.bind_eq_some_iff.mp at_arc
    obtain ⟨life, -, rfl⟩ := Option.map_eq_some_iff.mp at_arc
    rw [Relay.view_held]
    exact own session opened

/-- Between operations the sessions of the map hold all slots. -/
theorem slotsMatch (inv : SlotsInv s tasks) (rest : ∀ task ∈ tasks, task.atRest) :
    s.SlotsMatch := by
  intro ip
  have none : tasks.countP (fun task => task.slot = some ip) = 0 := by
    apply Multiset.countP_eq_zero.mpr
    intro task member
    rw [(Task.holds_nothing_of_atRest (rest task member)).2.2]
    exact (Option.some_ne_none ip).symm
  obtain ⟨entry, small⟩ := inv.slots.exact ip
  rw [Relay.view_held, Relay.held, none, Nat.add_zero] at entry small
  have counted : s.sessionsPerIp.lookup ip = Counts.entryOf (s.slotsHeld ip) := entry
  rw [counted, Counts.entryOf]
  split
  · rfl
  · rw [Option.map_some, Int32.toInt_ofNat_of_lt small]

private theorem sparesSlots (inv : SlotsInv s tasks) {task : Task}
    (own : GivesBackOwn s task tasks) : SparesSlots s task tasks := by
  unfold SparesSlots
  split
  next arc rest =>
    intro session opened
    rw [Counts.releaseIpSlot_eq]
    apply inv.slots.exact.release_none
    rw [Relay.view_held]
    exact own session opened
  · trivial

end SlotsInv

/-- For every interleaving of datagrams, failed opens, evictions, disconnects and changes of the
limits, in any relays. -/
theorem slots_match_if_own_given_back (throttle : UdpThrottleConfig) (kinds : List Kind)
    (events : List PathEvent)
    (own : Guarded Paths.step (Paths.RelayCond (AmongCond GivesBackOwn))
      (Paths.start throttle kinds) events) :
    Always Paths.step (fun s => ∀ pool ∈ s.relays, AtRest pool → pool.shared.SlotsMatch)
        (Paths.start throttle kinds) events ∧
      Guarded Paths.step (Paths.RelayCond (AmongCond SparesSlots))
        (Paths.start throttle kinds) events := by
  have keep : ∀ throttle (pool : Pool Relay Task) event next,
      SlotsInv pool.shared pool.threads → AmongCond GivesBackOwn pool event →
      Threads.step Task.fresh (Task.advance throttle) pool event = some next →
      SlotsInv next.shared next.threads := by
    intro throttle pool event next inv allowed stepped
    refine step_bag ?_ ?_ inv allowed stepped
    · exact fun _ _ _ inv ready => inv.spawn ready
    · exact fun _ _ _ _ _ _ inv own moved => inv.move own moved
  have along := @Paths.always_relays throttle kinds
    (fun pool => SlotsInv pool.shared pool.threads) _ SlotsInv.new keep events own
  refine ⟨along.imp fun s inv pool member rest => (inv pool member).slotsMatch rest, ?_⟩
  refine guarded_of_guarded
    (fun s _ _ inv allowed => Paths.step_relays (keep s.throttle) inv allowed) ?_
    (@Paths.forall_start throttle kinds (fun pool => SlotsInv pool.shared pool.threads)
      SlotsInv.new) own
  intro s event inv allowed
  cases event with
  | store throttle => trivial
  | relay r event =>
    intro pool at_r
    cases event with
    | spawn task => trivial
    | move i choice =>
      intro task at_i
      exact (inv pool (List.mem_of_getElem? at_r)).sparesSlots (allowed pool at_r task at_i)

/-- A datagram from one of a client's ports, and the environment `seconds` after the start. -/
def fromPort (port : UInt16) : Packet :=
  ⟨⟨.v4 ⟨203, 0, 113, 7⟩, port⟩, ⟨.v4 ⟨203, 0, 113, 7⟩, port⟩, literal "ping"⟩

def after (seconds : Nat) : Choice := ⟨seconds * 1000000000, true, none⟩

/-- A proxy with the limit off until five seconds after the start. -/
def unlimited : Paths :=
  .start { maxSessionsPerIp := 0 } [.proxy ⟨.v4 ⟨10, 0, 0, 5⟩, 19132⟩]

/-- A session is admitted without a slot and is evicted; one is admitted with a slot and a third
one fails to open. -/
def limitedLater : List PathEvent :=
  .relay 0 (.spawn (.arrived (fromPort 4001))) :: PathEvent.moves 0 0 14 (after 0) ++
    .relay 0 (.spawn .evict) :: PathEvent.moves 0 1 6 (after 21) ++
    .store {} :: .relay 0 (.spawn (.arrived (fromPort 4000))) ::
      PathEvent.moves 0 2 14 (after 22) ++
    .relay 0 (.spawn (.arrived (fromPort 4002))) ::
      PathEvent.moves 0 3 10 { after 23 with opens := false }

theorem slots_match_limitedLater :
    Always Paths.step (fun s => ∀ pool ∈ s.relays, AtRest pool → pool.shared.SlotsMatch)
        unlimited limitedLater ∧
      Guarded Paths.step (Paths.RelayCond (AmongCond SparesSlots)) unlimited limitedLater :=
  slots_match_if_own_given_back { maxSessionsPerIp := 0 }
    [.proxy ⟨.v4 ⟨10, 0, 0, 5⟩, 19132⟩] limitedLater (by decide +kernel)

/-- The session without a slot is evicted while another one of the IP has one. -/
def limitedMeanwhile : List PathEvent :=
  .relay 0 (.spawn (.arrived (fromPort 4001))) :: PathEvent.moves 0 0 14 (after 0) ++
    .store {} :: .relay 0 (.spawn (.arrived (fromPort 4000))) :: PathEvent.moves 0 1 14 (after 5) ++
    .relay 0 (.spawn .evict) :: PathEvent.moves 0 2 6 (after 21)

theorem slot_lost_limitedMeanwhile :
    ¬ Always Paths.step (fun s => ∀ pool ∈ s.relays, AtRest pool → pool.shared.SlotsMatch)
      unlimited limitedMeanwhile := by
  intro always
  have counted := always.imp fun s holds pool member rest =>
    holds pool member rest (fromPort 4000).clientIp
  exact absurd counted (by decide)

end MCGate.UdpRelay
