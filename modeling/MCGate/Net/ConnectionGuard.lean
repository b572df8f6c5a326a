import Mathlib.Data.List.Perm.Basic
import MCGate.Lib.Machine
import MCGate.Std.HashMap
import MCGate.Std.Text

/-!
# The pre-login phase

A connection has a slot of its IP until it has logged in or is closed. The guard that stands for
the slot gives it back once, whichever comes first, and the entry of an IP goes with its last
slot. The cap is read from the config at each connection, so it may change from one to the next.
-/
namespace MCGate

structure PreLoginConnections where
  counts : HashMap Text Int

structure PreLoginGuard where
  ip : Option Text
  released : Bool
  deriving DecidableEq

namespace PreLoginConnections

def empty : PreLoginConnections := ⟨∅⟩

def tryAcquire (self : PreLoginConnections) (ip : Text) (max : UInt32) :
    PreLoginConnections × Bool :=
  let (counts, acquired) := self.counts.tryCountUp ip max.toNat
  (⟨counts⟩, acquired)

def release (self : PreLoginConnections) (ip : Text) : PreLoginConnections :=
  ⟨self.counts.countDown ip⟩

end PreLoginConnections

namespace PreLoginGuard

/-- No guard if the IP has all its slots; and one without a slot if there is no cap. -/
def acquire (connections : PreLoginConnections) (ip : Option Text)
    (maxConnectionsPerIp : UInt32) : PreLoginConnections × Option PreLoginGuard :=
  if maxConnectionsPerIp = 0 then (connections, some ⟨none, true⟩)
  else
    match ip with
    | none => (connections, some ⟨none, true⟩)
    | some ip =>
      match connections.tryAcquire ip maxConnectionsPerIp with
      | (connections, true) => (connections, some ⟨some ip, false⟩)
      | (connections, false) => (connections, none)

def release (self : PreLoginGuard) (connections : PreLoginConnections) :
    PreLoginConnections × PreLoginGuard :=
  if self.released then (connections, self)
  else
    (match self.ip with
      | none => connections
      | some ip => connections.release ip,
      { self with released := true })

/-- The guard has a slot of `ip` that it has not given back. -/
def reserves (ip : Text) (self : PreLoginGuard) : Bool := !self.released && self.ip = some ip

end PreLoginGuard

/-- The slots, and the guards that have not been dropped. -/
structure PreLogin where
  connections : PreLoginConnections
  guards : List PreLoginGuard

inductive PreLoginEvent where
  | acquire (ip : Option Text) (maxConnectionsPerIp : UInt32)
  | done (i : Nat)
  | drop (i : Nat)

namespace PreLogin

open Machine HashMap

def start : PreLogin := ⟨.empty, []⟩

def step (s : PreLogin) : PreLoginEvent → Option PreLogin
  | .acquire ip maxConnectionsPerIp =>
    let (connections, guard) := PreLoginGuard.acquire s.connections ip maxConnectionsPerIp
    some ⟨connections, s.guards ++ guard.toList⟩
  | .done i => do
    let guard ← s.guards[i]?
    let (connections, guard) := guard.release s.connections
    return ⟨connections, s.guards.set i guard⟩
  | .drop i => do
    let guard ← s.guards[i]?
    return ⟨(guard.release s.connections).1, s.guards.eraseIdx i⟩

/-- The slots of `ip` that are reserved. -/
def reserved (s : PreLogin) (ip : Text) : Nat := s.guards.countP (PreLoginGuard.reserves ip)

/-- Every slot that is reserved is counted, and no entry counts none. -/
def Counted (s : PreLogin) : Prop :=
  (∀ ip, s.connections.counts.countOf ip = s.reserved ip) ∧ s.connections.counts.Positive

end PreLogin

/-! ### One call -/

namespace PreLogin

open Machine HashMap

variable {s s' : PreLogin} {ip other : Text} {guard : PreLoginGuard} {i : Nat} {cap : UInt32}

/-- An IP gets a slot exactly if it has fewer than it may; otherwise nothing changes. -/
theorem tryAcquire_cases (connections : PreLoginConnections)
    (positive : connections.counts.Positive) (ip : Text) (max : UInt32) :
    (connections.counts.countOf ip < max.toNat ∧
      connections.tryAcquire ip max = (⟨connections.counts.countUp ip⟩, true)) ∨
    (¬ connections.counts.countOf ip < max.toNat ∧ ∃ connections',
      connections.tryAcquire ip max = (connections', false) ∧
        ∀ other, connections'.counts.lookup other = connections.counts.lookup other) := by
  by_cases room : connections.counts.countOf ip < max.toNat
  · refine .inl ⟨room, ?_⟩
    rw [PreLoginConnections.tryAcquire, tryCountUp, if_neg (by omega)]
  · refine .inr ⟨room, ?_⟩
    rw [PreLoginConnections.tryAcquire, tryCountUp, if_pos (by omega)]
    unfold countOf
    cases stored : connections.counts.lookup ip with
    | none =>
      -- the entry that was made for the attempt is removed
      simp only [Option.getD_none, Int.le_refl, if_true]
      refine ⟨_, rfl, fun other => ?_⟩
      rw [lookup_erase_eq]
      split
      next same => rw [same, stored]
      next => rfl
    | some count =>
      simp only [Option.getD_some, if_neg (Int.not_le.mpr (positive ip count stored))]
      refine ⟨_, rfl, fun other => ?_⟩
      rw [lookup_insert_eq]
      split
      next same => rw [same, stored]
      next => rfl

/-- What an acquire does: it gives out a guard without a slot, or with one, or none. -/
theorem acquire_cases (positive : s.connections.counts.Positive) (address : Option Text)
    (cap : UInt32) :
    ((cap = 0 ∨ address = none) ∧
      PreLoginGuard.acquire s.connections address cap = (s.connections, some ⟨none, true⟩)) ∨
    (∃ ip, cap ≠ 0 ∧ address = some ip ∧ s.connections.counts.countOf ip < cap.toNat ∧
      PreLoginGuard.acquire s.connections address cap =
        (⟨s.connections.counts.countUp ip⟩, some ⟨some ip, false⟩)) ∨
    (∃ ip connections, cap ≠ 0 ∧ address = some ip ∧
      ¬ s.connections.counts.countOf ip < cap.toNat ∧
      PreLoginGuard.acquire s.connections address cap = (connections, none) ∧
      ∀ other, connections.counts.lookup other = s.connections.counts.lookup other) := by
  unfold PreLoginGuard.acquire
  split
  next off => exact .inl ⟨.inl off, rfl⟩
  next enabled =>
    cases address with
    | none => exact .inl ⟨.inr rfl, rfl⟩
    | some ip =>
      refine .inr ?_
      rcases tryAcquire_cases s.connections positive ip cap with
        ⟨room, granted⟩ | ⟨full, connections, refused, same⟩
      · simp only [granted]
        exact .inl ⟨ip, enabled, rfl, room, rfl⟩
      · simp only [refused]
        exact .inr ⟨ip, connections, enabled, rfl, full, rfl, same⟩

private theorem reserves_release (guard : PreLoginGuard) (connections : PreLoginConnections)
    (ip : Text) : (guard.release connections).2.reserves ip = false := by
  obtain ⟨address, released⟩ := guard
  cases released <;> rfl

/-- What giving back a slot does to the counts: one less for an IP that had one. -/
theorem counted_release {connections : PreLoginConnections} {n : Text → Nat}
    (positive : connections.counts.Positive)
    (counts : ∀ ip, connections.counts.countOf ip = n ip + (guard.reserves ip).toNat) :
    (∀ ip, (guard.release connections).1.counts.countOf ip = n ip) ∧
      (guard.release connections).1.counts.Positive := by
  obtain ⟨address, released⟩ := guard
  cases released with
  | true =>
    refine ⟨fun ip => ?_, positive⟩
    exact (counts ip).trans (by simp [PreLoginGuard.reserves])
  | false =>
    cases address with
    | none =>
      refine ⟨fun ip => ?_, positive⟩
      exact (counts ip).trans (by simp [PreLoginGuard.reserves])
    | some mine =>
      refine ⟨fun ip => ?_, positive.countDown⟩
      have mine_counts := counts mine
      have ip_counts := counts ip
      simp only [PreLoginGuard.release, PreLoginConnections.release, Bool.false_eq_true, if_false]
      rw [positive.countOf_countDown]
      simp only [PreLoginGuard.reserves, Bool.not_false, Bool.true_and, decide_true,
        Bool.toNat_true, Option.some.injEq] at mine_counts ip_counts
      split
      next same =>
        have nonzero : connections.counts.countOf mine ≠ 0 := by omega
        rw [if_neg nonzero, same]
        omega
      next apart =>
        rw [decide_eq_false (Ne.symm apart)] at ip_counts
        simpa using ip_counts

/-! ### All calls -/

private theorem reserved_append (connections : PreLoginConnections) (guard : Option PreLoginGuard) :
    reserved ⟨connections, s.guards ++ guard.toList⟩ ip =
      s.reserved ip + (guard.any (PreLoginGuard.reserves ip)).toNat := by
  unfold reserved
  rw [List.countP_append]
  cases guard with
  | none => rfl
  | some guard => cases mine : guard.reserves ip <;> simp [mine]

private theorem counted_acquire (counted : Counted s) (address : Option Text)
    (stepped : s.step (.acquire address cap) = some s') : Counted s' := by
  obtain ⟨counts, positive⟩ := counted
  simp only [step, Option.some.injEq] at stepped
  subst stepped
  rcases acquire_cases positive address cap with
    ⟨-, free⟩ | ⟨ip, -, -, -, granted⟩ | ⟨ip, connections, -, -, -, refused, same⟩
  · rw [free]
    refine ⟨fun ip => ?_, positive⟩
    rw [reserved_append]
    exact counts ip
  · rw [granted]
    refine ⟨fun other => ?_, positive.countUp⟩
    rw [reserved_append]
    dsimp only
    rw [countOf_countUp, counts, counts]
    by_cases mine : other = ip
    · simp [mine, PreLoginGuard.reserves]
    · simp [mine, Ne.symm mine, PreLoginGuard.reserves]
  · rw [refused]
    refine ⟨fun other => ?_, fun other count stored => ?_⟩
    · rw [reserved_append]
      dsimp only
      rw [countOf, same]
      exact counts other
    · rw [same] at stored
      exact positive other count stored

/-- A guard that is there has its part of the slots. -/
theorem reserved_eq_eraseIdx (here : s.guards[i]? = some guard) (ip : Text) :
    s.reserved ip = (s.guards.eraseIdx i).countP (PreLoginGuard.reserves ip) +
      (guard.reserves ip).toNat := by
  obtain ⟨inRange, rfl⟩ := List.getElem?_eq_some_iff.mp here
  unfold reserved
  rw [← (List.getElem_cons_eraseIdx_perm inRange).countP_eq, List.countP_cons]
  cases s.guards[i].reserves ip <;> rfl

/-- Dropping a guard, or being done with it, gives back the slot that it has. -/
theorem counted_end (counted : Counted s) (here : s.guards[i]? = some guard)
    {guards : List PreLoginGuard} (rest : ∀ ip, guards.countP (PreLoginGuard.reserves ip) =
      (s.guards.eraseIdx i).countP (PreLoginGuard.reserves ip)) :
    Counted ⟨(guard.release s.connections).1, guards⟩ := by
  have before (ip : Text) := (counted.1 ip).trans
    (congrArg Nat.cast (reserved_eq_eraseIdx here ip))
  simp only [Int.natCast_add] at before
  obtain ⟨counts, positive⟩ := counted_release counted.2 before
  refine ⟨fun ip => ?_, positive⟩
  rw [counts]
  exact congrArg Nat.cast (rest ip).symm

private theorem counted_step {event : PreLoginEvent} (counted : Counted s)
    (stepped : s.step event = some s') : Counted s' := by
  cases event with
  | acquire address cap => exact counted_acquire counted address stepped
  | done i =>
    simp only [step, Option.bind_eq_bind, Option.bind_eq_some_iff] at stepped
    obtain ⟨guard, here, done⟩ := stepped
    cases done
    refine counted_end counted here fun ip => ?_
    -- in its place there is now a guard that has no slot
    have inRange := (List.getElem?_eq_some_iff.mp here).1
    rw [(List.set_perm_cons_eraseIdx inRange _).countP_eq, List.countP_cons_of_neg]
    simp [reserves_release]
  | drop i =>
    simp only [step, Option.bind_eq_bind, Option.bind_eq_some_iff] at stepped
    obtain ⟨guard, here, done⟩ := stepped
    cases done
    exact counted_end counted here fun _ => rfl

/-- The slots are accounted for: they are the ones of the guards, an IP gets one more exactly if
it has fewer than it may, and an acquire that fails changes nothing. -/
structure Accounted (s : PreLogin) : Prop where
  counts : ∀ ip, s.connections.counts.countOf ip = s.reserved ip
  nonzero : ∀ ip count, s.connections.counts.lookup ip = some count → count ≠ 0
  acquire : ∀ ip (cap : UInt32), 1 ≤ cap →
    ((PreLoginGuard.acquire s.connections (some ip) cap).2.isSome ↔ s.reserved ip < cap.toNat)
  refused : ∀ address cap, (PreLoginGuard.acquire s.connections address cap).2 = none →
    ∀ other, (PreLoginGuard.acquire s.connections address cap).1.counts.lookup other =
      s.connections.counts.lookup other

theorem Counted.accounted (counted : Counted s) : Accounted s := by
  obtain ⟨counts, positive⟩ := counted
  constructor
  case counts => exact counts
  case nonzero => exact fun ip count stored => Int.ne_of_gt (positive ip count stored)
  case acquire =>
    intro ip cap enabled
    rcases acquire_cases positive (some ip) cap with
      ⟨off | none, -⟩ | ⟨_, -, same, room, granted⟩ | ⟨_, _, -, same, full, refused, -⟩
    · subst off
      cases enabled
    · cases none
    · cases same
      rw [counts] at room
      rw [granted]
      exact iff_of_true rfl (by omega)
    · cases same
      rw [counts] at full
      rw [refused]
      exact iff_of_false (by simp) (by omega)
  case refused =>
    intro address cap failed other
    rcases acquire_cases positive address cap with
      ⟨-, free⟩ | ⟨_, -, -, -, granted⟩ | ⟨_, _, -, -, -, refused, same⟩
    · rw [free] at failed
      cases failed
    · rw [granted] at failed
      cases failed
    · rw [refused]
      exact same other

/-- In every state that acquires, `done` and drops lead to, in whatever order and with whatever
caps, the slots are accounted for. -/
theorem accounted_always (events : List PreLoginEvent) : Always step Accounted start events := by
  have counted : Always step Counted start events := by
    refine always_of_keep (fun _ _ _ counted stepped => counted_step counted stepped) events ?_
    constructor
    · intro ip
      rfl
    · intro ip count stored
      cases stored
  exact counted.imp fun _ => Counted.accounted

end PreLogin

end MCGate
