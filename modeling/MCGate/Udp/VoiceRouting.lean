import Mathlib.Algebra.Group.Nat.Defs
import MCGate.Lib.Machine
import MCGate.Std.HashMap
import MCGate.Std.Net
import MCGate.Std.Time

/-!
# Voice routing

`VoiceRouting` maps the IP of a connected player to the voice chat backend of its route.
The connections of one IP share the entry and count their holds in it. A periodic sweep
drops entries that nobody has registered or looked up for ten minutes, and with an entry it
drops the count: `SparesHeld` is exactly what a call must meet to keep the count right.
-/
namespace MCGate

def entryIdleEvict : Nat := 600 * 1000000000

namespace VoiceRouting

structure Entry where
  host : Text
  backend : SocketAddr
  lastSeen : Instant
  refs : UInt32
  deriving DecidableEq, Repr

end VoiceRouting

structure VoiceRouting where
  entries : HashMap Text VoiceRouting.Entry

namespace VoiceRouting

def empty : VoiceRouting := ⟨∅⟩

def get (self : VoiceRouting) (clientIp : Text) : Option Entry := self.entries.lookup clientIp

def register (self : VoiceRouting) (now : Instant) (clientIp host : Text) (backend : SocketAddr) :
    VoiceRouting :=
  let refs := ((self.get clientIp).map Entry.refs).getD 0 + 1
  ⟨self.entries.insert clientIp { host, backend, lastSeen := now, refs }⟩

def resolve (self : VoiceRouting) (now : Instant) (clientIp : Text) :
    VoiceRouting × Option Entry :=
  match self.get clientIp with
  | none => (self, none)
  | some entry =>
    let entry := { entry with lastSeen := now }
    (⟨self.entries.insert clientIp entry⟩, some entry)

/-- The section of `unregister` under the lock, and whether the disconnect hook is called
after it. -/
def unregister (self : VoiceRouting) (clientIp : Text) : VoiceRouting × Bool :=
  match self.get clientIp with
  | none => (⟨self.entries.erase clientIp⟩, true)
  | some entry =>
    if 1 < entry.refs then
      (⟨self.entries.insert clientIp { entry with refs := entry.refs - 1 }⟩, false)
    else (⟨self.entries.erase clientIp⟩, true)

/-- The sweep keeps what was seen since the cutoff. -/
def keeps (now : Instant) (entry : Entry) : Bool := now - entryIdleEvict ≤ entry.lastSeen

def evictIdle (self : VoiceRouting) (now : Instant) : VoiceRouting :=
  if now < entryIdleEvict then self else ⟨self.entries.retain fun _ => keeps now⟩

/-! ### What an operation does to one entry -/

theorem get_register (self : VoiceRouting) (now : Instant) (clientIp host ip : Text)
    (backend : SocketAddr) :
    (self.register now clientIp host backend).get ip =
      if ip = clientIp then
        some ⟨host, backend, now, ((self.get clientIp).map Entry.refs).getD 0 + 1⟩
      else self.get ip :=
  HashMap.lookup_insert_eq _ _ _ _

theorem refs_resolve (self : VoiceRouting) (now : Instant) (clientIp ip : Text) :
    ((self.resolve now clientIp).1.get ip).map Entry.refs = (self.get ip).map Entry.refs := by
  unfold resolve
  cases held : self.get clientIp with
  | none => rfl
  | some entry =>
    simp only [get, HashMap.lookup_insert_eq]
    split
    next same =>
      rw [same, ← get, held]
      rfl
    next => rfl

theorem get_evictIdle (self : VoiceRouting) (now : Instant) (ip : Text) :
    (self.evictIdle now).get ip = (self.get ip).filter (keeps now) := by
  unfold evictIdle
  split
  next early =>
    -- before the first ten minutes the cutoff is in nobody's past
    have all : ∀ entry, keeps now entry := by
      intro entry
      have zero : now - entryIdleEvict = 0 := Nat.sub_eq_zero_of_le (Nat.le_of_lt early)
      rw [keeps, zero]
      exact decide_eq_true (Nat.zero_le entry.lastSeen)
    cases self.get ip with
    | none => rfl
    | some entry => rw [Option.filter_some_pos (all entry)]
  next => rw [get, get, HashMap.lookup_retain]

end VoiceRouting

/-! ### Connections that hold entries -/

/-- The routing table with the IPs of the live connections that are registered, one for each
connection, and the calls of the disconnect hook: the IP and how many connections from it
were still live. Only the statements read `live` and `hooks`. -/
structure VoiceHolds where
  routing : VoiceRouting
  live : List Text
  hooks : List (Text × Nat)

inductive VoiceCall where
  | register (now : Instant) (clientIp host : Text) (backend : SocketAddr)
  /-- a registered connection ends -/
  | unregister (clientIp : Text)
  | resolve (now : Instant) (clientIp : Text)
  | evictIdle (now : Instant)
  deriving DecidableEq, Repr

namespace VoiceHolds

open Machine VoiceRouting

def start : VoiceHolds := ⟨.empty, [], []⟩

def step (s : VoiceHolds) : VoiceCall → Option VoiceHolds
  | .register now clientIp host backend =>
    some { s with
      routing := s.routing.register now clientIp host backend, live := clientIp :: s.live }
  | .unregister clientIp =>
    if clientIp ∈ s.live then
      let (routing, hook) := s.routing.unregister clientIp
      let live := s.live.erase clientIp
      let hooks := if hook then (clientIp, live.count clientIp) :: s.hooks else s.hooks
      some ⟨routing, live, hooks⟩
    else none
  | .resolve now clientIp => some { s with routing := (s.routing.resolve now clientIp).1 }
  | .evictIdle now => some { s with routing := s.routing.evictIdle now }

/-- The count an entry should have: there is none without a live connection. -/
def held (live : List Text) (ip : Text) : Option Nat :=
  if live.count ip = 0 then none else some (live.count ip)

/-- An IP has an entry while one of its connections is live, the entry counts them, and the
hook was called only for an IP without one. -/
def Accounts (s : VoiceHolds) : Prop :=
  (∀ ip, (s.routing.get ip).map (fun entry => entry.refs.toNat) = held s.live ip) ∧
    ∀ call ∈ s.hooks, call.2 = 0

/-- A sweep drops no entry of an IP with a live connection, and a registration does not bring
an IP to `2 ^ 32` connections. -/
def SparesHeld (s : VoiceHolds) : VoiceCall → Prop
  | .register _ clientIp _ _ => s.live.count clientIp + 1 < 2 ^ 32
  | .evictIdle now => ∀ e ∈ s.routing.entries.entries, e.1 ∈ s.live → keeps now e.2
  | .unregister _ => True
  | .resolve _ _ => True

instance (s : VoiceHolds) (call : VoiceCall) : Decidable (SparesHeld s call) :=
  match call with
  | .register _ clientIp _ _ => inferInstanceAs (Decidable (s.live.count clientIp + 1 < 2 ^ 32))
  | .evictIdle now =>
    inferInstanceAs (Decidable (∀ e ∈ s.routing.entries.entries, e.1 ∈ s.live → keeps now e.2))
  | .unregister _ => isTrue trivial
  | .resolve _ _ => isTrue trivial

private theorem held_eq_none {live : List Text} {ip : Text} : held live ip = none ↔ ip ∉ live := by
  unfold held
  split
  next zero => simpa using List.count_eq_zero.mp zero
  next some_live => simpa using fun absent => some_live (List.count_eq_zero.mpr absent)

theorem held_of_mem {live : List Text} {ip : Text} (member : ip ∈ live) :
    held live ip = some (live.count ip) :=
  if_neg (Nat.ne_of_gt (List.count_pos_iff.mpr member))

/-- The count of an IP depends on its own connections alone. -/
theorem held_congr {live live' : List Text} {ip : Text} (same : live'.count ip = live.count ip) :
    held live' ip = held live ip := by
  rw [held, held, same]

variable {s s' : VoiceHolds}

/-- The count that `register` starts from. -/
theorem Accounts.refs_toNat (accounts : Accounts s) (ip : Text) :
    (((s.routing.get ip).map Entry.refs).getD 0).toNat = s.live.count ip := by
  have count := accounts.1 ip
  by_cases member : ip ∈ s.live
  · rw [held_of_mem member, Option.map_eq_some_iff] at count
    obtain ⟨entry, stored, same⟩ := count
    rw [stored]
    exact same
  · rw [held_eq_none.mpr member, Option.map_eq_none_iff] at count
    rw [count, List.count_eq_zero.mpr member]
    rfl

theorem accounts_register (accounts : Accounts s) {now : Instant} {clientIp host : Text}
    {backend : SocketAddr}
    (stepped : s.step (.register now clientIp host backend) = some s') :
    Accounts s' ↔ s.live.count clientIp + 1 < 2 ^ 32 := by
  cases stepped
  have refs := accounts.refs_toNat clientIp
  have sum : (((s.routing.get clientIp).map Entry.refs).getD 0 + 1).toNat =
      (s.live.count clientIp + 1) % 2 ^ 32 := by
    rw [UInt32.toNat_add, refs]
    rfl
  constructor
  · intro after
    have own := after.1 clientIp
    rw [held_of_mem List.mem_cons_self, List.count_cons_self, get_register, if_pos rfl,
      Option.map_some, sum] at own
    have small : (s.live.count clientIp + 1) % 2 ^ 32 < 2 ^ 32 := Nat.mod_lt _ (by decide)
    rwa [Option.some.inj own] at small
  · intro small
    refine ⟨fun ip => ?_, accounts.2⟩
    rw [get_register]
    by_cases own : ip = clientIp
    · rw [if_pos own, own, held_of_mem List.mem_cons_self, List.count_cons_self, Option.map_some,
        sum, Nat.mod_eq_of_lt small]
    · rw [if_neg own, accounts.1 ip]
      exact (held_congr (List.count_cons_of_ne (Ne.symm own))).symm

theorem accounts_unregister (accounts : Accounts s) {clientIp : Text}
    (stepped : s.step (.unregister clientIp) = some s') : Accounts s' := by
  simp only [step] at stepped
  split at stepped
  next member =>
    cases stepped
    obtain ⟨entry, stored, refs⟩ :=
      Option.map_eq_some_iff.mp ((accounts.1 clientIp).trans (held_of_mem member))
    have others (ip : Text) (other : ip ≠ clientIp) :
        held (s.live.erase clientIp) ip = held s.live ip :=
      held_congr (List.count_erase_of_ne other)
    have left : (s.live.erase clientIp).count clientIp = s.live.count clientIp - 1 :=
      List.count_erase_self
    have one_live : 0 < s.live.count clientIp := List.count_pos_iff.mpr member
    by_cases more : 1 < entry.refs
    · -- another connection still holds the entry
      have two_live : 1 < entry.refs.toNat := UInt32.lt_iff_toNat_lt.mp more
      have stays : clientIp ∈ s.live.erase clientIp := by
        rw [← List.count_pos_iff, left]
        omega
      have released : s.routing.unregister clientIp =
          (⟨s.routing.entries.insert clientIp { entry with refs := entry.refs - 1 }⟩, false) := by
        simp only [unregister, stored, more, if_true]
      simp only [released]
      refine ⟨fun ip => ?_, accounts.2⟩
      rw [VoiceRouting.get, HashMap.lookup_insert_eq]
      by_cases own : ip = clientIp
      · rw [if_pos own, own, held_of_mem stays, left, ← refs, Option.map_some,
          UInt32.toNat_sub_of_le _ _ (UInt32.le_of_lt more)]
        rfl
      · rw [if_neg own, others ip own, ← VoiceRouting.get, accounts.1 ip]
    · have last : ¬ 1 < entry.refs.toNat := fun two => more (UInt32.lt_iff_toNat_lt.mpr two)
      have gone : (s.live.erase clientIp).count clientIp = 0 := by omega
      have removed : s.routing.unregister clientIp =
          (⟨s.routing.entries.erase clientIp⟩, true) := by
        simp only [unregister, stored, more, if_false]
      simp only [removed, if_true]
      refine ⟨fun ip => ?_, fun call member => ?_⟩
      · rw [VoiceRouting.get, HashMap.lookup_erase_eq]
        by_cases own : ip = clientIp
        · rw [if_pos own, own, held_eq_none.mpr (List.count_eq_zero.mp gone)]
          rfl
        · rw [if_neg own, others ip own, ← VoiceRouting.get, accounts.1 ip]
      · rcases List.mem_cons.mp member with rfl | old
        · exact gone
        · exact accounts.2 call old
  next => cases stepped

private theorem accounts_evictIdle (accounts : Accounts s) {now : Instant}
    (stepped : s.step (.evictIdle now) = some s') :
    Accounts s' ↔ ∀ e ∈ s.routing.entries.entries, e.1 ∈ s.live → keeps now e.2 := by
  cases stepped
  constructor
  · rintro after ⟨ip, entry⟩ member live
    have stored : s.routing.get ip = some entry := HashMap.mem_entries_iff.mp member
    have kept := after.1 ip
    rw [get_evictIdle, stored, held_of_mem live] at kept
    by_contra dropped
    rw [Option.filter_some_neg (eq_false_of_ne_true dropped)] at kept
    cases kept
  · intro spared
    refine ⟨fun ip => ?_, accounts.2⟩
    rw [get_evictIdle, ← accounts.1 ip]
    cases stored : s.routing.get ip with
    | none => rfl
    | some entry =>
      have live : ip ∈ s.live := by
        by_contra absent
        have none_held := accounts.1 ip
        rw [held_eq_none.mpr absent, stored] at none_held
        cases none_held
      rw [Option.filter_some_pos (spared ⟨ip, entry⟩ (HashMap.mem_entries_iff.mpr stored) live)]

theorem accounts_step {call : VoiceCall} (accounts : Accounts s)
    (stepped : s.step call = some s') : Accounts s' ↔ SparesHeld s call := by
  cases call with
  | register now clientIp host backend => exact accounts_register accounts stepped
  | unregister clientIp =>
    exact iff_of_true (accounts_unregister accounts stepped) trivial
  | resolve now clientIp =>
    cases stepped
    refine iff_of_true ⟨fun ip => ?_, accounts.2⟩ trivial
    have refs := congrArg (Option.map UInt32.toNat) (refs_resolve s.routing now clientIp ip)
    simp only [Option.map_map] at refs
    exact refs.trans (accounts.1 ip)
  | evictIdle now => exact accounts_evictIdle accounts stepped

/-- Along a run of calls the accounting is right throughout exactly if no sweep drops the
entry of an IP with a live connection (and the counter does not overflow). -/
theorem accounts_iff_sparesHeld {calls : List VoiceCall} {last : VoiceHolds}
    (ran : run step start calls = some last) :
    Always step Accounts start calls ↔ Guarded step SparesHeld start calls := by
  apply always_iff_guarded_of_keep_iff (fun s call s' => accounts_step) ?_ ran
  refine ⟨fun ip => rfl, fun call member => ?_⟩
  cases member

def playerIp : Text := "203.0.113.7".toList

def voiceBackend : SocketAddr := ⟨.v4 ⟨10, 0, 0, 5⟩, 24454⟩

/-- A registration at second `t`. -/
def registerAt (t : Nat) : VoiceCall :=
  .register (t * 1000000000) playerIp "play.example.com".toList voiceBackend

/-- Two players of one IP, one of which looks the entry up between two sweeps. -/
theorem accounts_while_looked_up :
    Always step Accounts start
      [registerAt 0, registerAt 60, .evictIdle (600 * 1000000000),
        .resolve (900 * 1000000000) playerIp, .evictIdle (1200 * 1000000000),
        .unregister playerIp, .unregister playerIp] :=
  (accounts_iff_sparesHeld rfl).mpr (by decide)

/-- A sweep drops the entry of two live connections, and the hook is called when the first
of them leaves. -/
theorem hook_called_for_live_ip :
    ¬ ∀ (calls : List VoiceCall) (last : VoiceHolds),
      run step start calls = some last → Accounts last := by
  intro always
  have accounts := always
    [registerAt 0, registerAt 60, .evictIdle (1200 * 1000000000), .unregister playerIp] _ rfl
  have last_one := accounts.2 (playerIp, 1) (List.mem_singleton.mpr rfl)
  exact absurd last_one (by decide)

end VoiceHolds

end MCGate
