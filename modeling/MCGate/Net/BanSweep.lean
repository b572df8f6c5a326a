import Mathlib.Data.Multiset.Basic
import MCGate.Net.IpBan

/-!
# What a sweep takes away

`sweep` drops the offenders that are old and not banned, so that the table does not grow. The
calls in between should not notice. They do: the horizon of the sweep is fixed while the window
in which violations add up is configured, and an ended ban that is still in the table takes the
violations after it along when `is_banned` clears it. Both lists are run side by side here, one
with the sweeps and one without. Their answers agree as long as each violation is counted for an
offender that no sweep has changed, or for one that is dropped and would start over anyway.
-/
namespace MCGate

/-- What `record_ip_violation` passes on of `AutoBanConfig`. -/
structure BanPolicy where
  maxViolations : UInt32
  window : Nat
  banDuration : Nat

/-- A call whose answer a caller sees. -/
inductive BanRequest where
  | recordViolation (ip : Text)
  | isBanned (ip : Text)
  | ban (ip : Text) (duration : Nat)
  | unban (ip : Text)
  | activeBans

inductive BanAnswer where
  | unit
  | bool (answer : Bool)
  /-- the order among bans with as many seconds left is the one of the table -/
  | bans (left : Multiset (Text × Nat))

/-- A call at some time; a sweep answers nothing. -/
inductive SweepEvent where
  | request (now : Instant) (request : BanRequest)
  | sweep (now : Instant)

def SweepEvent.now : SweepEvent → Instant
  | .request now _ | .sweep now => now

def SweepEvent.isSweep : SweepEvent → Bool
  | .request _ _ => false
  | .sweep _ => true

namespace IpBanList

def answer (policy : BanPolicy) (self : IpBanList) (now : Instant) :
    BanRequest → IpBanList × BanAnswer
  | .recordViolation ip =>
    let (list, banned) :=
      self.recordViolation now ip policy.maxViolations policy.window policy.banDuration
    (list, .bool banned)
  | .isBanned ip =>
    let (list, banned) := self.isBanned now ip
    (list, .bool banned)
  | .ban ip duration => (self.ban now ip duration, .unit)
  | .unban ip =>
    let (list, banned) := self.unban now ip
    (list, .bool banned)
  | .activeBans => (self, .bans (self.activeBans now))

/-- What the calls answer, one after another. -/
def answers (policy : BanPolicy) : IpBanList → List SweepEvent → List BanAnswer
  | _, [] => []
  | self, .request now request :: events =>
    (self.answer policy now request).2 :: answers policy (self.answer policy now request).1 events
  | self, .sweep now :: events => answers policy (self.sweep now) events

end IpBanList

/-- The same calls without the sweeps. -/
def withoutSweeps (events : List SweepEvent) : List SweepEvent :=
  events.filter fun event => !event.isSweep

/-- The list with the sweeps and the one without, at the time of the last call. -/
structure SideBySide where
  swept : IpBanList
  unswept : IpBanList
  clock : Instant

namespace SideBySide

open Machine IpBanList

def start : SideBySide := ⟨.empty, .empty, 0⟩

/-- Both lists take a call; time does not go back. -/
def step (policy : BanPolicy) (s : SideBySide) (event : SweepEvent) : Option SideBySide :=
  if event.now < s.clock then none
  else match event with
    | .request now request => some ⟨(s.swept.answer policy now request).1,
        (s.unswept.answer policy now request).1, now⟩
    | .sweep now => some ⟨s.swept.sweep now, s.unswept, now⟩

/-- Neither table is full. -/
def Roomy (s : SideBySide) (_ : SweepEvent) : Prop :=
  s.swept.offenders.entries.length < maxTrackedIps ∧
    s.unswept.offenders.entries.length < maxTrackedIps

/-- A violation is counted for the offender that would be there without sweeps. If that one was
dropped, it is not banned and its window is over. -/
def Unharmed (policy : BanPolicy) (s : SideBySide) : SweepEvent → Prop
  | .request now (.recordViolation ip) =>
    s.swept.offenders.lookup ip = s.unswept.offenders.lookup ip ∨
      s.swept.offenders.lookup ip = none ∧ ∀ o ∈ s.unswept.offenders.lookup ip,
        o.bannedUntil = none ∧ policy.window ≤ now - o.violationsSince
  | _ => True

instance (s : SideBySide) (event : SweepEvent) : Decidable (Roomy s event) :=
  inferInstanceAs (Decidable (_ ∧ _))

instance (policy : BanPolicy) (s : SideBySide) (event : SweepEvent) :
    Decidable (Unharmed policy s event) := by
  unfold Unharmed
  split <;> infer_instance

end SideBySide

/-! ### The bans that are left -/

namespace IpBanList

/-- The end of the ban of an IP that is banned at `now`. -/
def activeEnd (self : IpBanList) (now : Instant) (ip : Text) : Option Instant :=
  (self.banEnd ip).filter fun until_ => now < until_

variable {self other : IpBanList} {now later : Instant} {ip : Text}

private theorem activeEnd_later (forth : now ≤ later) :
    self.activeEnd later ip = (self.activeEnd now ip).filter fun until_ => later < until_ := by
  unfold activeEnd
  rw [Option.filter_filter]
  congr 1
  funext until_
  rw [Bool.eq_iff_iff, Bool.and_eq_true, decide_eq_true_iff, decide_eq_true_iff]
  constructor
  · intro active
    exact ⟨Nat.lt_of_le_of_lt forth active, active⟩
  · exact And.right

private theorem isBanned_eq_isSome : (self.isBanned now ip).2 = (self.activeEnd now ip).isSome := by
  rw [Bool.eq_iff_iff, isBanned_iff, activeEnd, Option.isSome_filter, Option.any_eq_true]
  simp only [decide_eq_true_eq, Option.mem_def]

/-- A query changes no ban that is active. -/
theorem activeEnd_isBanned (queried : Text) :
    (self.isBanned now queried).1.activeEnd now ip = self.activeEnd now ip := by
  apply Option.ext
  intro until_
  simp only [activeEnd, Option.filter_eq_some_iff, decide_eq_true_eq]
  constructor
  · rintro ⟨banned, active⟩
    exact ⟨self.banEnd_of_isBanned now queried ip banned, active⟩
  · rintro ⟨banned, active⟩
    exact ⟨self.banEnd_isBanned now queried ip banned active, active⟩

private theorem activeEnd_sweep : (self.sweep now).activeEnd now ip = self.activeEnd now ip := by
  apply Option.ext
  intro until_
  simp only [activeEnd, Option.filter_eq_some_iff, decide_eq_true_eq]
  constructor
  · rintro ⟨banned, active⟩
    exact ⟨self.banEnd_of_sweep now ip banned, active⟩
  · rintro ⟨banned, active⟩
    exact ⟨self.banEnd_sweep now ip banned active, active⟩

private theorem unban_eq_isSome : (self.unban now ip).2 = (self.activeEnd now ip).isSome := by
  unfold unban activeEnd banEnd
  cases self.offenders.lookup ip with
  | none => rfl
  | some o => rw [Option.isSome_filter]; rfl

/-- What is listed of the bans: each IP that is banned, once. -/
theorem mem_bans_iff {entry : Text × Nat} :
    entry ∈ self.activeBans now ↔
      ∃ until_, self.activeEnd now entry.1 = some until_ ∧
        entry.2 = (until_ - now) / nanosPerSecond := by
  obtain ⟨ip, seconds⟩ := entry
  simp only [activeBans, List.mem_mergeSort, List.mem_filterMap, activeEnd, banEnd,
    Option.filter_eq_some_iff, decide_eq_true_eq, Option.bind_eq_some_iff]
  constructor
  · rintro ⟨⟨key, o⟩, member, listed⟩
    split at listed
    · cases listed
    next until_ field =>
      obtain ⟨active, same⟩ := Option.ite_none_right_eq_some.mp listed
      cases same
      exact ⟨until_, ⟨⟨o, HashMap.mem_entries_iff.mp member, field⟩, active⟩, rfl⟩
  · rintro ⟨until_, ⟨⟨o, stored, field⟩, active⟩, rfl⟩
    refine ⟨⟨ip, o⟩, HashMap.mem_entries_iff.mpr stored, ?_⟩
    simp only [field, active, if_true]

private theorem nodup_activeBans : (self.activeBans now).Nodup := by
  unfold activeBans
  refine (List.mergeSort_perm _ _).nodup_iff.mpr ?_
  refine List.pairwise_filterMap.mpr ?_
  refine (List.nodupKeys_iff_pairwise.mp self.offenders.nodupKeys).imp ?_
  -- an IP is listed for its own offender only
  rintro one two apart entry listed _ listed' rfl
  split at listed
  · cases listed
  · obtain ⟨-, own⟩ := Option.ite_none_right_eq_some.mp listed
    cases own
    split at listed'
    · cases listed'
    · obtain ⟨-, same⟩ := Option.ite_none_right_eq_some.mp listed'
      have keys := congrArg Prod.fst (Option.some.inj same)
      exact apart keys.symm

/-- Two lists in which the same IPs are banned. -/
def SameBans (self other : IpBanList) (now : Instant) : Prop :=
  ∀ ip, self.activeEnd now ip = other.activeEnd now ip

theorem SameBans.activeBans (same : SameBans self other now) :
    (self.activeBans now : Multiset (Text × Nat)) = other.activeBans now := by
  refine Multiset.coe_eq_coe.mpr ?_
  refine (List.perm_ext_iff_of_nodup nodup_activeBans nodup_activeBans).mpr fun entry => ?_
  rw [mem_bans_iff, mem_bans_iff, same entry.1]

/-- The bans that are over at a later time are over in both. -/
theorem SameBans.mono (same : SameBans self other now) (forth : now ≤ later) :
    SameBans self other later := by
  intro ip
  rw [activeEnd_later forth, activeEnd_later forth, same ip]

/-- The bans agree where the ends of all bans change alike. -/
theorem SameBans.of_banEnd {self' other' : IpBanList} (same : SameBans self other now)
    (set : Text → Option (Option Instant))
    (ends : ∀ ip, self'.banEnd ip = (set ip).getD (self.banEnd ip))
    (ends' : ∀ ip, other'.banEnd ip = (set ip).getD (other.banEnd ip)) :
    SameBans self' other' now := by
  intro ip
  unfold activeEnd
  rw [ends, ends']
  cases set ip with
  | none => exact same ip
  | some until_ => rfl

theorem SameBans.ban (same : SameBans self other now) (banned : Text) (duration : Nat) :
    SameBans (self.ban now banned duration) (other.ban now banned duration) now := by
  refine same.of_banEnd (fun ip => if ip = banned then some (some (now + duration)) else none) ?_ ?_
  all_goals
    intro ip
    rw [banEnd_ban]
    split <;> rfl

theorem SameBans.unban (same : SameBans self other now) (freed : Text) :
    SameBans (self.unban now freed).1 (other.unban now freed).1 now := by
  refine same.of_banEnd (fun ip => if ip = freed then some none else none) ?_ ?_
  all_goals
    intro ip
    rw [banEnd_unban]
    split <;> rfl

/-- Whether a violation bans its IP depends on nothing but the offender it is counted for. -/
theorem reachesLimit_congr {maxViolations : UInt32} {window : Nat}
    (room : ¬ self.failsOpen ip) (room' : ¬ other.failsOpen ip)
    (counted : self.counted now ip window = other.counted now ip window) :
    self.reachesLimit now ip maxViolations window ↔
      other.reachesLimit now ip maxViolations window := by
  unfold reachesLimit
  rw [counted]
  exact and_congr_left fun _ => iff_of_true room room'

theorem SameBans.recordViolation (same : SameBans self other now) {maxViolations : UInt32}
    {window banDuration : Nat}
    (alike : self.reachesLimit now ip maxViolations window ↔
      other.reachesLimit now ip maxViolations window) :
    SameBans (self.recordViolation now ip maxViolations window banDuration).1
      (other.recordViolation now ip maxViolations window banDuration).1 now := by
  refine same.of_banEnd (fun banned =>
    if banned = ip ∧ other.reachesLimit now ip maxViolations window then
      some (some (now + banDuration)) else none) (fun banned => ?_) fun banned => ?_
  · rw [banEnd_recordViolation]
    simp only [alike]
    split <;> rfl
  · rw [banEnd_recordViolation]
    split <;> rfl

private theorem not_failsOpen (room : self.offenders.entries.length < maxTrackedIps) :
    ¬ self.failsOpen ip := by
  simp only [failsOpen, decide_eq_true_eq, not_and]
  intro full
  exact absurd room (Nat.not_lt_of_le full)

end IpBanList

namespace SideBySide

open Machine IpBanList

variable {policy : BanPolicy} {s s' : SideBySide} {event : SweepEvent}

/-- An offender that starts over is as good as none. -/
theorem counted_eq_of_unharmed {now : Instant} {ip : Text}
    (unharmed : Unharmed policy s (.request now (.recordViolation ip))) :
    s.swept.counted now ip policy.window = s.unswept.counted now ip policy.window := by
  unfold counted
  rcases unharmed with same | ⟨dropped, over'⟩
  · rw [same]
  · -- without an entry the count starts at zero, and so does one that is past its window
    rw [dropped]
    cases stored : s.unswept.offenders.lookup ip with
    | none => rfl
    | some o =>
      obtain ⟨unbanned, past⟩ := over' o stored
      simp only [Option.getD_none, Option.getD_some, if_pos past, unbanned]
      split <;> rfl

/-- Both lists answer a request alike, and the same IPs are banned afterwards. -/
theorem answer_alike {now : Instant} {request : BanRequest}
    (same : SameBans s.swept s.unswept now) (roomy : Roomy s (.request now request))
    (unharmed : Unharmed policy s (.request now request)) :
    (s.swept.answer policy now request).2 = (s.unswept.answer policy now request).2 ∧
      SameBans (s.swept.answer policy now request).1 (s.unswept.answer policy now request).1
        now := by
  cases request with
  | recordViolation ip =>
    have alike := @reachesLimit_congr _ _ _ _ policy.maxViolations _ (not_failsOpen roomy.1)
      (not_failsOpen roomy.2) (counted_eq_of_unharmed unharmed)
    have banned : (s.swept.recordViolation now ip policy.maxViolations policy.window
          policy.banDuration).2 =
        (s.unswept.recordViolation now ip policy.maxViolations policy.window
          policy.banDuration).2 := by
      rw [Bool.eq_iff_iff, recordViolation_iff, recordViolation_iff, alike]
    exact ⟨congrArg BanAnswer.bool banned, same.recordViolation alike⟩
  | isBanned ip =>
    have banned : (s.swept.isBanned now ip).2 = (s.unswept.isBanned now ip).2 := by
      rw [isBanned_eq_isSome, isBanned_eq_isSome, same ip]
    refine ⟨congrArg BanAnswer.bool banned, fun other => ?_⟩
    exact (activeEnd_isBanned ip).trans ((same other).trans (activeEnd_isBanned ip).symm)
  | ban ip duration => exact ⟨rfl, same.ban ip duration⟩
  | unban ip =>
    have banned : (s.swept.unban now ip).2 = (s.unswept.unban now ip).2 := by
      rw [unban_eq_isSome, unban_eq_isSome, same ip]
    exact ⟨congrArg BanAnswer.bool banned, same.unban ip⟩
  | activeBans => exact ⟨congrArg BanAnswer.bans same.activeBans, same⟩

/-- The answers with and without the sweeps, from two lists in which the same IPs are banned. -/
theorem answers_withoutSweeps_of_sameBans {events : List SweepEvent}
    (same : SameBans s.swept s.unswept s.clock)
    (ordered : (s.clock :: events.map SweepEvent.now).Pairwise (· ≤ ·))
    (roomy : Guarded (step policy) Roomy s events)
    (unharmed : Guarded (step policy) (Unharmed policy) s events) :
    s.swept.answers policy events = s.unswept.answers policy (withoutSweeps events) := by
  -- over the calls: a request is answered by both lists, a sweep touches one of them
  induction events generalizing s with
  | nil => rfl
  | cons event events ih =>
    obtain ⟨later, ordered⟩ := List.pairwise_cons.mp ordered
    have forth : s.clock ≤ event.now := later event.now List.mem_cons_self
    have same := same.mono forth
    have goesOn : ¬ event.now < s.clock := Nat.not_lt_of_le forth
    cases event with
    | request now request =>
      obtain ⟨answer, after⟩ := answer_alike same roomy.1 unharmed.1
      have next : step policy s (.request now request) =
          some ⟨(s.swept.answer policy now request).1, (s.unswept.answer policy now request).1,
            now⟩ := by
        rw [step, if_neg goesOn]
      have rest := @ih ⟨_, _, now⟩ after ordered (roomy.2 _ next) (unharmed.2 _ next)
      exact List.cons_eq_cons.mpr ⟨answer, rest⟩
    | sweep now =>
      have next : step policy s (.sweep now) = some ⟨s.swept.sweep now, s.unswept, now⟩ := by
        rw [step, if_neg goesOn]
      -- a sweep drops no ban that is active
      have after : SameBans (s.swept.sweep now) s.unswept now := by
        intro ip
        rw [activeEnd_sweep]
        exact same ip
      exact @ih ⟨_, _, now⟩ after ordered (roomy.2 _ next) (unharmed.2 _ next)

/-- Sweeps change no answer, wherever they stand between the calls, as long as each violation is
counted for an offender that they have not harmed. -/
theorem answers_withoutSweeps (policy : BanPolicy) (events : List SweepEvent)
    (ordered : (events.map SweepEvent.now).Pairwise (· ≤ ·))
    (roomy : Guarded (step policy) Roomy start events)
    (unharmed : Guarded (step policy) (Unharmed policy) start events) :
    IpBanList.empty.answers policy events =
      IpBanList.empty.answers policy (withoutSweeps events) := by
  refine @answers_withoutSweeps_of_sameBans policy start events (fun _ => rfl) ?_ roomy unharmed
  exact List.pairwise_cons.mpr ⟨fun _ _ => Nat.zero_le _, ordered⟩

open BanHistory (minutes intruder)

/-- Ten violations within a minute ban for ten minutes. -/
def defaultPolicy : BanPolicy := ⟨10, minutes 1, minutes 10⟩

/-- An old offender is dropped, and starts over when it comes back. -/
def comesBack : List SweepEvent :=
  [.request 0 (.recordViolation intruder), .sweep (minutes 60),
    .request (minutes 61) (.isBanned intruder),
    .request (minutes 61) (.recordViolation intruder), .request (minutes 62) .activeBans]

theorem answers_comesBack :
    ((comesBack.map SweepEvent.now).Pairwise (· ≤ ·) ∧
      Guarded (step defaultPolicy) Roomy start comesBack ∧
      Guarded (step defaultPolicy) (Unharmed defaultPolicy) start comesBack) ∧
    IpBanList.empty.answers defaultPolicy comesBack =
      IpBanList.empty.answers defaultPolicy (withoutSweeps comesBack) :=
  have ordered : (comesBack.map SweepEvent.now).Pairwise (· ≤ ·) := by decide
  have roomy : Guarded (step defaultPolicy) Roomy start comesBack := by decide
  have unharmed : Guarded (step defaultPolicy) (Unharmed defaultPolicy) start comesBack := by
    decide
  ⟨⟨ordered, roomy, unharmed⟩, answers_withoutSweeps defaultPolicy comesBack ordered roomy unharmed⟩

/-- Two violations within two hours ban for ten minutes. -/
def longWindow : BanPolicy := ⟨2, minutes 120, minutes 10⟩

/-- The second violation comes after 61 minutes, and a sweep before it. -/
def sweptInWindow : List SweepEvent :=
  [.request 0 (.recordViolation intruder), .sweep (minutes 60),
    .request (minutes 61) (.recordViolation intruder)]

theorem sweep_forgets_violation :
    ¬ ∀ (policy : BanPolicy) (events : List SweepEvent),
      (events.map SweepEvent.now).Pairwise (· ≤ ·) →
      Guarded (step policy) Roomy start events →
      IpBanList.empty.answers policy events =
        IpBanList.empty.answers policy (withoutSweeps events) := by
  intro invisible
  have same := invisible longWindow sweptInWindow (by decide) (by decide)
  have swept : IpBanList.empty.answers longWindow sweptInWindow = [.bool false, .bool false] := by
    rfl
  have unswept : IpBanList.empty.answers longWindow (withoutSweeps sweptInWindow) =
      [.bool false, .bool true] := by
    rfl
  rw [swept, unswept] at same
  cases same

end SideBySide

end MCGate
