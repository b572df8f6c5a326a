import MCGate.Lib.Machine
import MCGate.Std.HashMap
import MCGate.Std.Text
import MCGate.Std.Time

/-!
# Banned addresses

`IpBanList` counts the violations of each source IP and bans it for a while once there are
too many. A manual ban and an automatic one write the same field, and the later one wins
whichever of them ends first. `SparesLonger` is exactly what a call must meet so that no
ban ends early.
-/
namespace MCGate

structure Offender where
  violationsSince : Instant
  violationCount : UInt32
  bannedUntil : Option Instant
  deriving DecidableEq, Repr

structure IpBanList where
  offenders : HashMap Text Offender

namespace IpBanList

def maxTrackedIps : Nat := 250000

def forgetAfter : Nat := 3600 * nanosPerSecond

def empty : IpBanList := ⟨∅⟩

/-- Drops a ban that has ended. -/
def isBanned (self : IpBanList) (now : Instant) (ip : Text) : IpBanList × Bool :=
  match (self.offenders.lookup ip).map Offender.bannedUntil with
  | some (some until_) =>
    if now < until_ then (self, true) else (⟨self.offenders.erase ip⟩, false)
  | some none => (self, false)
  | none => (self, false)

def ban (self : IpBanList) (now : Instant) (ip : Text) (duration : Nat) : IpBanList :=
  let o := (self.offenders.lookup ip).getD ⟨now, 0, none⟩
  ⟨self.offenders.insert ip { o with bannedUntil := some (now + duration) }⟩

/-- The offender a violation is counted for: a new one where the IP is not tracked, and
from zero where the window has passed. -/
def counted (self : IpBanList) (now : Instant) (ip : Text) (window : Nat) : Offender :=
  let o := (self.offenders.lookup ip).getD ⟨now, 0, none⟩
  if window ≤ now - o.violationsSince then { o with violationsSince := now, violationCount := 0 }
  else o

/-- The table is full, and a new IP is not tracked. -/
def failsOpen (self : IpBanList) (ip : Text) : Bool :=
  maxTrackedIps ≤ self.offenders.entries.length ∧ (self.offenders.lookup ip).isNone

def recordViolation (self : IpBanList) (now : Instant) (ip : Text) (maxViolations : UInt32)
    (window banDuration : Nat) : IpBanList × Bool :=
  if self.failsOpen ip then (self, false)
  else
    let o := self.counted now ip window
    let count := o.violationCount + 1
    if maxViolations ≤ count then
      (⟨self.offenders.insert ip ⟨now, 0, some (now + banDuration)⟩⟩, true)
    else (⟨self.offenders.insert ip { o with violationCount := count }⟩, false)

/-- The banned IPs with the seconds they have left, the longest first. -/
def activeBans (self : IpBanList) (now : Instant) : List (Text × Nat) :=
  let bans := self.offenders.entries.filterMap fun entry =>
    match entry.2.bannedUntil with
    | none => none
    | some until_ =>
      if now < until_ then some (entry.1, (until_ - now) / nanosPerSecond) else none
  bans.mergeSort fun a b => b.2 ≤ a.2

def unban (self : IpBanList) (now : Instant) (ip : Text) : IpBanList × Bool :=
  match self.offenders.lookup ip with
  | none => (self, false)
  | some o => (⟨self.offenders.erase ip⟩, o.bannedUntil.any fun until_ => now < until_)

def sweep (self : IpBanList) (now : Instant) : IpBanList :=
  ⟨self.offenders.retain fun _ o =>
    o.bannedUntil.any (fun until_ => now < until_) || now - o.violationsSince < forgetAfter⟩

/-! ### When a ban ends -/

/-- The end of the ban of an IP, whether or not it has passed. -/
def banEnd (self : IpBanList) (ip : Text) : Option Instant :=
  (self.offenders.lookup ip).bind Offender.bannedUntil

variable (self : IpBanList) (now : Instant) (ip other : Text)

theorem isBanned_iff : (self.isBanned now ip).2 ↔ ∃ until_ ∈ self.banEnd ip, now < until_ := by
  unfold isBanned banEnd
  cases self.offenders.lookup ip with
  | none => simp
  | some o =>
    cases until_ : o.bannedUntil with
    | none => simp [until_]
    | some u =>
      by_cases active : now < u <;> simp [until_, active]

/-- The listed IPs are the banned ones. -/
theorem mem_activeBans_iff :
    (∃ seconds, (ip, seconds) ∈ self.activeBans now) ↔ (self.isBanned now ip).2 := by
  rw [isBanned_iff]
  simp only [activeBans, List.mem_mergeSort, List.mem_filterMap, banEnd]
  constructor
  · rintro ⟨seconds, ⟨key, o⟩, member, listed⟩
    split at listed
    · cases listed
    next until_ field =>
      obtain ⟨active, same⟩ := Option.ite_none_right_eq_some.mp listed
      cases same
      refine ⟨until_, ?_, active⟩
      rw [HashMap.mem_entries_iff.mp member]
      exact field
  · rintro ⟨until_, known, active⟩
    obtain ⟨o, stored, field⟩ := Option.bind_eq_some_iff.mp known
    refine ⟨(until_ - now) / nanosPerSecond, ⟨ip, o⟩, HashMap.mem_entries_iff.mpr stored, ?_⟩
    simp only [field, active, if_true]

theorem banEnd_ban (duration : Nat) :
    (self.ban now ip duration).banEnd other =
      if other = ip then some (now + duration) else self.banEnd other := by
  unfold ban banEnd
  rw [HashMap.lookup_insert_eq]
  split <;> rfl

theorem banEnd_unban :
    (self.unban now ip).1.banEnd other = if other = ip then none else self.banEnd other := by
  unfold unban
  split
  next untracked =>
    by_cases same : other = ip
    · rw [if_pos same, same, banEnd, untracked]
      rfl
    · rw [if_neg same]
  next o _ =>
    unfold banEnd
    rw [HashMap.lookup_erase_eq]
    split <;> rfl

/-- The violation is the one that bans its IP. -/
def reachesLimit (maxViolations : UInt32) (window : Nat) : Prop :=
  ¬ self.failsOpen ip ∧ maxViolations ≤ (self.counted now ip window).violationCount + 1

instance (maxViolations : UInt32) (window : Nat) :
    Decidable (self.reachesLimit now ip maxViolations window) :=
  inferInstanceAs (Decidable (_ ∧ _))

private theorem banEnd_counted (window : Nat) :
    (self.counted now ip window).bannedUntil = self.banEnd ip := by
  unfold counted banEnd
  cases self.offenders.lookup ip with
  | none => dsimp only [Option.getD_none]; split <;> rfl
  | some o => dsimp only [Option.getD_some]; split <;> rfl

theorem banEnd_recordViolation (maxViolations : UInt32) (window banDuration : Nat) :
    (self.recordViolation now ip maxViolations window banDuration).1.banEnd other =
      if other = ip ∧ self.reachesLimit now ip maxViolations window then some (now + banDuration)
      else self.banEnd other := by
  unfold recordViolation reachesLimit
  by_cases full : self.failsOpen ip
  · simp [full]
  · by_cases reached : maxViolations ≤ (self.counted now ip window).violationCount + 1
    · simp only [full, reached, Bool.false_eq_true, if_false, if_true, not_false_eq_true, and_true]
      rw [banEnd, HashMap.lookup_insert_eq]
      split <;> rfl
    · simp only [full, reached, Bool.false_eq_true, if_false, and_false]
      rw [banEnd, HashMap.lookup_insert_eq]
      split
      next same =>
        rw [same]
        exact self.banEnd_counted now ip window
      next => rfl

theorem recordViolation_iff (maxViolations : UInt32) (window banDuration : Nat) :
    (self.recordViolation now ip maxViolations window banDuration).2 ↔
      self.reachesLimit now ip maxViolations window := by
  unfold recordViolation reachesLimit
  by_cases full : self.failsOpen ip
  · simp [full]
  · by_cases reached : maxViolations ≤ (self.counted now ip window).violationCount + 1 <;>
      simp [full, reached]

/-- A query or a sweep leaves every ban that has not ended. -/
theorem banEnd_isBanned {until_ : Instant} (banned : self.banEnd other = some until_)
    (active : now < until_) : (self.isBanned now ip).1.banEnd other = some until_ := by
  unfold isBanned
  split
  next u found =>
    split
    · exact banned
    next ended =>
      have apart : other ≠ ip := by
        rintro rfl
        have same : self.banEnd other = some u := by
          obtain ⟨o, stored, field⟩ := Option.map_eq_some_iff.mp found
          rw [banEnd, stored]
          exact field
        cases banned.symm.trans same
        exact ended active
      unfold banEnd
      rw [HashMap.lookup_erase_eq, if_neg apart]
      exact banned
  next => exact banned
  next => exact banned

theorem banEnd_sweep {until_ : Instant} (banned : self.banEnd other = some until_)
    (active : now < until_) : (self.sweep now).banEnd other = some until_ := by
  obtain ⟨o, stored, field⟩ := Option.bind_eq_some_iff.mp banned
  unfold sweep banEnd
  rw [HashMap.lookup_retain, stored, Option.filter_some_pos]
  · exact field
  · simp [field, active]

/-- Neither makes up a ban. -/
theorem banEnd_of_isBanned {until_ : Instant}
    (banned : (self.isBanned now ip).1.banEnd other = some until_) :
    self.banEnd other = some until_ := by
  unfold isBanned at banned
  split at banned
  next u found =>
    split at banned
    · exact banned
    · unfold banEnd at banned
      rw [HashMap.lookup_erase_eq] at banned
      split at banned
      · cases banned
      · exact banned
  next => exact banned
  next => exact banned

theorem banEnd_of_sweep {until_ : Instant} (banned : (self.sweep now).banEnd other = some until_) :
    self.banEnd other = some until_ := by
  unfold sweep banEnd at banned
  rw [HashMap.lookup_retain] at banned
  obtain ⟨o, kept, field⟩ := Option.bind_eq_some_iff.mp banned
  rw [banEnd, (Option.filter_eq_some_iff.mp kept).1]
  exact field

end IpBanList

/-! ### Calls over time -/

inductive BanCall where
  | ban (now : Instant) (ip : Text) (duration : Nat)
  | recordViolation (now : Instant) (ip : Text) (maxViolations : UInt32)
      (window banDuration : Nat)
  | isBanned (now : Instant) (ip : Text)
  | activeBans (now : Instant)
  | unban (now : Instant) (ip : Text)
  | sweep (now : Instant)
  deriving DecidableEq, Repr

def BanCall.now : BanCall → Instant
  | .ban now _ _ | .recordViolation now _ _ _ _ | .isBanned now _ | .activeBans now
  | .unban now _ | .sweep now => now

/-- The list with the time of the last call. `imposed` are the bans, each with its end, that
were imposed since the last `ban` or `unban` of their IP; only the statements read it. -/
structure BanHistory where
  list : IpBanList
  clock : Instant
  imposed : List (Text × Instant)

namespace BanHistory

open Machine IpBanList

def start : BanHistory := ⟨.empty, 0, []⟩

/-- The bans of every other IP. -/
def lift (imposed : List (Text × Instant)) (ip : Text) : List (Text × Instant) :=
  imposed.filter fun entry => entry.1 ≠ ip

/-- One call; time does not go back. -/
def step (s : BanHistory) (call : BanCall) : Option BanHistory :=
  if call.now < s.clock then none
  else match call with
    | .ban now ip duration =>
      some ⟨s.list.ban now ip duration, now, (ip, now + duration) :: lift s.imposed ip⟩
    | .recordViolation now ip maxViolations window banDuration =>
      let (list, banned) := s.list.recordViolation now ip maxViolations window banDuration
      some ⟨list, now, if banned then (ip, now + banDuration) :: s.imposed else s.imposed⟩
    | .isBanned now ip => some ⟨(s.list.isBanned now ip).1, now, s.imposed⟩
    | .activeBans now => some ⟨s.list, now, s.imposed⟩
    | .unban now ip => some ⟨(s.list.unban now ip).1, now, lift s.imposed ip⟩
    | .sweep now => some ⟨s.list.sweep now, now, s.imposed⟩

/-- An IP is banned at every time before the end of a ban that was imposed on it. -/
def BansLast (s : BanHistory) : Prop :=
  ∀ ban ∈ s.imposed, ∀ t, s.clock ≤ t → t < ban.2 → (s.list.isBanned t ban.1).2

/-- A violation that bans an IP which is banned already does not end before that ban. -/
def SparesLonger (s : BanHistory) : BanCall → Prop
  | .recordViolation now ip maxViolations window banDuration =>
    s.list.reachesLimit now ip maxViolations window →
      ∀ until_ ∈ s.list.banEnd ip, now < until_ → until_ ≤ now + banDuration
  | _ => True

instance (s : BanHistory) (call : BanCall) : Decidable (SparesLonger s call) :=
  match call with
  | .recordViolation now ip maxViolations window banDuration =>
    inferInstanceAs (Decidable (s.list.reachesLimit now ip maxViolations window →
      ∀ until_ ∈ s.list.banEnd ip, now < until_ → until_ ≤ now + banDuration))
  | .ban _ _ _ | .isBanned _ _ | .activeBans _ | .unban _ _ | .sweep _ => isTrue trivial

/-- What the list knows of bans was imposed. -/
def Imposed (s : BanHistory) : Prop :=
  ∀ ip until_, s.list.banEnd ip = some until_ → (ip, until_) ∈ s.imposed

private theorem bansLast_iff {s : BanHistory} :
    BansLast s ↔ ∀ ban ∈ s.imposed, s.clock < ban.2 →
      ∃ until_, s.list.banEnd ban.1 = some until_ ∧ ban.2 ≤ until_ := by
  constructor
  · intro lasts ban member active
    -- asked right before the ban should end, the list still says so
    have last : s.clock ≤ ban.2 - 1 := Nat.le_sub_one_of_lt active
    have early : ban.2 - 1 < ban.2 := Nat.sub_one_lt (Nat.ne_zero_of_lt active)
    obtain ⟨until_, known, after⟩ := (isBanned_iff _ _ _).mp (lasts ban member _ last early)
    exact ⟨until_, known, Nat.le_of_pred_lt after⟩
  · intro known ban member t begun early
    obtain ⟨until_, stored, later⟩ := known ban member (Nat.lt_of_le_of_lt begun early)
    exact (isBanned_iff _ _ _).mpr ⟨until_, stored, Nat.lt_of_lt_of_le early later⟩

private theorem mem_lift {imposed : List (Text × Instant)} {ip : Text} {ban : Text × Instant} :
    ban ∈ lift imposed ip ↔ ban ∈ imposed ∧ ban.1 ≠ ip := by
  rw [lift, List.mem_filter, decide_eq_true_iff]

/-- What a call does to the ends of the bans and to the bans imposed. -/
inductive Effect (s : BanHistory) (call : BanCall) : BanHistory → Prop
  | explicit (ip : Text) (until_ : Option Instant) (list : IpBanList)
      (ends : ∀ other, list.banEnd other = if other = ip then until_ else s.list.banEnd other)
      (free : SparesLonger s call) :
      Effect s call ⟨list, call.now, (until_.map (Prod.mk ip)).toList ++ lift s.imposed ip⟩
  | violation (ip : Text) (banDuration : Nat) (list : IpBanList)
      (ends : ∀ other,
        list.banEnd other = if other = ip then some (call.now + banDuration)
          else s.list.banEnd other)
      (spares : SparesLonger s call ↔
        ∀ until_ ∈ s.list.banEnd ip, call.now < until_ → until_ ≤ call.now + banDuration) :
      Effect s call ⟨list, call.now, (ip, call.now + banDuration) :: s.imposed⟩
  | quiet (list : IpBanList)
      (kept : ∀ ip until_, s.list.banEnd ip = some until_ → call.now < until_ →
        list.banEnd ip = some until_)
      (old : ∀ ip until_, list.banEnd ip = some until_ → s.list.banEnd ip = some until_)
      (free : SparesLonger s call) :
      Effect s call ⟨list, call.now, s.imposed⟩

theorem step_effect {s s' : BanHistory} {call : BanCall} (stepped : s.step call = some s') :
    s.clock ≤ call.now ∧ Effect s call s' := by
  unfold step at stepped
  split at stepped
  next => cases stepped
  next forth =>
    refine ⟨Nat.le_of_not_lt forth, ?_⟩
    cases call with
    | ban now ip duration =>
      cases stepped
      exact .explicit ip (some (now + duration)) _
        (fun other => s.list.banEnd_ban now ip other duration) trivial
    -- whether it bans is `recordViolation_iff`, and until when is `banEnd_recordViolation`
    | recordViolation now ip maxViolations window banDuration =>
      have ends (other : Text) :=
        s.list.banEnd_recordViolation now ip other maxViolations window banDuration
      have banned_iff := s.list.recordViolation_iff now ip maxViolations window banDuration
      dsimp only at stepped
      generalize s.list.recordViolation now ip maxViolations window banDuration = result
        at stepped ends banned_iff
      obtain ⟨list, banned⟩ := result
      cases banned with
      | true =>
        cases stepped
        have reached := banned_iff.mp rfl
        refine .violation ip banDuration list (fun other => ?_) ?_
        · rw [ends other]
          simp only [reached, and_true]
          rfl
        · exact ⟨fun spares => spares reached, fun spares _ => spares⟩
      | false =>
        cases stepped
        have below : ¬ s.list.reachesLimit now ip maxViolations window := fun reached =>
          Bool.false_ne_true (banned_iff.mpr reached)
        -- below the limit only the violations have changed, and no ban
        have same (other : Text) : list.banEnd other = s.list.banEnd other := by
          simpa only [below, and_false, if_false] using ends other
        refine .quiet list ?_ ?_ fun reached => absurd reached below
        · intro other until_ known _
          rw [same, known]
        · intro other until_ known
          rw [← same, known]
    | isBanned now ip =>
      cases stepped
      refine .quiet _ ?_ ?_ trivial
      · exact fun other until_ => s.list.banEnd_isBanned now ip other
      · exact fun other until_ => s.list.banEnd_of_isBanned now ip other
    | activeBans now =>
      cases stepped
      exact .quiet _ (fun _ _ known _ => known) (fun _ _ known => known) trivial
    | unban now ip =>
      cases stepped
      exact .explicit ip none _ (fun other => s.list.banEnd_unban now ip other) trivial
    | sweep now =>
      cases stepped
      refine .quiet _ ?_ ?_ trivial
      · exact fun other until_ => s.list.banEnd_sweep now other
      · exact fun other until_ => s.list.banEnd_of_sweep now other

private theorem step_imposed {s s' : BanHistory} {call : BanCall} (imposed : Imposed s)
    (stepped : s.step call = some s') : Imposed s' := by
  intro other until_ known
  cases (step_effect stepped).2 with
  | explicit ip end_ list ends free =>
    rw [ends] at known
    split at known
    next same =>
      subst same known
      exact List.mem_append_left _ (by simp)
    next apart =>
      exact List.mem_append_right _ (mem_lift.mpr ⟨imposed other until_ known, apart⟩)
  | violation ip banDuration list ends spares =>
    rw [ends] at known
    split at known
    next same =>
      cases known
      rw [same]
      exact List.mem_cons_self
    next => exact List.mem_cons_of_mem _ (imposed other until_ known)
  | quiet list kept old free => exact imposed other until_ (old other until_ known)

/-- Whether all bans last after a call, when they did before it. -/
theorem bansLast_step_iff {s s' : BanHistory} {call : BanCall} (imposed : Imposed s)
    (lasts : BansLast s) (stepped : s.step call = some s') :
    BansLast s' ↔ SparesLonger s call := by
  obtain ⟨forth, effect⟩ := step_effect stepped
  have before := bansLast_iff.mp lasts
  rw [bansLast_iff]
  cases effect with
  | explicit ip end_ list ends free =>
    refine iff_of_true ?_ free
    intro ban member active
    rcases List.mem_append.mp member with new | old
    · obtain ⟨until_, imposed_, same⟩ := Option.map_eq_some_iff.mp (Option.mem_toList.mp new)
      subst imposed_ same
      exact ⟨until_, by rw [ends, if_pos rfl], Nat.le_refl _⟩
    · obtain ⟨member, apart⟩ := mem_lift.mp old
      obtain ⟨until_, known, later⟩ := before ban member (Nat.lt_of_le_of_lt forth active)
      exact ⟨until_, by rw [ends, if_neg apart, known], later⟩
  | violation ip banDuration list ends spares =>
    rw [spares]
    constructor
    · intro after until_ known active
      -- the ban that is overwritten was imposed, and has to last
      have member := List.mem_cons_of_mem (ip, call.now + banDuration) (imposed ip until_ known)
      obtain ⟨end_, stored, later⟩ := after (ip, until_) member active
      rw [ends, if_pos rfl] at stored
      cases stored
      exact later
    · intro spares ban member active
      rcases List.mem_cons.mp member with rfl | old
      · exact ⟨_, by rw [ends, if_pos rfl], Nat.le_refl _⟩
      · obtain ⟨until_, known, later⟩ := before ban old (Nat.lt_of_le_of_lt forth active)
        by_cases same : ban.1 = ip
        · rw [same] at known
          have longer := spares until_ known (Nat.lt_of_lt_of_le active later)
          exact ⟨_, by rw [ends, if_pos same], Nat.le_trans later longer⟩
        · exact ⟨until_, by rw [ends, if_neg same, known], later⟩
  | quiet list kept old free =>
    refine iff_of_true ?_ free
    intro ban member active
    obtain ⟨until_, known, later⟩ := before ban member (Nat.lt_of_le_of_lt forth active)
    exact ⟨until_, kept _ _ known (Nat.lt_of_lt_of_le active later), later⟩

/-- Every ban lasts to its end exactly in the runs in which no violation sets an earlier end
over a ban that is still active. -/
theorem bansLast_iff_sparesLonger (calls : List BanCall) (last : BanHistory)
    (ran : run step start calls = some last) :
    Always step BansLast start calls ↔ Guarded step SparesLonger start calls := by
  refine always_iff_guarded (fun _ _ _ => step_imposed)
    (fun _ _ _ => bansLast_step_iff) ?_ ?_ ran
  · intro ip until_ known
    cases known
  · intro ban member
    cases member

def minutes (n : Nat) : Nat := n * 60 * nanosPerSecond

def intruder : Text := "203.0.113.9".toList

/-- A violation bans for ten minutes, and again, longer, while that ban is active. -/
theorem bansLast_when_extended :
    Always step BansLast start
      [.recordViolation 0 intruder 1 (minutes 1) (minutes 10),
        .recordViolation (minutes 5) intruder 1 (minutes 1) (minutes 10),
        .isBanned (minutes 12) intruder, .sweep (minutes 13), .unban (minutes 14) intruder] := by
  refine (bansLast_iff_sparesLonger _ _ rfl).mpr ?_
  decide

/-- A manual ban for a day is cut short by a violation of a connection that was already
there: after eleven minutes the IP is free. -/
theorem violation_shortens_ban :
    ¬ ∀ (calls : List BanCall) (last : BanHistory), run step start calls = some last →
      BansLast last := by
  intro always
  have lasts := always
    [.ban 0 intruder (minutes 1440),
      .recordViolation (minutes 1) intruder 1 (minutes 1) (minutes 10)] _ rfl
  have banned := lasts (intruder, minutes 1440) (by decide) (minutes 11) (by decide) (by decide)
  exact absurd banned (by decide)

end BanHistory

end MCGate
