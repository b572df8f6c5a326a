import MCGate.Net.IpBan

/-!
# No ban without cause

A violation bans its IP when the count in its entry reaches the limit. The count starts over
when the window has passed, with every ban it leads to, and whenever the entry goes: lifted,
swept, or cleared once its ban has ended. Whatever the order of these, the violations that were
counted are calls for that IP, made within one window and since the last ban they led to.
-/
namespace MCGate.BanHistory

open Machine IpBanList

/-- When the IP was reported. -/
def violationTimes (ip : Text) (calls : List BanCall) : List Instant :=
  calls.filterMap fun call =>
    match call with
    | .recordViolation now other _ _ _ => if other = ip then some now else none
    | _ => none

/-- The call is a violation that bans the IP. -/
def Bans (ip : Text) (s : BanHistory) : BanCall → Prop
  | .recordViolation now other maxViolations window banDuration =>
    other = ip ∧ (s.list.recordViolation now other maxViolations window banDuration).2
  | _ => False

/-- Violations of the IP have this limit and this window. -/
def FixedFor (ip : Text) (maxViolations : UInt32) (window : Nat) : BanCall → Prop
  | .recordViolation _ other maxViolations' window' _ =>
    other = ip → maxViolations' = maxViolations ∧ window' = window
  | _ => True

/-! ### What a call does to an entry -/

/-- The entry of an IP after a call, if it has one, by the entry before. -/
inductive Entry (ip : Text) (s : BanHistory) (call : BanCall) (after : Offender) : Prop
  | kept (before : Offender) (tracked : s.list.offenders.lookup ip = some before)
      (since : after.violationsSince = before.violationsSince)
      (count : after.violationCount = before.violationCount)
  | fresh (since : after.violationsSince = call.now) (count : after.violationCount = 0)
  | counted (maxViolations : UInt32) (window banDuration : Nat)
      (violation : call = .recordViolation call.now ip maxViolations window banDuration)
      (below : ¬ maxViolations ≤ (s.list.counted call.now ip window).violationCount + 1)
      (since : after.violationsSince = (s.list.counted call.now ip window).violationsSince)
      (count : after.violationCount = (s.list.counted call.now ip window).violationCount + 1)

variable {ip : Text} {s s' : BanHistory} {call : BanCall}

/-- What an `isBanned` leaves of the entries was there before. -/
theorem lookup_of_isBanned {list : IpBanList} {now : Instant} {other : Text} {after : Offender}
    (tracked : (list.isBanned now other).1.offenders.lookup ip = some after) :
    list.offenders.lookup ip = some after := by
  simp only [isBanned] at tracked
  split at tracked
  · split at tracked
    · exact tracked
    · rw [HashMap.lookup_erase_eq, Option.ite_none_left_eq_some] at tracked
      exact tracked.2
  · exact tracked
  · exact tracked

private theorem lookup_of_unban {list : IpBanList} {now : Instant} {other : Text} {after : Offender}
    (tracked : (list.unban now other).1.offenders.lookup ip = some after) :
    list.offenders.lookup ip = some after := by
  simp only [unban] at tracked
  split at tracked
  · exact tracked
  · rw [HashMap.lookup_erase_eq, Option.ite_none_left_eq_some] at tracked
    exact tracked.2

/-- A violation starts the count of its own IP over when it bans, and adds to it otherwise. -/
theorem entry_of_violation {now : Instant} {other : Text} {maxViolations : UInt32}
    {window banDuration : Nat} {after : Offender}
    (tracked :
      (s.list.recordViolation now other maxViolations window banDuration).1.offenders.lookup ip =
        some after) :
    Entry ip s (.recordViolation now other maxViolations window banDuration) after := by
  simp only [recordViolation] at tracked
  split at tracked
  next => exact .kept after tracked rfl rfl
  next =>
    split at tracked
    next =>
      rw [HashMap.lookup_insert_eq] at tracked
      split at tracked
      next =>
        cases tracked
        exact .fresh rfl rfl
      next => exact .kept after tracked rfl rfl
    next below =>
      rw [HashMap.lookup_insert_eq] at tracked
      split at tracked
      next same =>
        subst same
        cases tracked
        exact .counted maxViolations window banDuration rfl below rfl rfl
      next => exact .kept after tracked rfl rfl

private theorem entry_of_step (stepped : s.step call = some s') {after : Offender}
    (tracked : s'.list.offenders.lookup ip = some after) : Entry ip s call after := by
  unfold step at stepped
  split at stepped
  next => cases stepped
  cases call with
  | ban now other duration =>
    cases stepped
    simp only [ban, HashMap.lookup_insert_eq] at tracked
    split at tracked
    next same =>
      subst same
      cases tracked
      cases known : s.list.offenders.lookup ip with
      | none => exact .fresh rfl rfl
      | some before => exact .kept before known rfl rfl
    next => exact .kept after tracked rfl rfl
  | recordViolation now other maxViolations window banDuration =>
    cases stepped
    exact entry_of_violation tracked
  | isBanned now other =>
    cases stepped
    exact .kept after (lookup_of_isBanned tracked) rfl rfl
  | activeBans now =>
    cases stepped
    exact .kept after tracked rfl rfl
  | unban now other =>
    cases stepped
    exact .kept after (lookup_of_unban tracked) rfl rfl
  | sweep now =>
    cases stepped
    simp only [sweep, HashMap.lookup_retain] at tracked
    exact .kept after (Option.filter_eq_some_iff.mp tracked).1 rfl rfl

private theorem clock_of_step (stepped : s.step call = some s') :
    s.clock ≤ s'.clock ∧ s'.clock = call.now := by
  obtain ⟨forth, effect⟩ := step_effect stepped
  cases effect <;> exact ⟨forth, rfl⟩

/-! ### What was counted -/

/-- The count of an entry is made up of these violations, and stays below the limit. -/
structure MadeUpOf (times : List Instant) (maxViolations : UInt32) (now : Instant)
    (o : Offender) : Prop where
  below : o.violationCount < maxViolations
  begun : o.violationsSince ≤ now
  made : o.violationCount.toNat ≤ (times.filter (o.violationsSince ≤ ·)).length

/-- The same of the IP, if it has an entry. -/
structure CountedFrom (ip : Text) (maxViolations : UInt32) (recent : List BanCall)
    (s : BanHistory) : Prop where
  past : ∀ t ∈ violationTimes ip recent, t ≤ s.clock
  entry : ∀ o, s.list.offenders.lookup ip = some o →
    MadeUpOf (violationTimes ip recent) maxViolations s.clock o

variable {maxViolations : UInt32} {times : List Instant} {recent : List BanCall} {now : Instant}

theorem MadeUpOf.zero (limit : 0 < maxViolations) {o : Offender}
    (count : o.violationCount = 0) (begun : o.violationsSince ≤ now) :
    MadeUpOf times maxViolations now o :=
  ⟨by rw [count]; exact limit, begun, by rw [count]; exact Nat.zero_le _⟩

/-- The entry that a violation is counted for has a window that has not passed. -/
theorem counted_madeUpOf {window : Nat} (limit : 0 < maxViolations) (positive : 0 < window)
    (counted : CountedFrom ip maxViolations recent s) (forth : s.clock ≤ now) :
    MadeUpOf (violationTimes ip recent) maxViolations now (s.list.counted now ip window) ∧
      now < (s.list.counted now ip window).violationsSince + window := by
  have fresh (o : Offender) (count : o.violationCount = 0) (since : o.violationsSince = now) :
      MadeUpOf (violationTimes ip recent) maxViolations now o ∧ now < o.violationsSince + window :=
    ⟨.zero limit count (Nat.le_of_eq since), by rw [since]; exact Nat.lt_add_of_pos_right positive⟩
  unfold IpBanList.counted
  extract_lets o
  split
  next => exact fresh _ rfl rfl
  next within =>
    cases known : s.list.offenders.lookup ip with
    | none =>
      apply fresh
      · simp only [o, known, Option.getD_none]
      · simp only [o, known, Option.getD_none]
    | some before =>
      have same : o = before := by simp only [o, known, Option.getD_some]
      obtain ⟨below, begun, made⟩ := counted.entry before known
      rw [same] at within ⊢
      have since := Nat.le_trans begun forth
      exact ⟨⟨below, since, made⟩, (Nat.sub_lt_iff_lt_add' since).mp (Nat.lt_of_not_le within)⟩

private theorem toNat_add_one {count : UInt32} (below : count < maxViolations) :
    (count + 1).toNat = count.toNat + 1 := by
  have small := UInt32.lt_iff_toNat_lt.mp below
  have bounded := maxViolations.toNat_lt
  rw [UInt32.toNat_add]
  exact Nat.mod_eq_of_lt (by simp; omega)

private theorem mem_violationTimes_of_step (stepped : s.step call = some s')
    (past : ∀ t ∈ violationTimes ip recent, t ≤ s.clock) :
    ∀ t ∈ violationTimes ip (recent ++ [call]), t ≤ s'.clock := by
  obtain ⟨forth, clock⟩ := clock_of_step stepped
  intro t member
  rw [violationTimes, List.filterMap_append, List.mem_append] at member
  rcases member with old | new
  · exact Nat.le_trans (past t old) forth
  · obtain ⟨event, last, shown⟩ := List.mem_filterMap.mp new
    rw [List.mem_singleton.mp last] at shown
    rw [clock]
    cases call <;> simp only [reduceCtorEq] at shown
    exact Nat.le_of_eq (Option.some.inj (Option.ite_none_right_eq_some.mp shown).2).symm

/-- A call that bans nobody adds to the violations. -/
theorem countedFrom_step {window : Nat} (limit : 0 < maxViolations) (positive : 0 < window)
    (fixed : FixedFor ip maxViolations window call)
    (counted : CountedFrom ip maxViolations recent s) (stepped : s.step call = some s') :
    CountedFrom ip maxViolations (recent ++ [call]) s' := by
  obtain ⟨forth, clock⟩ := clock_of_step stepped
  refine ⟨mem_violationTimes_of_step stepped counted.past, fun after tracked => ?_⟩
  have times : violationTimes ip (recent ++ [call]) =
      violationTimes ip recent ++ violationTimes ip [call] := List.filterMap_append
  rw [times, clock]
  rw [clock] at forth
  -- the entry is as before, has just been made, or has counted this violation
  cases entry_of_step stepped tracked with
  | kept before known since count =>
    obtain ⟨below, begun, made⟩ := counted.entry before known
    refine ⟨by rw [count]; exact below, by rw [since]; exact Nat.le_trans begun forth, ?_⟩
    rw [count, since, List.filter_append, List.length_append]
    exact Nat.le_add_right_of_le made
  | fresh since count => exact .zero limit count (Nat.le_of_eq since)
  | counted maxViolations' window' banDuration violation below since count =>
    rw [violation] at fixed
    obtain ⟨rfl, rfl⟩ := fixed rfl
    obtain ⟨⟨under, begun, made⟩, -⟩ := counted_madeUpOf limit positive counted forth
    have one : violationTimes ip [call] = [call.now] := by
      rw [violation]
      simp [violationTimes, BanCall.now]
    refine ⟨?_, by rw [since]; exact begun, ?_⟩
    · rw [count]
      exact UInt32.not_le.mp below
    · rw [count, since, one, toNat_add_one under, List.filter_append, List.length_append,
        List.filter_singleton, decide_eq_true begun]
      exact Nat.add_le_add_right made 1

/-- A call that bans the IP starts its count over. -/
theorem countedFrom_of_bans (limit : 0 < maxViolations) (bans : Bans ip s call)
    (stepped : s.step call = some s') : CountedFrom ip maxViolations [] s' := by
  refine ⟨by simp [violationTimes], fun after tracked => ?_⟩
  cases call with
  | recordViolation now other maxViolations' window banDuration =>
    obtain ⟨rfl, banned⟩ := bans
    obtain ⟨-, clock⟩ := clock_of_step stepped
    have reached := (s.list.recordViolation_iff _ _ _ _ _).mp banned
    unfold step at stepped
    split at stepped
    next => cases stepped
    simp only [recordViolation, reached.1, reached.2, if_true, Bool.false_eq_true, if_false]
      at stepped
    cases stepped
    rw [HashMap.lookup_insert_eq, if_pos rfl] at tracked
    cases tracked
    exact .zero limit rfl (Nat.le_of_eq clock.symm)
  | ban | isBanned | activeBans | unban | sweep => exact bans.elim

/-- Every run has a last part, since the last ban of the IP by a violation or from the start,
of which the count of the IP is made up. -/
theorem exists_recent {window : Nat} (limit : 0 < maxViolations) (positive : 0 < window)
    {calls : List BanCall} (fixed : ∀ call ∈ calls, FixedFor ip maxViolations window call)
    (ran : run step start calls = some s) :
    ∃ earlier recent middle, calls = earlier ++ recent ∧ run step start earlier = some middle ∧
      run step middle recent = some s ∧
      Guarded step (fun s call => ¬ Bans ip s call) middle recent ∧
      CountedFrom ip maxViolations recent s := by
  -- over the calls from the last one back: a ban begins a new last part
  induction calls using List.reverseRecOn generalizing s with
  | nil =>
    cases ran
    exact ⟨[], [], start, rfl, rfl, rfl, trivial, by simp [violationTimes], nofun⟩
  | append_singleton calls call ih =>
    obtain ⟨s₀, before, stepped⟩ := run_concat_eq_some.mp ran
    obtain ⟨earlier, recent, middle, rfl, reached, rest, quiet, counted⟩ :=
      ih (fun call member => fixed call (List.mem_append_left _ member)) before
    by_cases bans : Bans ip s₀ call
    · exact ⟨_, [], s, (List.append_nil _).symm, ran, rfl, trivial,
        countedFrom_of_bans limit bans stepped⟩
    · have last := fixed call (List.mem_append_right _ List.mem_cons_self)
      exact ⟨earlier, recent ++ [call], middle, List.append_assoc _ _ _, reached,
        run_concat_eq_some.mpr ⟨s₀, rest, stepped⟩, quiet.concat rest bans,
        countedFrom_step limit positive last counted stepped⟩

/-- A violation that bans its IP is one of as many as the limit asks for, all of them for that
IP, within less than one window, and since the last ban they led to. The ban lasts for its
duration. -/
theorem no_ban_without_cause (ip : Text) (maxViolations : UInt32) (window : Nat)
    (limit : 0 < maxViolations) (positive : 0 < window) (calls : List BanCall)
    (fixed : ∀ call ∈ calls, FixedFor ip maxViolations window call) (s : BanHistory)
    (ran : run step start calls = some s) (now : Instant) (forth : s.clock ≤ now)
    (banDuration : Nat)
    (banned : (s.list.recordViolation now ip maxViolations window banDuration).2) :
    (∃ earlier recent middle, calls = earlier ++ recent ∧ run step start earlier = some middle ∧
      Guarded step (fun s call => ¬ Bans ip s call) middle recent ∧
      maxViolations.toNat ≤ ((violationTimes ip recent ++ [now]).filter
        fun t => t ≤ now ∧ now < t + window).length) ∧
    ∀ t, now ≤ t →
      (((s.list.recordViolation now ip maxViolations window banDuration).1.isBanned t ip).2 ↔
        t < now + banDuration) := by
  have reached := (s.list.recordViolation_iff _ _ _ _ _).mp banned
  obtain ⟨earlier, recent, middle, split, before, -, quiet, counted⟩ :=
    exists_recent limit positive fixed ran
  refine ⟨⟨earlier, recent, middle, split, before, quiet, ?_⟩, fun t _ => ?_⟩
  · obtain ⟨⟨below, begun, made⟩, within⟩ := @counted_madeUpOf ip s maxViolations recent now window
      limit positive counted forth
    have enough := UInt32.le_iff_toNat_le.mp reached.2
    rw [toNat_add_one below] at enough
    have inWindow : now ≤ now ∧ now < now + window :=
      ⟨Nat.le_refl _, Nat.lt_add_of_pos_right positive⟩
    rw [List.filter_append, List.length_append, List.filter_singleton, decide_eq_true inWindow]
    -- what was counted began with the window, which has not passed
    have late : ((violationTimes ip recent).filter
        ((s.list.counted now ip window).violationsSince ≤ ·)).length ≤
        ((violationTimes ip recent).filter fun t => t ≤ now ∧ now < t + window).length := by
      rw [← List.countP_eq_length_filter, ← List.countP_eq_length_filter]
      apply List.countP_mono_left
      intro t member since
      have past := Nat.le_trans (counted.past t member) forth
      have since := of_decide_eq_true since
      exact decide_eq_true
        ⟨past, Nat.lt_of_lt_of_le within (Nat.add_le_add_right since window)⟩
    exact Nat.le_trans enough (Nat.add_le_add_right (Nat.le_trans made late) 1)
  · rw [isBanned_iff, banEnd_recordViolation, if_pos ⟨rfl, reached⟩]
    simp

def violations : List BanCall :=
  [.recordViolation 0 intruder 2 (minutes 1) (minutes 10),
    .recordViolation (minutes 2) intruder 2 (minutes 1) (minutes 10), .sweep (minutes 2)]

/-- The first of three violations is too old to count, and the third one bans. -/
theorem third_violation_bans :
    ∃ s, run step start violations = some s ∧
      (∃ earlier recent middle, violations = earlier ++ recent ∧
        run step start earlier = some middle ∧
        Guarded step (fun s call => ¬ Bans intruder s call) middle recent ∧
        (2 : UInt32).toNat ≤ ((violationTimes intruder recent ++ [minutes 2]).filter
          fun t => t ≤ minutes 2 ∧ minutes 2 < t + minutes 1).length) ∧
      ∀ t, minutes 2 ≤ t →
        (((s.list.recordViolation (minutes 2) intruder 2 (minutes 1) (minutes 10)).1.isBanned
          t intruder).2 ↔ t < minutes 2 + minutes 10) :=
  ⟨_, rfl, no_ban_without_cause intruder 2 (minutes 1) (by decide) (by decide) violations
    (by simp [violations, FixedFor]) _ rfl (minutes 2) (by decide) (minutes 10) (by decide)⟩

end MCGate.BanHistory
