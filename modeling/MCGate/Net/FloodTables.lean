import Mathlib.Data.Finset.Card
import MCGate.Net.DnsStaleness
import MCGate.Net.FloodControl
import MCGate.Net.IpBan
import MCGate.Net.PingCache

/-!
# The tables that a flood fills

Each table that grows with what clients send has a bound, and each keeps it in its own way. The
resolved hostnames and the rate windows check their size before they add an entry, and leave it
out when they are full. The status answers add theirs first, and then drop the ones that expire
soonest. The offenders are checked where violations are recorded, but an explicit ban is always
added.
-/
namespace MCGate

open Machine

namespace PingCache

variable {entries : HashMap Text PingCacheEntry} {key : Text}

/-- The keys that are erased are gone, and nothing else is. -/
theorem lookup_foldl_erase (gone : List (Text × Instant)) (entries : HashMap Text PingCacheEntry)
    (key : Text) :
    (gone.foldl (fun entries entry => entries.erase entry.1) entries).lookup key =
      if key ∈ gone.map Prod.fst then none else entries.lookup key := by
  induction gone generalizing entries with
  | nil => rfl
  | cons first rest ih =>
    rw [List.foldl_cons, ih, HashMap.lookup_erase_eq, List.map_cons]
    by_cases later : key ∈ rest.map Prod.fst
    · rw [if_pos later, if_pos (List.mem_cons_of_mem _ later)]
    · rw [if_neg later]
      simp only [List.mem_cons, later, or_false]

private theorem length_foldl_erase {gone : List (Text × Instant)}
    (distinct : (gone.map Prod.fst).Nodup) {entries : HashMap Text PingCacheEntry}
    (present : ∀ key ∈ gone.map Prod.fst, (entries.lookup key).isSome) :
    (gone.foldl (fun entries entry => entries.erase entry.1) entries).entries.length +
      gone.length = entries.entries.length := by
  induction gone generalizing entries with
  | nil => rfl
  | cons first rest ih =>
    -- the keys are distinct, so what is erased first does not make the others absent
    obtain ⟨apart, distinct⟩ := List.nodup_cons.mp distinct
    obtain ⟨entry, found⟩ := Option.isSome_iff_exists.mp (present first.1 List.mem_cons_self)
    have fewer := HashMap.length_erase found
    have others : ∀ key ∈ rest.map Prod.fst, ((entries.erase first.1).lookup key).isSome := by
      intro key later
      have other : key ≠ first.1 := fun same => apart (same ▸ later)
      rw [HashMap.lookup_erase_eq, if_neg other]
      exact present key (List.mem_cons_of_mem _ later)
    have tail := ih distinct others
    rw [List.foldl_cons, List.length_cons]
    omega

/-- The entries by expiry, the first to expire first. -/
def byExpiry (entries : HashMap Text PingCacheEntry) : List (Text × Instant) :=
  (entries.entries.map fun entry => (entry.1, entry.2.expiresAt)).insertionSort
    fun one two => one.2 ≤ two.2

private theorem byExpiry_perm (entries : HashMap Text PingCacheEntry) :
    (byExpiry entries).Perm (entries.entries.map fun entry => (entry.1, entry.2.expiresAt)) :=
  List.perm_insertionSort _ _

private theorem nodup_byExpiry (entries : HashMap Text PingCacheEntry) :
    ((byExpiry entries).map Prod.fst).Nodup := by
  refine ((byExpiry_perm entries).map Prod.fst).nodup_iff.mpr ?_
  rw [List.map_map]
  exact entries.nodupKeys

private theorem mem_byExpiry_iff {expiresAt : Instant} :
    (key, expiresAt) ∈ byExpiry entries ↔
      ∃ entry, entries.lookup key = some entry ∧ entry.expiresAt = expiresAt := by
  rw [(byExpiry_perm entries).mem_iff, List.mem_map]
  constructor
  · rintro ⟨⟨other, entry⟩, member, same⟩
    cases same
    exact ⟨entry, HashMap.mem_entries_iff.mp member, rfl⟩
  · rintro ⟨entry, found, rfl⟩
    exact ⟨⟨key, entry⟩, HashMap.mem_entries_iff.mpr found, rfl⟩

private theorem pairwise_byExpiry (entries : HashMap Text PingCacheEntry) :
    (byExpiry entries).Pairwise fun one two => one.2 ≤ two.2 := by
  have total : Std.Total fun one two : Text × Instant => one.2 ≤ two.2 :=
    ⟨fun one two => Nat.le_total one.2 two.2⟩
  have trans : IsTrans (Text × Instant) fun one two => one.2 ≤ two.2 :=
    ⟨fun _ _ _ => Nat.le_trans⟩
  exact List.pairwise_insertionSort _ _

/-- The entries that go when there are too many. -/
def evicted (entries : HashMap Text PingCacheEntry) : List (Text × Instant) :=
  (byExpiry entries).take (entries.entries.length - maxEntries * 9 / 10)

private theorem evictOverflow_eq (entries : HashMap Text PingCacheEntry) :
    evictOverflow entries =
      (evicted entries).foldl (fun entries entry => entries.erase entry.1) entries :=
  rfl

private theorem lookup_evictOverflow (entries : HashMap Text PingCacheEntry) (key : Text) :
    (evictOverflow entries).lookup key =
      if key ∈ (evicted entries).map Prod.fst then none else entries.lookup key := by
  rw [evictOverflow_eq, lookup_foldl_erase]

private theorem length_evictOverflow (many : maxEntries * 9 / 10 ≤ entries.entries.length) :
    (evictOverflow entries).entries.length = maxEntries * 9 / 10 := by
  have distinct : ((evicted entries).map Prod.fst).Nodup := by
    rw [evicted, List.map_take]
    exact (nodup_byExpiry entries).sublist (List.take_sublist _ _)
  have present : ∀ key ∈ (evicted entries).map Prod.fst, (entries.lookup key).isSome := by
    intro key member
    obtain ⟨⟨_, expiresAt⟩, listed, rfl⟩ := List.mem_map.mp member
    obtain ⟨entry, found, -⟩ := mem_byExpiry_iff.mp (List.mem_of_mem_take listed)
    rw [found]
    rfl
  have all : (byExpiry entries).length = entries.entries.length := by
    rw [(byExpiry_perm entries).length_eq, List.length_map]
  have gone : (evicted entries).length = entries.entries.length - maxEntries * 9 / 10 := by
    rw [evicted, List.length_take, all]
    omega
  have rest := length_foldl_erase distinct present
  rw [← evictOverflow_eq] at rest
  omega

/-- No entry that goes expires later than one that stays. -/
theorem evictOverflow_expiry {other : Text} {entry entry' : PingCacheEntry}
    (kept : (evictOverflow entries).lookup key = some entry)
    (gone : (evictOverflow entries).lookup other = none)
    (before : entries.lookup other = some entry') : entry'.expiresAt ≤ entry.expiresAt := by
  rw [lookup_evictOverflow] at kept gone
  split at kept
  · cases kept
  next stays =>
    split at gone
    next goes =>
      -- in the sorted list what is taken comes before what is left
      have sorted := pairwise_byExpiry entries
      rw [← List.take_append_drop (entries.entries.length - maxEntries * 9 / 10)
        (byExpiry entries), List.pairwise_append] at sorted
      have first : (other, entry'.expiresAt) ∈ evicted entries := by
        obtain ⟨⟨_, expiresAt⟩, listed, rfl⟩ := List.mem_map.mp goes
        obtain ⟨same, found, rfl⟩ := mem_byExpiry_iff.mp (List.mem_of_mem_take listed)
        rw [before, Option.some.injEq] at found
        rw [found]
        exact listed
      have second : (key, entry.expiresAt) ∈
          (byExpiry entries).drop (entries.entries.length - maxEntries * 9 / 10) := by
        have listed := mem_byExpiry_iff.mpr ⟨entry, kept, rfl⟩
        rw [← List.take_append_drop (entries.entries.length - maxEntries * 9 / 10)
          (byExpiry entries), List.mem_append] at listed
        exact listed.resolve_left fun early => stays (List.mem_map_of_mem (f := Prod.fst) early)
      exact sorted.2.2 _ first _ second
    next =>
      rw [before] at gone
      cases gone

end PingCache

namespace PingCache

variable (self : PingCache) (now : Instant) (key json : Text) (ttlMillis : Int64)

private theorem length_get_le :
    (self.get now key).1.entries.entries.length ≤ self.entries.entries.length := by
  unfold get
  split
  · exact Nat.le_refl _
  · split
    · exact HashMap.length_erase_le _ _
    · exact Nat.le_refl _

private theorem entries_isKnownDown : (self.isKnownDown now key).1.entries = self.entries := by
  unfold isKnownDown
  split
  · rfl
  · split <;> rfl

private theorem length_store_le (bounded : self.entries.entries.length ≤ maxEntries) :
    (self.store now key json ttlMillis).entries.entries.length ≤ maxEntries := by
  unfold store
  split
  · exact bounded
  · dsimp only
    split
    next many =>
      have enough : maxEntries * 9 / 10 ≤ maxEntries := by omega
      rw [length_evictOverflow (Nat.le_trans enough (Nat.le_of_lt many))]
      exact enough
    next few => exact Nat.le_of_not_lt few

end PingCache

namespace DnsCache

variable {self : DnsCache}

private theorem length_store_le (now : Instant) (key : Text) (result : DnsResult)
    (bounded : self.cache.entries.length ≤ maxCacheEntries) :
    (self.store now key result).cache.entries.length ≤ maxCacheEntries := by
  unfold store
  split
  next room =>
    rw [HashMap.length_insert]
    split
    · exact bounded
    · exact room
  next => exact bounded

private theorem length_storeOk_le (now : Instant) (key : Text) (result : DnsResult)
    (bounded : self.cache.entries.length ≤ maxCacheEntries) :
    (self.storeOk now key result).cache.entries.length ≤ maxCacheEntries := by
  unfold storeOk
  split
  · exact length_store_le now key result bounded
  · exact bounded

private theorem length_evictIdle_le (self : DnsCache) (cutoff : Instant) :
    (self.evictIdle cutoff).cache.entries.length ≤ self.cache.entries.length :=
  HashMap.length_retain_le _ _

end DnsCache

private theorem DnsTask.length_cache_le {s s' : DnsShared} {task task' : DnsTask}
    {choice : DnsChoice} (bounded : s.dns.cache.entries.length ≤ DnsCache.maxCacheEntries)
    (moved : advance s task choice = some (s', task')) :
    s'.dns.cache.entries.length ≤ DnsCache.maxCacheEntries := by
  cases (dnsEffect_of_advance moved).2 with
  | hit => exact bounded
  | miss => exact bounded
  | looked => exact DnsCache.length_store_le _ _ _ bounded
  | background => exact DnsCache.length_storeOk_le _ _ _ bounded
  | evict => exact Nat.le_trans (DnsCache.length_evictIdle_le s.dns _) bounded
  | quiet => exact bounded

private theorem ConnectionRates.length_tryAcquire_le (self : ConnectionRates) (now : Instant)
    (ip : Text) (max : UInt32) (window : Nat)
    (bounded : self.windows.entries.length ≤ maxTrackedIps) :
    (self.tryAcquire now ip max window).1.windows.entries.length ≤ maxTrackedIps := by
  unfold tryAcquire
  split
  · exact bounded
  next tracks =>
    rw [HashMap.length_insert]
    split
    · exact bounded
    next new =>
      simp only [failsOpen, decide_eq_true_eq, not_and] at tracks
      have room : self.windows.entries.length < maxTrackedIps :=
        Nat.lt_of_not_le fun full => tracks full (by simpa using new)
      exact room

/-! ### The IPs that are tracked -/

namespace IpBanList

/-- The IPs of the offenders. -/
def tracked (self : IpBanList) : Finset Text := self.offenders.keys.toFinset

variable {self : IpBanList} {now : Instant} {ip other : Text}

private theorem mem_tracked_iff : ip ∈ self.tracked ↔ (self.offenders.lookup ip).isSome := by
  rw [tracked, List.mem_toFinset, AList.lookup_isSome, AList.mem_keys]

private theorem card_tracked (self : IpBanList) :
    self.tracked.card = self.offenders.entries.length := by
  rw [tracked, List.toFinset_card_of_nodup self.offenders.keys_nodup]
  exact List.length_map _

private theorem tracked_insert (o : Offender) :
    tracked ⟨self.offenders.insert ip o⟩ = insert ip self.tracked := by
  apply Finset.ext
  intro other
  rw [mem_tracked_iff, HashMap.lookup_insert_eq, Finset.mem_insert, mem_tracked_iff]
  split
  next same => simp [same]
  next apart => simp [apart]

private theorem tracked_erase_subset : tracked ⟨self.offenders.erase ip⟩ ⊆ self.tracked := by
  intro other
  rw [mem_tracked_iff, HashMap.lookup_erase_eq, mem_tracked_iff]
  split
  · exact fun absent => absurd absent Bool.false_ne_true
  · exact id

private theorem tracked_isBanned_subset : (self.isBanned now ip).1.tracked ⊆ self.tracked := by
  unfold isBanned
  split
  · split
    · exact Finset.Subset.refl _
    · exact tracked_erase_subset
  · exact Finset.Subset.refl _
  · exact Finset.Subset.refl _

private theorem tracked_unban_subset : (self.unban now ip).1.tracked ⊆ self.tracked := by
  unfold unban
  split
  · exact Finset.Subset.refl _
  · exact tracked_erase_subset

private theorem tracked_sweep_subset : (self.sweep now).tracked ⊆ self.tracked := by
  intro other
  rw [mem_tracked_iff, sweep, HashMap.lookup_retain, mem_tracked_iff]
  exact Option.isSome_of_isSome_filter _ _

/-- A violation adds no IP to a table that is full. -/
theorem tracked_recordViolation (maxViolations : UInt32) (window banDuration : Nat) :
    (self.recordViolation now ip maxViolations window banDuration).1.tracked ⊆ self.tracked ∨
      (self.recordViolation now ip maxViolations window banDuration).1.tracked.card ≤
        maxTrackedIps := by
  by_cases full : self.failsOpen ip
  · left
    rw [recordViolation, if_pos full]
  · have added :
        (self.recordViolation now ip maxViolations window banDuration).1.tracked =
          insert ip self.tracked := by
      rw [recordViolation, if_neg full]
      dsimp only
      split <;> exact tracked_insert _
    rw [added]
    -- a new IP comes in only while there is room
    simp only [failsOpen, decide_eq_true_eq, not_and] at full
    by_cases known : ip ∈ self.tracked
    · left
      rw [Finset.insert_eq_of_mem known]
    · right
      have new : (self.offenders.lookup ip).isNone := by
        simpa [mem_tracked_iff] using known
      have room : self.tracked.card < maxTrackedIps := by
        rw [card_tracked]
        exact Nat.lt_of_not_le fun many => full many new
      rw [Finset.card_insert_of_notMem known]
      exact room

end IpBanList

/-! ### All tables at once -/

/-- The tables, with the IPs that `ban` was called for. Only the statements read those. -/
structure FloodTables where
  dns : Threads.Pool DnsShared DnsTask
  ping : PingCache
  rates : ConnectionRates
  bans : IpBanList
  banned : Finset Text

/-- One operation on one of the tables. -/
inductive TableOp where
  | dns (event : Threads.Event DnsTask DnsChoice)
  | pingGet (now : Instant) (key : Text)
  | pingClearDown (key : Text)
  | pingStore (now : Instant) (key json : Text) (ttlMillis : Int64)
  | pingIsKnownDown (now : Instant) (key : Text)
  | pingMarkDown (now : Instant) (key : Text)
  | pingSweepEntries (now : Instant)
  | pingSweepDown (now : Instant)
  | rateTryAcquire (now : Instant) (ip : Text) (max : UInt32) (window : Nat)
  | rateSweep (now : Instant)
  | ban (call : BanCall)

namespace FloodTables

def start : FloodTables := ⟨⟨.start, []⟩, ⟨∅, ∅⟩, .empty, .empty, ∅⟩

def callBans (list : IpBanList) : BanCall → IpBanList
  | .ban now ip duration => list.ban now ip duration
  | .recordViolation now ip maxViolations window banDuration =>
    (list.recordViolation now ip maxViolations window banDuration).1
  | .isBanned now ip => (list.isBanned now ip).1
  | .activeBans _ => list
  | .unban now ip => (list.unban now ip).1
  | .sweep now => list.sweep now

/-- The IP that is banned explicitly. -/
def banTarget : BanCall → Option Text
  | .ban _ ip _ => some ip
  | _ => none

def step (s : FloodTables) : TableOp → Option FloodTables
  | .dns event => do
    let dns ← Threads.step DnsTask.fresh DnsTask.advance s.dns event
    return { s with dns }
  | .pingGet now key => some { s with ping := (s.ping.get now key).1 }
  | .pingClearDown key => some { s with ping := s.ping.clearDown key }
  | .pingStore now key json ttlMillis => some { s with ping := s.ping.store now key json ttlMillis }
  | .pingIsKnownDown now key => some { s with ping := (s.ping.isKnownDown now key).1 }
  | .pingMarkDown now key => some { s with ping := s.ping.markDown now key }
  | .pingSweepEntries now => some { s with ping := s.ping.sweepEntries now }
  | .pingSweepDown now => some { s with ping := s.ping.sweepDown now }
  | .rateTryAcquire now ip max window =>
    some { s with rates := (s.rates.tryAcquire now ip max window).1 }
  | .rateSweep now => some { s with rates := s.rates.sweep now }
  | .ban call => some { s with
      bans := callBans s.bans call
      banned := (banTarget call).elim s.banned fun ip => insert ip s.banned }

/-! ### What each table keeps -/

/-- What a put leaves of too many entries: nine tenths of the limit, and those that expire last. -/
structure Trimmed (before after : HashMap Text PingCacheEntry) : Prop where
  length : after.entries.length = PingCache.maxEntries * 9 / 10
  kept : ∀ key entry, after.lookup key = some entry → before.lookup key = some entry
  latest : ∀ key entry other entry', after.lookup key = some entry →
    before.lookup other = some entry' → after.lookup other = none →
    entry'.expiresAt ≤ entry.expiresAt

/-- The entries with the one that is put. -/
def withPut (entries : HashMap Text PingCacheEntry) (now : Instant) (key json : Text)
    (ttlMillis : Int64) : HashMap Text PingCacheEntry :=
  entries.insert key ⟨json, now + fromMillis ttlMillis⟩

structure Bounded (s : FloodTables) : Prop where
  dns : s.dns.shared.dns.cache.entries.length ≤ DnsCache.maxCacheEntries
  ping : s.ping.entries.entries.length ≤ PingCache.maxEntries
  overflow : ∀ now key json ttlMillis, 0 ≤ ttlMillis →
    PingCache.maxEntries < (withPut s.ping.entries now key json ttlMillis).entries.length →
    Trimmed (withPut s.ping.entries now key json ttlMillis)
      (s.ping.store now key json ttlMillis).entries
  rates : s.rates.windows.entries.length ≤ ConnectionRates.maxTrackedIps
  bans : s.bans.offenders.entries.length ≤ IpBanList.maxTrackedIps + s.banned.card

private theorem trimmed_of_overflow (s : FloodTables) (now : Instant) (key json : Text)
    (ttlMillis : Int64) (cached : 0 ≤ ttlMillis)
    (many : PingCache.maxEntries < (withPut s.ping.entries now key json ttlMillis).entries.length) :
    Trimmed (withPut s.ping.entries now key json ttlMillis)
      (s.ping.store now key json ttlMillis).entries := by
  have stored : (s.ping.store now key json ttlMillis).entries =
      PingCache.evictOverflow (withPut s.ping.entries now key json ttlMillis) := by
    rw [PingCache.store, if_neg (Int64.not_lt.mpr cached)]
    exact if_pos many
  rw [stored]
  constructor
  · apply PingCache.length_evictOverflow
    omega
  · intro key' entry kept
    rw [PingCache.lookup_evictOverflow] at kept
    split at kept
    · cases kept
    · exact kept
  · intro key' entry other entry' kept before gone
    exact PingCache.evictOverflow_expiry kept gone before

/-- The bans beyond the limit are explicit ones. -/
def FewStrangers (s : FloodTables) : Prop :=
  (s.bans.tracked \ s.banned).card ≤ IpBanList.maxTrackedIps

private theorem fewStrangers_callBans {s : FloodTables} (few : FewStrangers s) (call : BanCall) :
    FewStrangers { s with
      bans := callBans s.bans call
      banned := (banTarget call).elim s.banned fun ip => insert ip s.banned } := by
  have fewer {bans : IpBanList} (old : bans.tracked ⊆ s.bans.tracked) :
      (bans.tracked \ s.banned).card ≤ IpBanList.maxTrackedIps :=
    Nat.le_trans (Finset.card_le_card (Finset.sdiff_subset_sdiff old (Finset.Subset.refl _))) few
  cases call with
  | ban now ip duration =>
    -- the IP that is added is one that is banned explicitly
    have added : (s.bans.ban now ip duration).tracked = insert ip s.bans.tracked :=
      IpBanList.tracked_insert _
    have same : insert ip s.bans.tracked \ insert ip s.banned ⊆ s.bans.tracked \ s.banned := by
      rw [Finset.insert_sdiff_of_mem _ (Finset.mem_insert_self _ _)]
      exact Finset.sdiff_subset_sdiff (Finset.Subset.refl _) (Finset.subset_insert _ _)
    unfold FewStrangers
    dsimp only [callBans, banTarget, Option.elim_some]
    rw [added]
    exact Nat.le_trans (Finset.card_le_card same) few
  | recordViolation now ip maxViolations window banDuration =>
    rcases IpBanList.tracked_recordViolation maxViolations window banDuration with old | room
    · exact fewer old
    · exact Nat.le_trans (Finset.card_le_card Finset.sdiff_subset) room
  | isBanned now ip => exact fewer IpBanList.tracked_isBanned_subset
  | activeBans now => exact few
  | unban now ip => exact fewer IpBanList.tracked_unban_subset
  | sweep now => exact fewer IpBanList.tracked_sweep_subset

/-- What the tables keep from one operation to the next. -/
structure Kept (s : FloodTables) : Prop where
  dns : s.dns.shared.dns.cache.entries.length ≤ DnsCache.maxCacheEntries
  ping : s.ping.entries.entries.length ≤ PingCache.maxEntries
  rates : s.rates.windows.entries.length ≤ ConnectionRates.maxTrackedIps
  strangers : FewStrangers s

private theorem kept_step {s s' : FloodTables} {op : TableOp} (kept : Kept s)
    (stepped : s.step op = some s') : Kept s' := by
  cases op with
  | dns event =>
    obtain ⟨dns, moved, same⟩ := Option.bind_eq_some_iff.mp stepped
    cases same
    refine { kept with dns := ?_ }
    cases event with
    | spawn task =>
      obtain ⟨-, rfl⟩ := Threads.step_spawn_eq_some.mp moved
      exact kept.dns
    | move i choice =>
      obtain ⟨task, shared, task', -, advanced, rfl⟩ := Threads.step_move_eq_some.mp moved
      exact DnsTask.length_cache_le kept.dns advanced
  | pingGet now key =>
    cases stepped
    exact { kept with ping := Nat.le_trans (s.ping.length_get_le now key) kept.ping }
  | pingClearDown key =>
    cases stepped
    exact { kept with ping := kept.ping }
  | pingStore now key json ttlMillis =>
    cases stepped
    exact { kept with ping := s.ping.length_store_le now key json ttlMillis kept.ping }
  | pingIsKnownDown now key =>
    cases stepped
    have same := s.ping.entries_isKnownDown now key
    exact { kept with ping := by rw [same]; exact kept.ping }
  -- the marks of backends that are down are a table of their own
  | pingMarkDown now key =>
    cases stepped
    exact { kept with ping := kept.ping }
  | pingSweepEntries now =>
    cases stepped
    exact { kept with ping := Nat.le_trans (HashMap.length_retain_le _ _) kept.ping }
  | pingSweepDown now =>
    cases stepped
    exact { kept with ping := kept.ping }
  | rateTryAcquire now ip max window =>
    cases stepped
    exact { kept with rates := s.rates.length_tryAcquire_le now ip max window kept.rates }
  | rateSweep now =>
    cases stepped
    exact { kept with rates := Nat.le_trans (HashMap.length_retain_le _ _) kept.rates }
  | ban call =>
    cases stepped
    exact { kept with strangers := fewStrangers_callBans kept.strangers call }

private theorem bounded_of_kept {s : FloodTables} (kept : Kept s) : Bounded s := by
  refine ⟨kept.dns, kept.ping, trimmed_of_overflow s, kept.rates, ?_⟩
  rw [← IpBanList.card_tracked]
  calc s.bans.tracked.card
      ≤ (s.bans.tracked \ s.banned).card + s.banned.card :=
        Finset.card_le_card_sdiff_add_card
    _ ≤ IpBanList.maxTrackedIps + s.banned.card := Nat.add_le_add_right kept.strangers _

/-- Whatever the clients send, and whenever, no table grows beyond its bound. -/
theorem floodTables_bounded (ops : List TableOp) : Always step Bounded start ops := by
  have kept : Always step Kept start ops := by
    refine always_of_keep (fun _ _ _ => kept_step) ops ?_
    exact ⟨Nat.zero_le _, Nat.zero_le _, Nat.zero_le _, Nat.zero_le _⟩
  exact kept.imp fun _ => bounded_of_kept

end FloodTables

end MCGate
