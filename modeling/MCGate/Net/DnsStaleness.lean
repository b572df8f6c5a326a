import MCGate.Net.DnsCache

/-!
# Answers from expired entries

An expired entry is still served, and a refresh moves its expiry only if it succeeds. So the age
of an expiry does not tell how long a hostname was not asked for: while its lookups fail, a
hostname in use is evicted like any other, and the next call waits for a lookup that fails. And a
failure that was cached is served as an address is, long after the few seconds it was cached for.
-/
namespace MCGate

open Machine Threads DnsCache DnsTask

/-! ### What a step does -/

/-- What a step does to the cache, the lookups and the answers. -/
inductive DnsEffect (s : DnsShared) (choice : DnsChoice) :
    DnsTask → DnsShared → DnsTask → Prop
  /-- a call that is answered from the cache -/
  | hit {host : Text} {port : UInt16} {entry : DnsEntry} {task' : DnsTask} :
      isIpLiteral host port = none → s.dns.cache.lookup (keyOf host port) = some entry →
      (∀ host port resolved, task' ≠ .resolving host port resolved) →
      DnsEffect s choice (.resolve host port)
        { s with
          clock := choice.now
          calls := (keyOf host port, choice.now) :: s.calls
          answers := ⟨keyOf host port, choice.now, entry.result, some entry, false,
            s.resolved (keyOf host port)⟩ :: s.answers }
        task'
  | miss {host : Text} {port : UInt16} : isIpLiteral host port = none →
      s.dns.cache.lookup (keyOf host port) = none →
      DnsEffect s choice (.resolve host port)
        { s with clock := choice.now, calls := (keyOf host port, choice.now) :: s.calls }
        (.resolving host port (s.resolved (keyOf host port)))
  /-- a call has looked up itself -/
  | looked {host : Text} {port : UInt16} {resolved : Bool} :
      DnsEffect s choice (.resolving host port resolved)
        { s.lookedUp (keyOf host port) choice.now (doLookup host choice.found) with
          clock := choice.now
          dns := s.dns.store choice.now (keyOf host port) (doLookup host choice.found)
          answers := ⟨keyOf host port, choice.now, doLookup host choice.found, none, true,
            resolved⟩ :: s.answers }
        .done
  /-- a lookup in the background ends -/
  | background {task task' : DnsTask} {key host : Text} :
      (∀ host port resolved, task ≠ .resolving host port resolved) →
      (∀ host port, task ≠ .resolve host port) → task ≠ .evictIdleEntries →
      (∀ host port resolved, task' ≠ .resolving host port resolved) →
      DnsEffect s choice task
        { s.lookedUp key choice.now (doLookup host choice.found) with
          clock := choice.now
          dns := s.dns.storeOk choice.now key (doLookup host choice.found) }
        task'
  | evict {task' : DnsTask} : entryIdleEvict ≤ choice.now →
      (∀ host port resolved, task' ≠ .resolving host port resolved) →
      DnsEffect s choice .evictIdleEntries
        { s with clock := choice.now, dns := s.dns.evictIdle (choice.now - entryIdleEvict) } task'
  | quiet {task task' : DnsTask} (refreshing : Finset Text) :
      (∀ host port, task = .resolve host port → isIpLiteral host port ≠ none) →
      (∀ host port resolved, task ≠ .resolving host port resolved) →
      (task = .evictIdleEntries → choice.now < entryIdleEvict) →
      (∀ host port resolved, task' ≠ .resolving host port resolved) →
      DnsEffect s choice task
        { s with clock := choice.now, dns := { s.dns with refreshing } } task'

theorem dnsEffect_of_advance {s s' : DnsShared} {task task' : DnsTask} {choice : DnsChoice}
    (moved : advance s task choice = some (s', task')) :
    s.clock ≤ choice.now ∧ DnsEffect s choice task s' task' := by
  unfold advance at moved
  split at moved
  · cases moved
  next forth =>
    refine ⟨Nat.le_of_not_lt forth, ?_⟩
    cases task with
    | resolve host port =>
      simp only [next] at moved
      split at moved
      -- an address that is written out is never looked up
      next addr literal =>
        cases moved
        refine .quiet s.dns.refreshing ?_ (by simp) (by simp) (by simp)
        rintro host port same
        cases same
        simp [literal]
      next named =>
        split at moved
        -- an expired entry is served as well, and is refreshed in the background
        next entry stored =>
          simp only [Option.some.injEq, Prod.mk.injEq] at moved
          obtain ⟨rfl, rfl⟩ := moved
          refine .hit named stored fun host port resolved => ?_
          split <;> simp
        next absent =>
          cases moved
          exact .miss named absent
    | resolving host port resolved =>
      cases moved
      exact .looked
    | refreshAsync host port =>
      simp only [next] at moved
      split at moved
      · cases moved
        exact .quiet s.dns.refreshing (by simp) (by simp) (by simp) (by simp)
      · cases moved
        exact .quiet _ (by simp) (by simp) (by simp) (by simp)
    | refresh host port =>
      cases moved
      exact .background (by simp) (by simp) (by simp) (by simp)
    | refreshed key =>
      cases moved
      exact .quiet _ (by simp) (by simp) (by simp) (by simp)
    | warm host port =>
      simp only [next] at moved
      split at moved
      · cases moved
        exact .quiet s.dns.refreshing (by simp) (by simp) (by simp) (by simp)
      · cases moved
        exact .background (by simp) (by simp) (by simp) (by simp)
    | evictIdleEntries =>
      simp only [next] at moved
      split at moved
      next early =>
        cases moved
        exact .quiet s.dns.refreshing (by simp) (by simp) (fun _ => early) (by simp)
      next due =>
        cases moved
        exact .evict (Nat.le_of_not_lt due) (by simp)
    | retainRefreshing keys =>
      cases moved
      exact .quiet _ (by simp) (by simp) (by simp) (by simp)
    | done => cases moved

/-! ### Addresses that stay -/

/-- Some lookup of the hostname has found the address. -/
def Found (s : DnsShared) (key : Text) (addr : SocketAddr) : Prop :=
  ∃ lookup ∈ s.lookups, lookup.key = key ∧ lookup.result = .ok addr

/-- Each call that was made after the hostname had been resolved is answered with an address that
a lookup has found. -/
def Served (key : Text) (s : DnsShared) : Prop :=
  ∀ answer ∈ s.answers, answer.key = key → answer.resolved →
    ∃ addr, answer.result = .ok addr ∧ Found s key addr

/-- The entry of the hostname is an address. -/
def HasAddress (key : Text) (s : DnsShared) : Prop :=
  ∃ entry ∈ s.dns.cache.lookup key, entry.result.isOk

instance (key : Text) (s : DnsShared) : Decidable (HasAddress key s) :=
  inferInstanceAs (Decidable (∃ entry ∈ s.dns.cache.lookup key, entry.result.isOk))

/-- A call that has looked up an address can store it; once the hostname has been resolved, none
that waits for its lookup stores a failure, and an eviction comes no later than ten minutes after
the entry has expired. -/
def Kept (key : Text) (s : DnsShared) (task : DnsTask) (choice : DnsChoice) : Prop :=
  match task with
  | .resolving host port _ => keyOf host port = key →
      (choice.found.isSome → s.dns.cache.entries.length < maxCacheEntries ∨ HasAddress key s) ∧
      (choice.found = none → s.resolved key → maxCacheEntries ≤ s.dns.cache.entries.length)
  | .evictIdleEntries => s.resolved key → ∀ entry ∈ s.dns.cache.lookup key,
      choice.now ≤ entry.expiresAt + entryIdleEvict
  | _ => True

instance (key : Text) (s : DnsShared) (task : DnsTask) (choice : DnsChoice) :
    Decidable (Kept key s task choice) := by
  unfold Kept
  split <;> infer_instance

/-- A hostname that has been resolved has an address in the cache, and what is in the cache was
found by a lookup. -/
structure Lasting (key : Text) (s : DnsShared) : Prop where
  has : s.resolved key → HasAddress key s
  found : ∀ entry ∈ s.dns.cache.lookup key, ∀ addr, entry.result = .ok addr → Found s key addr
  served : Served key s

/-- A call waits for a lookup of its own only if the hostname was not resolved when it was made. -/
def Unresolved (key : Text) (_ : DnsShared) (task : DnsTask) : Prop :=
  ∀ host port resolved, task = .resolving host port resolved → keyOf host port = key →
    resolved = false

section Lasting

variable {key : Text} {s s' : DnsShared} {task task' : DnsTask} {choice : DnsChoice}

private theorem resolved_cons {answer : DnsAnswer} {answers : List DnsAnswer} {dns : DnsCache}
    {clock : Instant} {lookups : List DnsLookup} {calls : List (Text × Instant)} :
    DnsShared.resolved ⟨dns, clock, lookups, calls, answer :: answers⟩ key =
      (decide (answer.key = key) && answer.result.isOk ||
        DnsShared.resolved ⟨dns, clock, lookups, calls, answers⟩ key) := by
  simp [DnsShared.resolved]

theorem Found.lookedUp {addr : SocketAddr} (found : Found s key addr) (other : Text)
    (now : Instant) (result : DnsResult) : Found (s.lookedUp other now result) key addr := by
  obtain ⟨lookup, member, same⟩ := found
  exact ⟨lookup, List.mem_cons_of_mem _ member, same⟩

private theorem isOk_iff {result : DnsResult} : result.isOk ↔ ∃ addr, result = .ok addr := by
  cases result with
  | error error => simp [Except.isOk, Except.toBool]
  | ok addr => simp [Except.isOk, Except.toBool]

private theorem isOk_doLookup (host : Text) (found : Option SocketAddr) :
    (doLookup host found).isOk = found.isSome := by
  cases found <;> rfl

/-- What the cache has for a hostname after a lookup is what it had, or what was looked up. -/
theorem found_of_lookup {stored host : Text} {found : Option SocketAddr} {dns : DnsCache}
    {now : Instant} (lasting : Lasting key s)
    (origin : ∀ entry, dns.cache.lookup key = some entry → s.dns.cache.lookup key = some entry ∨
      key = stored ∧ entry.result = doLookup host found) :
    ∀ entry, dns.cache.lookup key = some entry → ∀ addr, entry.result = .ok addr →
      Found (s.lookedUp stored now (doLookup host found)) key addr := by
  intro entry here addr good
  rcases origin entry here with old | ⟨rfl, new⟩
  · exact (lasting.found entry old addr good).lookedUp _ _ _
  · exact ⟨_, List.mem_cons_self, rfl, new.symm.trans good⟩

theorem Lasting.hit {host : Text} {port : UInt16} {entry : DnsEntry} (lasting : Lasting key s)
    (stored : s.dns.cache.lookup (keyOf host port) = some entry) :
    Lasting key
      { s with
        clock := choice.now
        calls := (keyOf host port, choice.now) :: s.calls
        answers := ⟨keyOf host port, choice.now, entry.result, some entry, false,
          s.resolved (keyOf host port)⟩ :: s.answers } := by
  constructor
  case has =>
    intro resolved
    rw [resolved_cons, Bool.or_eq_true, Bool.and_eq_true, decide_eq_true_iff] at resolved
    rcases resolved with ⟨rfl, good⟩ | before
    · exact ⟨entry, stored, good⟩
    · exact lasting.has before
  case found => exact lasting.found
  case served =>
    intro answer member mine resolved
    rcases List.mem_cons.mp member with rfl | old
    · -- the entry that the call has found is the address
      subst mine
      obtain ⟨other, here, good⟩ := lasting.has resolved
      obtain rfl : other = entry := Option.some.inj (here.symm.trans stored)
      obtain ⟨addr, result⟩ := isOk_iff.mp good
      exact ⟨addr, result, lasting.found other here addr result⟩
    · exact lasting.served answer old mine resolved

theorem Lasting.looked {host : Text} {port : UInt16} {resolved : Bool} (lasting : Lasting key s)
    (unresolved : Unresolved key s (.resolving host port resolved))
    (kept : Kept key s (.resolving host port resolved) choice) :
    Lasting key
      { s.lookedUp (keyOf host port) choice.now (doLookup host choice.found) with
        clock := choice.now
        dns := s.dns.store choice.now (keyOf host port) (doLookup host choice.found)
        answers := ⟨keyOf host port, choice.now, doLookup host choice.found, none, true,
          resolved⟩ :: s.answers } := by
  constructor
  case has =>
    intro after
    rw [resolved_cons, Bool.or_eq_true, Bool.and_eq_true, decide_eq_true_iff] at after
    unfold HasAddress
    dsimp only
    rw [lookup_store]
    by_cases mine : key = keyOf host port
    · obtain ⟨good, bad⟩ := kept mine.symm
      by_cases room : s.dns.cache.entries.length < maxCacheEntries
      · rw [if_pos ⟨room, mine⟩]
        cases found : choice.found with
        | some addr => exact ⟨_, rfl, rfl⟩
        | none =>
          -- only a call that was made before could store a failure
          rcases after with ⟨-, wrong⟩ | before
          · rw [isOk_doLookup, found] at wrong
            cases wrong
          · exact absurd room (Nat.not_lt_of_le (bad found before))
      · rw [if_neg fun both => room both.1]
        rcases after with ⟨-, right⟩ | before
        · rw [isOk_doLookup] at right
          exact (good right).resolve_left room
        · exact lasting.has before
    · rw [if_neg fun both => mine both.2]
      rcases after with ⟨same, -⟩ | before
      · exact absurd same.symm mine
      · exact lasting.has before
  case found =>
    refine found_of_lookup lasting fun entry here => ?_
    rw [lookup_store] at here
    split at here
    next both =>
      cases here
      exact .inr ⟨both.2, rfl⟩
    next => exact .inl here
  case served =>
    intro answer member mine flag
    rcases List.mem_cons.mp member with rfl | old
    · have late := unresolved host port resolved rfl mine
      rw [late] at flag
      cases flag
    · obtain ⟨addr, result, found⟩ := lasting.served answer old mine flag
      exact ⟨addr, result, found.lookedUp _ _ _⟩

theorem Lasting.background {stored host : Text} (lasting : Lasting key s) :
    Lasting key
      { s.lookedUp stored choice.now (doLookup host choice.found) with
        clock := choice.now
        dns := s.dns.storeOk choice.now stored (doLookup host choice.found) } := by
  constructor
  case has =>
    intro resolved
    obtain ⟨entry, here, good⟩ := lasting.has resolved
    unfold HasAddress
    dsimp only
    rw [lookup_storeOk]
    split
    next replaced => exact ⟨_, rfl, replaced.1.1⟩
    next => exact ⟨entry, here, good⟩
  case found =>
    refine found_of_lookup lasting fun entry here => ?_
    rw [lookup_storeOk] at here
    split at here
    next replaced =>
      cases here
      exact .inr ⟨replaced.2, rfl⟩
    next => exact .inl here
  case served =>
    intro answer member mine flag
    obtain ⟨addr, result, found⟩ := lasting.served answer member mine flag
    exact ⟨addr, result, found.lookedUp _ _ _⟩

theorem Lasting.evict (lasting : Lasting key s) (kept : Kept key s .evictIdleEntries choice) :
    Lasting key { s with
      clock := choice.now, dns := s.dns.evictIdle (choice.now - entryIdleEvict) } := by
  constructor
  case has =>
    intro resolved
    obtain ⟨entry, here, good⟩ := lasting.has resolved
    refine ⟨entry, ?_, good⟩
    dsimp only [evictIdle]
    rw [HashMap.lookup_retain, here, Option.filter_some_pos]
    · rfl
    · rw [decide_eq_true_iff]
      exact Nat.sub_le_of_le_add (kept resolved entry here)
  case found =>
    intro entry here
    dsimp only [evictIdle] at here
    rw [HashMap.lookup_retain] at here
    exact lasting.found entry (Option.filter_eq_some_iff.mp here).1
  case served => exact lasting.served

theorem Lasting.step (lasting : Lasting key s) (unresolved : Unresolved key s task)
    (kept : Kept key s task choice) (effect : DnsEffect s choice task s' task') :
    Lasting key s' ∧ Unresolved key s' task' := by
  cases effect with
  | hit named stored goesOn =>
    exact ⟨lasting.hit stored, fun host port resolved same => absurd same (goesOn _ _ _)⟩
  | miss named absent =>
    refine ⟨⟨lasting.has, lasting.found, lasting.served⟩, ?_⟩
    rintro host port resolved same rfl
    cases same
    refine Bool.eq_false_iff.mpr fun before => ?_
    obtain ⟨entry, here, -⟩ := lasting.has before
    cases here.symm.trans absent
  | looked => exact ⟨lasting.looked unresolved kept, fun _ _ _ same => by cases same⟩
  | background _ _ _ goesOn =>
    exact ⟨lasting.background, fun host port resolved same => absurd same (goesOn _ _ _)⟩
  | evict due goesOn =>
    exact ⟨lasting.evict kept, fun host port resolved same => absurd same (goesOn _ _ _)⟩
  | quiet refreshing _ _ _ goesOn =>
    refine ⟨⟨lasting.has, lasting.found, lasting.served⟩, ?_⟩
    exact fun host port resolved same => absurd same (goesOn _ _ _)

end Lasting

/-- Once a hostname has been resolved, every call for it is answered with an address that a
lookup has found, as long as its entry is kept. -/
theorem served_of_kept (key : Text) (events : List (Threads.Event DnsTask DnsChoice))
    (kept : Guarded (Threads.step DnsTask.fresh DnsTask.advance) (MoveCond (Kept key))
      ⟨.start, []⟩ events) :
    Always (Threads.step DnsTask.fresh DnsTask.advance) (fun pool => Served key pool.shared)
      ⟨.start, []⟩ events := by
  have initial : Lasting key .start :=
    ⟨fun resolved => (by cases resolved), fun _ here => (by cases here),
      fun _ member => by cases member⟩
  have holds : Always (Threads.step DnsTask.fresh DnsTask.advance)
      (Holds (Lasting key) (Unresolved key)) ⟨.start, []⟩ events := by
    refine always_stable (Lasting key) (Unresolved key) ?_ ?_ ?_
      ⟨initial, fun _ member => by cases member⟩ kept
    · rintro shared task - fresh host port resolved rfl
      cases fresh
    · intro shared task choice shared' task' lasting unresolved kept moved
      exact lasting.step unresolved kept (dnsEffect_of_advance moved).2
    · exact fun _ _ _ _ _ _ _ _ _ _ unresolved => unresolved
  exact holds.imp fun pool both => both.1.served

/-- Once the hostname has been resolved, the last call for it is no longer ago than a minute. -/
def EveryMinute (key : Text) (s : DnsShared) : Prop :=
  s.resolved key → ∃ call ∈ s.calls, call.1 = key ∧ s.clock ≤ call.2 + 60 * nanosPerSecond

instance (key : Text) (s : DnsShared) : Decidable (EveryMinute key s) :=
  inferInstanceAs (Decidable (_ → _))

namespace DnsOutage

def host : Text := "lobby.example.com".toList

def port : UInt16 := 25565

def addr : SocketAddr := ⟨.v4 ⟨192, 0, 2, 10⟩, port⟩

def seconds (n : Nat) : Nat := n * nanosPerSecond

/-- The first call, which looks up the address. -/
def firstCall : List (Threads.Event DnsTask DnsChoice) :=
  [.spawn (.resolve host port), .move 0 ⟨0, none⟩, .move 0 ⟨0, some addr⟩]

/-- A call after `m` minutes, the `m`-th after the first, with a refresh that finds `found`. -/
def callAfter (m : Nat) (found : Option SocketAddr) : List (Threads.Event DnsTask DnsChoice) :=
  [.spawn (.resolve host port), .move m ⟨seconds (60 * m), none⟩,
    .move m ⟨seconds (60 * m), none⟩, .move m ⟨seconds (60 * m), found⟩,
    .move m ⟨seconds (60 * m), none⟩]

/-- The address is refreshed after a minute, and the cache is swept after eleven. -/
def refreshedInTime : List (Threads.Event DnsTask DnsChoice) :=
  firstCall ++ callAfter 1 (some addr) ++
    [.spawn .evictIdleEntries, .move 2 ⟨seconds 661, none⟩, .move 2 ⟨seconds 661, none⟩] ++
    [.spawn (.resolve host port), .move 3 ⟨seconds 662, none⟩]

theorem served_refreshedInTime :
    Guarded (Threads.step DnsTask.fresh DnsTask.advance) (MoveCond (Kept (keyOf host port)))
      ⟨.start, []⟩ refreshedInTime ∧
    Always (Threads.step DnsTask.fresh DnsTask.advance)
      (fun pool => Served (keyOf host port) pool.shared) ⟨.start, []⟩ refreshedInTime :=
  have kept : Guarded (Threads.step DnsTask.fresh DnsTask.advance)
      (MoveCond (Kept (keyOf host port))) ⟨.start, []⟩ refreshedInTime := by decide +kernel
  ⟨kept, served_of_kept (keyOf host port) refreshedInTime kept⟩

/-- No refresh succeeds for eleven minutes; then the cache is swept, and the next call waits for a
lookup that fails as well. -/
def outage : List (Threads.Event DnsTask DnsChoice) :=
  firstCall ++ (List.range 11).flatMap (fun m => callAfter (m + 1) none) ++
    [.spawn .evictIdleEntries, .move 12 ⟨seconds 661, none⟩, .move 12 ⟨seconds 661, none⟩] ++
    [.spawn (.resolve host port), .move 13 ⟨seconds 720, none⟩, .move 13 ⟨seconds 720, none⟩]

theorem host_in_use_evicted :
    ¬ ∀ (host : Text) (port : UInt16) (events : List (Threads.Event DnsTask DnsChoice)),
      isIpLiteral host port = none →
      Always (Threads.step DnsTask.fresh DnsTask.advance)
        (fun pool => EveryMinute (keyOf host port) pool.shared) ⟨.start, []⟩ events →
      Always (Threads.step DnsTask.fresh DnsTask.advance)
        (fun pool => Served (keyOf host port) pool.shared) ⟨.start, []⟩ events := by
  intro stays
  have served := stays host port outage (by decide +kernel) (by decide +kernel)
  have good : Always (Threads.step DnsTask.fresh DnsTask.advance)
      (fun pool => ∀ answer ∈ pool.shared.answers, answer.key = keyOf host port →
        answer.resolved → answer.result.isOk) ⟨.start, []⟩ outage := by
    refine served.imp fun pool all answer member mine resolved => ?_
    obtain ⟨addr, result, -⟩ := all answer member mine resolved
    exact isOk_iff.mpr ⟨addr, result⟩
  exact absurd good (by decide +kernel)

end DnsOutage

/-! ### Failures that stay -/

/-- A call that fails without a lookup of its own comes at most `NEGATIVE_TTL` after a lookup that
failed; and a call that comes upon a failure that has expired looks up itself, and returns what it
finds. -/
def Brief (s : DnsShared) (answer : DnsAnswer) : Prop :=
  (¬ answer.result.isOk → answer.looked = false → ∃ lookup ∈ s.lookups, lookup.key = answer.key ∧
    ¬ lookup.result.isOk ∧ lookup.time ≤ answer.time ∧ answer.time ≤ lookup.time + negativeTtl) ∧
  ∀ entry ∈ answer.found, ¬ entry.result.isOk → entry.expiresAt ≤ answer.time →
    answer.looked ∧ ∃ lookup ∈ s.lookups, lookup.key = answer.key ∧ lookup.time = answer.time ∧
      lookup.result = answer.result

instance (s : DnsShared) (answer : DnsAnswer) : Decidable (Brief s answer) :=
  inferInstanceAs (Decidable (_ ∧ _))

/-- No call comes upon a failure that has expired. -/
def Unexpired (s : DnsShared) (task : DnsTask) (choice : DnsChoice) : Prop :=
  match task with
  | .resolve host port => s.clock ≤ choice.now → isIpLiteral host port = none →
      ∀ entry ∈ s.dns.cache.lookup (keyOf host port), ¬ entry.result.isOk →
        choice.now < entry.expiresAt
  | _ => True

instance (s : DnsShared) (task : DnsTask) (choice : DnsChoice) :
    Decidable (Unexpired s task choice) := by
  unfold Unexpired
  split <;> infer_instance

/-- A failure in the cache is one of a lookup, and expires `NEGATIVE_TTL` after it. -/
def Dated (s : DnsShared) : Prop :=
  ∀ key, ∀ entry ∈ s.dns.cache.lookup key, ¬ entry.result.isOk →
    ∃ lookup ∈ s.lookups, lookup.key = key ∧ ¬ lookup.result.isOk ∧ lookup.time ≤ s.clock ∧
      entry.expiresAt ≤ lookup.time + negativeTtl

section Brief

variable {s s' : DnsShared} {task task' : DnsTask} {choice : DnsChoice}

/-- A failure that was dated is dated still after more lookups, at a later time. -/
theorem Dated.later (dated : Dated s) (forth : s.clock ≤ choice.now) {lookups : List DnsLookup}
    (more : ∀ lookup ∈ s.lookups, lookup ∈ lookups) {key : Text} {entry : DnsEntry}
    (here : s.dns.cache.lookup key = some entry) (bad : ¬ entry.result.isOk) :
    ∃ lookup ∈ lookups, lookup.key = key ∧ ¬ lookup.result.isOk ∧ lookup.time ≤ choice.now ∧
      entry.expiresAt ≤ lookup.time + negativeTtl := by
  obtain ⟨lookup, member, mine, failed, past, expiry⟩ := dated key entry here bad
  exact ⟨lookup, more lookup member, mine, failed, Nat.le_trans past forth, expiry⟩

theorem Dated.step (dated : Dated s) (forth : s.clock ≤ choice.now)
    (effect : DnsEffect s choice task s' task') : Dated s' := by
  intro key entry here bad
  cases effect with
  | hit named stored goesOn => exact dated.later forth (fun _ => id) here bad
  | miss named absent => exact dated.later forth (fun _ => id) here bad
  | @looked host port resolved =>
    dsimp only at here
    rw [Option.mem_def, lookup_store] at here
    split at here
    next both =>
      -- the failure that was just stored
      cases here
      refine ⟨_, List.mem_cons_self, both.2.symm, bad, Nat.le_refl _, ?_⟩
      simp only [entryFor] at bad ⊢
      rw [if_neg bad]
    next => exact dated.later forth (fun _ => List.mem_cons_of_mem _) here bad
  | background _ _ _ goesOn =>
    dsimp only at here
    rw [Option.mem_def, lookup_storeOk] at here
    split at here
    next replaced =>
      cases here
      exact absurd replaced.1.1 bad
    next => exact dated.later forth (fun _ => List.mem_cons_of_mem _) here bad
  | evict due goesOn =>
    dsimp only [evictIdle] at here
    rw [Option.mem_def, HashMap.lookup_retain] at here
    exact dated.later forth (fun _ => id) (Option.filter_eq_some_iff.mp here).1 bad
  | quiet refreshing _ _ _ goesOn => exact dated.later forth (fun _ => id) here bad

theorem Brief.mono {answer : DnsAnswer} (brief : Brief s answer)
    (more : ∀ lookup ∈ s.lookups, lookup ∈ s'.lookups) : Brief s' answer := by
  obtain ⟨recent, real⟩ := brief
  refine ⟨fun bad cached => ?_, fun entry found failed expired => ?_⟩
  · obtain ⟨lookup, member, rest⟩ := recent bad cached
    exact ⟨lookup, more lookup member, rest⟩
  · obtain ⟨looked, lookup, member, rest⟩ := real entry found failed expired
    exact ⟨looked, lookup, more lookup member, rest⟩

private theorem unexpired_of_ne (other : ∀ host port, task ≠ .resolve host port) :
    Unexpired s task choice := by
  cases task with
  | resolve host port => exact absurd rfl (other host port)
  | _ => trivial

/-- Whether all answers are brief after a step, when they were before it. -/
theorem brief_step_iff (dated : Dated s) (brief : ∀ answer ∈ s.answers, Brief s answer)
    (forth : s.clock ≤ choice.now) (effect : DnsEffect s choice task s' task') :
    (∀ answer ∈ s'.answers, Brief s' answer) ↔ Unexpired s task choice := by
  cases effect with
  | @hit host port entry task' named stored goesOn =>
    constructor
    · intro all _ _ other found bad
      obtain rfl : other = entry := Option.some.inj (found.symm.trans stored)
      refine Nat.lt_of_not_le fun expired => ?_
      have looked := ((all _ List.mem_cons_self).2 other rfl bad expired).1
      cases looked
    · intro unexpired answer member
      rcases List.mem_cons.mp member with rfl | old
      · refine ⟨fun bad _ => ?_, fun other found bad expired => ?_⟩
        · -- the entry has not expired, so the lookup that failed is recent
          have early := unexpired forth named entry stored bad
          obtain ⟨lookup, member, mine, failed, past, expiry⟩ := dated _ entry stored bad
          exact ⟨lookup, member, mine, failed, Nat.le_trans past forth,
            Nat.le_of_lt (Nat.lt_of_lt_of_le early expiry)⟩
        · obtain rfl : entry = other := Option.some.inj found
          exact absurd (unexpired forth named entry stored bad) (Nat.not_lt_of_le expired)
      · exact (brief answer old).mono fun _ => id
  | miss named absent =>
    refine iff_of_true (fun answer member => (brief answer member).mono fun _ => id) ?_
    intro _ _ entry found
    cases found.symm.trans absent
  | looked =>
    refine iff_of_true (fun answer member => ?_) trivial
    rcases List.mem_cons.mp member with rfl | old
    · exact ⟨fun _ cached => (by cases cached), fun _ found => by cases found⟩
    · exact (brief answer old).mono fun _ => List.mem_cons_of_mem _
  | background _ other _ goesOn =>
    refine iff_of_true (fun answer member => ?_) (unexpired_of_ne other)
    exact (brief answer member).mono fun _ => List.mem_cons_of_mem _
  | evict due goesOn =>
    exact iff_of_true (fun answer member => (brief answer member).mono fun _ => id) trivial
  | quiet refreshing literal _ _ goesOn =>
    refine iff_of_true (fun answer member => (brief answer member).mono fun _ => id) ?_
    cases task with
    | resolve host port => exact fun _ named => absurd named (literal host port rfl)
    | _ => trivial

end Brief

/-- Failures are served briefly exactly in the runs in which no call comes upon a failure that
has expired. -/
theorem brief_iff_unexpired (events : List (Threads.Event DnsTask DnsChoice))
    (last : Threads.Pool DnsShared DnsTask)
    (ran : run (Threads.step DnsTask.fresh DnsTask.advance) ⟨.start, []⟩ events = some last) :
    Always (Threads.step DnsTask.fresh DnsTask.advance)
        (fun pool => ∀ answer ∈ pool.shared.answers, Brief pool.shared answer) ⟨.start, []⟩ events ↔
      Guarded (Threads.step DnsTask.fresh DnsTask.advance) (MoveCond Unexpired) ⟨.start, []⟩
        events := by
  -- `Dated` is kept by every step, and with it a step decides alone whether its answer is brief
  refine @always_iff_guarded _ _ _ (fun pool => Dated pool.shared) _ _ ?_ ?_ _ _ _ ?_ ?_ ran
  · intro pool event next dated stepped
    cases event with
    | spawn task =>
      obtain ⟨-, rfl⟩ := step_spawn_eq_some.mp stepped
      exact dated
    | move i choice =>
      obtain ⟨task, shared, task', -, moved, rfl⟩ := step_move_eq_some.mp stepped
      obtain ⟨forth, effect⟩ := dnsEffect_of_advance moved
      exact dated.step forth effect
  · intro pool event next dated brief stepped
    cases event with
    | spawn task =>
      obtain ⟨-, rfl⟩ := step_spawn_eq_some.mp stepped
      exact iff_of_true brief trivial
    | move i choice =>
      obtain ⟨task, shared, task', here, moved, rfl⟩ := step_move_eq_some.mp stepped
      obtain ⟨forth, effect⟩ := dnsEffect_of_advance moved
      rw [brief_step_iff dated brief forth effect]
      constructor
      · intro unexpired other at_i
        obtain rfl : task = other := Option.some.inj (here.symm.trans at_i)
        exact unexpired
      · intro allowed
        exact allowed task here
  · intro key entry here
    cases here
  · intro answer member
    cases member

namespace DnsOutage

/-- A lookup fails, and a call within the five seconds is answered with the failure. Ten minutes
after it has expired the failure is swept, and the next call looks up the address. -/
def sweptFailure : List (Threads.Event DnsTask DnsChoice) :=
  [.spawn (.resolve host port), .move 0 ⟨0, none⟩, .move 0 ⟨0, none⟩,
    .spawn (.resolve host port), .move 1 ⟨seconds 4, none⟩,
    .spawn .evictIdleEntries, .move 2 ⟨seconds 606, none⟩, .move 2 ⟨seconds 606, none⟩,
    .spawn (.resolve host port), .move 3 ⟨seconds 607, none⟩, .move 3 ⟨seconds 607, some addr⟩]

theorem brief_sweptFailure :
    (∃ last, run (Threads.step DnsTask.fresh DnsTask.advance) ⟨.start, []⟩ sweptFailure =
      some last) ∧
    Always (Threads.step DnsTask.fresh DnsTask.advance)
      (fun pool => ∀ answer ∈ pool.shared.answers, Brief pool.shared answer) ⟨.start, []⟩
      sweptFailure := by
  obtain ⟨last, ran⟩ : ∃ last, run (Threads.step DnsTask.fresh DnsTask.advance) ⟨.start, []⟩
      sweptFailure = some last := Option.isSome_iff_exists.mp (by decide +kernel)
  refine ⟨⟨last, ran⟩, (brief_iff_unexpired sweptFailure last ran).mpr ?_⟩
  decide +kernel

/-- A minute after its only lookup has failed, the hostname is resolved again. -/
def staleFailure : List (Threads.Event DnsTask DnsChoice) :=
  [.spawn (.resolve host port), .move 0 ⟨0, none⟩, .move 0 ⟨0, none⟩,
    .spawn (.resolve host port), .move 1 ⟨seconds 60, none⟩]

theorem failure_served_stale :
    ¬ ∀ events : List (Threads.Event DnsTask DnsChoice),
      Always (Threads.step DnsTask.fresh DnsTask.advance)
        (fun pool => ∀ answer ∈ pool.shared.answers, Brief pool.shared answer) ⟨.start, []⟩
        events := by
  intro brief
  exact absurd (brief staleFailure) (by decide +kernel)

end DnsOutage

end MCGate
