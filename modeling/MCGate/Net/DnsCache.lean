import Mathlib.Data.Finset.Basic
import MCGate.Lib.Threads
import MCGate.Std.Display
import MCGate.Std.HashMap
import MCGate.Std.Time

/-!
# Resolved hostnames

`resolve` answers from the cache wherever it has an entry, also from one that has expired; then
a lookup in the background replaces it. Only a hostname that is not in the cache is looked up
while the caller waits. Three places store the result of a lookup, and all of them leave the
cache alone once it is full, whether or not the hostname has an entry already: an address that
has been refreshed in vain stays.

The calls and the background tasks run at once. A task goes from one lock or lookup to the next,
and the end of a lookup is one step with the storing of its result.
-/
namespace MCGate

structure DnsResolveError where
  host : Text
  deriving DecidableEq, Repr

abbrev DnsResult := Except DnsResolveError SocketAddr

structure DnsEntry where
  result : DnsResult
  expiresAt : Instant
  deriving DecidableEq

structure DnsCache where
  cache : HashMap Text DnsEntry
  refreshing : Finset Text

namespace DnsCache

def cacheTtl : Nat := 60 * nanosPerSecond

def negativeTtl : Nat := 5 * nanosPerSecond

def entryIdleEvict : Nat := 600 * nanosPerSecond

def maxCacheEntries : Nat := 10000

/-- `format!("{host}:{port}")` -/
def keyOf (host : Text) (port : UInt16) : Text := host ++ ':' :: displayInt port.toNat

def isIpLiteral (host : Text) (port : UInt16) : Option SocketAddr :=
  match readIpv4Addr host with
  | some (ip, []) => some ⟨.v4 ip, port⟩
  | _ =>
    if ':' ∈ host then
      match readIpv6Addr (trimEndMatches (· = ']') (host.dropWhile (· = '['))) with
      | some (ip, []) => some ⟨.v6 ip, port⟩
      | _ => none
    else none

/-- The first address that the resolver gives, if any. -/
def doLookup (host : Text) (found : Option SocketAddr) : DnsResult :=
  match found with
  | some addr => .ok addr
  | none => .error ⟨host⟩

/-- The entry for a result that is stored at `now`. -/
def entryFor (now : Instant) (result : DnsResult) : DnsEntry :=
  ⟨result, now + if result.isOk then cacheTtl else negativeTtl⟩

/-- A result is stored unless the cache is full. -/
def store (self : DnsCache) (now : Instant) (key : Text) (result : DnsResult) : DnsCache :=
  if self.cache.entries.length < maxCacheEntries then
    { self with cache := self.cache.insert key (entryFor now result) }
  else self

/-- A result that is good is stored. -/
def storeOk (self : DnsCache) (now : Instant) (key : Text) (result : DnsResult) : DnsCache :=
  if result.isOk then self.store now key result else self

/-- The first half of `evict_idle_entries`, from the cutoff on. -/
def evictIdle (self : DnsCache) (cutoff : Instant) : DnsCache :=
  { self with cache := self.cache.retain fun _ entry => cutoff ≤ entry.expiresAt }

/-- The second half. -/
def retainRefreshing (self : DnsCache) (keys : List Text) : DnsCache :=
  { self with refreshing := self.refreshing.filter fun key => keys.contains key }

end DnsCache

/-- A lookup that has ended. -/
structure DnsLookup where
  key : Text
  time : Instant
  result : DnsResult

/-- What a `resolve` has returned: with the entry that it found in the cache, or after a lookup
of its own. `resolved` is whether the hostname had been resolved when the call was made. -/
structure DnsAnswer where
  key : Text
  time : Instant
  result : DnsResult
  found : Option DnsEntry
  looked : Bool
  resolved : Bool

/-- What the tasks share. Only the statements read the lookups, the calls and the answers. -/
structure DnsShared where
  dns : DnsCache
  clock : Instant
  lookups : List DnsLookup
  calls : List (Text × Instant)
  answers : List DnsAnswer

inductive DnsTask where
  | resolve (host : Text) (port : UInt16)
  /-- a call that found no entry waits for its lookup -/
  | resolving (host : Text) (port : UInt16) (resolved : Bool)
  | refreshAsync (host : Text) (port : UInt16)
  /-- a refresh waits for its lookup -/
  | refresh (host : Text) (port : UInt16)
  | refreshed (key : Text)
  | warm (host : Text) (port : UInt16)
  | evictIdleEntries
  | retainRefreshing (keys : List Text)
  | done

/-- What the environment decides at a step: the clock, and what a lookup finds. -/
structure DnsChoice where
  now : Instant
  found : Option SocketAddr

namespace DnsShared

def start : DnsShared := ⟨⟨∅, ∅⟩, 0, [], [], []⟩

/-- The hostname was resolved to an address before. -/
def resolved (s : DnsShared) (key : Text) : Bool :=
  s.answers.any fun answer => answer.key = key && answer.result.isOk

/-- A lookup ends. -/
def lookedUp (s : DnsShared) (key : Text) (now : Instant) (result : DnsResult) : DnsShared :=
  { s with lookups := ⟨key, now, result⟩ :: s.lookups }

end DnsShared

namespace DnsTask

open DnsCache

def fresh : DnsTask → Bool
  | .resolve _ _ | .warm _ _ | .evictIdleEntries => true
  | _ => false

/-- What a task does at `now`. -/
def next (s : DnsShared) (choice : DnsChoice) : DnsTask → Option (DnsShared × DnsTask)
  | .resolve host port =>
    let key := keyOf host port
    match isIpLiteral host port with
    | some _ => some (s, .done)
    | none =>
      let s := { s with calls := (key, choice.now) :: s.calls }
      match s.dns.cache.lookup key with
      | some entry =>
        let answer := ⟨key, choice.now, entry.result, some entry, false, s.resolved key⟩
        some ({ s with answers := answer :: s.answers },
          if entry.expiresAt ≤ choice.now then .refreshAsync host port else .done)
      | none => some (s, .resolving host port (s.resolved key))
  | .resolving host port resolved =>
    let key := keyOf host port
    let result := doLookup host choice.found
    let answer := ⟨key, choice.now, result, none, true, resolved⟩
    some ({ s.lookedUp key choice.now result with
      dns := s.dns.store choice.now key result
      answers := answer :: s.answers }, .done)
  | .refreshAsync host port =>
    let key := keyOf host port
    if key ∈ s.dns.refreshing then some (s, .done)
    else some ({ s with dns := { s.dns with refreshing := insert key s.dns.refreshing } },
      .refresh host port)
  | .refresh host port =>
    let key := keyOf host port
    let result := doLookup host choice.found
    some ({ s.lookedUp key choice.now result with
      dns := s.dns.storeOk choice.now key result }, .refreshed key)
  | .refreshed key =>
    some ({ s with dns := { s.dns with refreshing := s.dns.refreshing.erase key } }, .done)
  | .warm host port =>
    let key := keyOf host port
    match isIpLiteral host port with
    | some _ => some (s, .done)
    | none =>
      let result := doLookup host choice.found
      some ({ s.lookedUp key choice.now result with
        dns := s.dns.storeOk choice.now key result }, .done)
  | .evictIdleEntries =>
    -- `now.checked_sub(ENTRY_IDLE_EVICT)` is `none` where the clock has not run that long
    if choice.now < entryIdleEvict then some (s, .done)
    else
      let dns := s.dns.evictIdle (choice.now - entryIdleEvict)
      some ({ s with dns }, .retainRefreshing (dns.cache.entries.map Sigma.fst))
  | .retainRefreshing keys => some ({ s with dns := s.dns.retainRefreshing keys }, .done)
  | .done => none

/-- One step; time does not go back. -/
def advance (s : DnsShared) (task : DnsTask) (choice : DnsChoice) : Option (DnsShared × DnsTask) :=
  if choice.now < s.clock then none else next { s with clock := choice.now } choice task

end DnsTask

namespace DnsCache

variable {self : DnsCache} {now : Instant} {key other : Text} {result : DnsResult}

/-- Whatever is stored, only the entry under its key changes. -/
theorem lookup_store :
    (self.store now key result).cache.lookup other =
      if self.cache.entries.length < maxCacheEntries ∧ other = key then
        some (entryFor now result)
      else self.cache.lookup other := by
  unfold store
  by_cases room : self.cache.entries.length < maxCacheEntries
  · simp only [room, if_true, true_and, HashMap.lookup_insert_eq]
  · simp only [room, if_false, false_and]

theorem lookup_storeOk :
    (self.storeOk now key result).cache.lookup other =
      if (result.isOk ∧ self.cache.entries.length < maxCacheEntries) ∧ other = key then
        some (entryFor now result)
      else self.cache.lookup other := by
  unfold storeOk
  cases result.isOk with
  | false => simp
  | true => simp only [if_true, lookup_store, true_and]

end DnsCache

/-! ### What is refreshed in a full cache -/

namespace DnsTask

open DnsCache

/-- The result that the step of a task is to store, with its key. -/
def stores (choice : DnsChoice) : DnsTask → Option (Text × DnsResult)
  | .resolving host port _ => some (keyOf host port, doLookup host choice.found)
  | .refresh host port =>
    if (doLookup host choice.found).isOk then some (keyOf host port, doLookup host choice.found)
    else none
  | .warm host port =>
    if (isIpLiteral host port).isNone ∧ (doLookup host choice.found).isOk then
      some (keyOf host port, doLookup host choice.found)
    else none
  | _ => none

/-- A result that is to be stored where there is an entry takes its place. -/
def Replaces (s : DnsShared) (task : DnsTask) (choice : DnsChoice) : Prop :=
  ∀ s' task' key result, advance s task choice = some (s', task') →
    task.stores choice = some (key, result) → (s.dns.cache.lookup key).isSome →
    s'.dns.cache.lookup key = some (entryFor choice.now result)

/-- The cache is not full, or the entry is the one to be stored already. -/
def HasRoom (s : DnsShared) (task : DnsTask) (choice : DnsChoice) : Prop :=
  s.clock ≤ choice.now → ∀ entry ∈ task.stores choice, (s.dns.cache.lookup entry.1).isSome →
    s.dns.cache.entries.length < maxCacheEntries ∨
      s.dns.cache.lookup entry.1 = some (entryFor choice.now entry.2)

/-- What a step leaves under the key that it is to store a result under. -/
theorem lookup_of_stores {s s' : DnsShared} {task task' : DnsTask} {choice : DnsChoice}
    {key : Text} {result : DnsResult} (moved : advance s task choice = some (s', task'))
    (stored : task.stores choice = some (key, result)) :
    s'.dns.cache.lookup key =
      if s.dns.cache.entries.length < maxCacheEntries then some (entryFor choice.now result)
      else s.dns.cache.lookup key := by
  unfold advance at moved
  split at moved
  · cases moved
  · cases task with
    | resolving host port resolved =>
      cases stored
      cases moved
      rw [lookup_store]
      simp only [and_true]
    | refresh host port =>
      obtain ⟨good, same⟩ := Option.ite_none_right_eq_some.mp stored
      cases same
      cases moved
      rw [lookup_storeOk]
      simp only [good, true_and, and_true]
    | warm host port =>
      obtain ⟨⟨named, good⟩, same⟩ := Option.ite_none_right_eq_some.mp stored
      cases same
      simp only [next, Option.isNone_iff_eq_none.mp named, Option.some.injEq,
        Prod.mk.injEq] at moved
      obtain ⟨rfl, rfl⟩ := moved
      rw [lookup_storeOk]
      simp only [good, true_and, and_true]
    | _ => cases stored

private theorem replaces_iff_hasRoom (s : DnsShared) (task : DnsTask) (choice : DnsChoice) :
    Replaces s task choice ↔ HasRoom s task choice := by
  constructor
  · rintro replaces forth ⟨key, result⟩ stored present
    have stored : task.stores choice = some (key, result) := stored
    obtain ⟨⟨s', task'⟩, moved⟩ : ∃ after, advance s task choice = some after := by
      rw [advance, if_neg (Nat.not_lt_of_le forth)]
      cases task with
      | resolving host port resolved => exact ⟨_, rfl⟩
      | refresh host port => exact ⟨_, rfl⟩
      | warm host port =>
        cases named : isIpLiteral host port <;> simp only [next, named] <;> exact ⟨_, rfl⟩
      | _ => cases stored
    -- what is stored where there is no room is what was there
    have after := replaces s' task' key result moved stored present
    rw [lookup_of_stores moved stored] at after
    split at after
    next room => exact .inl room
    next => exact .inr after
  · intro room s' task' key result moved stored present
    have forth : s.clock ≤ choice.now := by
      refine Nat.le_of_not_lt fun back => ?_
      rw [advance, if_pos back] at moved
      cases moved
    rw [lookup_of_stores moved stored]
    rcases room forth (key, result) stored present with free | same
    · rw [if_pos free]
    · split
      · rfl
      · exact same

end DnsTask

open Machine Threads

/-- In every run of calls, refreshes and evictions, each lookup of a hostname that has an entry
replaces it exactly if, whenever one ends, the cache is not full. -/
theorem dnsCache_replaces_iff (events : List (Threads.Event DnsTask DnsChoice)) :
    Guarded (Threads.step DnsTask.fresh DnsTask.advance) (MoveCond DnsTask.Replaces) ⟨.start, []⟩
        events ↔
      Guarded (Threads.step DnsTask.fresh DnsTask.advance) (MoveCond DnsTask.HasRoom) ⟨.start, []⟩
        events := by
  refine guarded_iff_of_invariant (fun _ _ _ (_ : True) _ => trivial) ?_ trivial
  intro pool event _
  cases event with
  | spawn task => exact Iff.rfl
  | move i choice =>
    apply forall_congr'
    intro task
    apply forall_congr'
    intro _
    exact DnsTask.replaces_iff_hasRoom pool.shared task choice

/-! ### A flood of subdomains -/

namespace DnsFlood

open DnsCache DnsTask

def subdomain (i : Nat) : Text := 's' :: displayInt i ++ ".example.com".toList

def gamePort : UInt16 := 25565

def keyAt (i : Nat) : Text := keyOf (subdomain i) gamePort

def oldAddr : SocketAddr := ⟨.v4 ⟨192, 0, 2, 1⟩, gamePort⟩

def newAddr : SocketAddr := ⟨.v4 ⟨192, 0, 2, 2⟩, gamePort⟩

/-- A subdomain that was not seen before is resolved. -/
def visit (i : Nat) : List (Threads.Event DnsTask DnsChoice) :=
  [.spawn (.resolve (subdomain i) gamePort), .move i ⟨0, none⟩, .move i ⟨0, some oldAddr⟩]

def flood (n : Nat) : List (Threads.Event DnsTask DnsChoice) := (List.range n).flatMap visit

private theorem isIpLiteral_subdomain (i : Nat) : isIpLiteral (subdomain i) gamePort = none := by
  have noColon : ':' ∉ subdomain i := by
    have digits : ':' ∉ displayInt i := notMem_displayInt (by decide) (by decide) _
    simp only [subdomain, List.cons_append, List.mem_cons, List.mem_append, not_or]
    exact ⟨by decide, digits, by decide⟩
  have noDigit : readIpv4Addr (subdomain i) = none := rfl
  rw [isIpLiteral, noDigit]
  exact if_neg noColon

private theorem keyAt_injective : Function.Injective keyAt := by
  intro i j same
  unfold keyAt keyOf subdomain at same
  have hosts := List.append_cancel_right same
  rw [List.cons_append, List.cons_append, List.cons.injEq] at hosts
  have digits := displayInt_injective (List.append_cancel_right hosts.2)
  exact Int.ofNat.inj digits

/-- The first `n` subdomains are in the cache, all resolved at the start. -/
structure Flooded (n : Nat) (pool : Threads.Pool DnsShared DnsTask) : Prop where
  threads : pool.threads = List.replicate n .done
  clock : pool.shared.clock = 0
  refreshing : pool.shared.dns.refreshing = ∅
  length : pool.shared.dns.cache.entries.length = n
  stored : ∀ i, pool.shared.dns.cache.lookup (keyAt i) =
    if i < n then some ⟨.ok oldAddr, cacheTtl⟩ else none

/-- As long as the cache is not full, one more subdomain is one more entry. -/
theorem flooded_visit {n : Nat} {pool : Threads.Pool DnsShared DnsTask} (flooded : Flooded n pool)
    (room : n < maxCacheEntries) :
    ∃ pool', run (Threads.step DnsTask.fresh DnsTask.advance) pool (visit n) = some pool' ∧
      Flooded (n + 1) pool' := by
  obtain ⟨⟨dns, clock, lookups, calls, answers⟩, threads⟩ := pool
  obtain ⟨rfl, rfl, idle, length, stored⟩ := flooded
  have absent : dns.cache.lookup (keyAt n) = none := (stored n).trans (if_neg (Nat.lt_irrefl n))
  have length' : (List.replicate n DnsTask.done).length = n := List.length_replicate
  -- the name is not in the cache, so the call looks it up itself
  have missed : advance ⟨dns, 0, lookups, calls, answers⟩ (.resolve (subdomain n) gamePort)
      ⟨0, none⟩ = some (⟨dns, 0, lookups, (keyAt n, 0) :: calls, answers⟩,
        .resolving (subdomain n) gamePort
          (DnsShared.resolved ⟨dns, 0, lookups, (keyAt n, 0) :: calls, answers⟩ (keyAt n))) := by
    have absent : dns.cache.lookup (keyOf (subdomain n) gamePort) = none := absent
    simp only [advance, next, isIpLiteral_subdomain, absent, Nat.lt_irrefl, if_false]
    rfl
  have ended (resolved : Bool) : advance ⟨dns, 0, lookups, (keyAt n, 0) :: calls, answers⟩
      (.resolving (subdomain n) gamePort resolved) ⟨0, some oldAddr⟩ =
        some (⟨dns.store 0 (keyAt n) (.ok oldAddr), 0, ⟨keyAt n, 0, .ok oldAddr⟩ :: lookups,
          (keyAt n, 0) :: calls,
          ⟨keyAt n, 0, .ok oldAddr, none, true, resolved⟩ :: answers⟩, .done) := rfl
  refine ⟨_, run_cons_eq_some.mpr ⟨_, step_spawn_eq_some.mpr ⟨rfl, rfl⟩, run_cons_eq_some.mpr
    ⟨_, step_move_last length' missed, run_cons_eq_some.mpr
      ⟨_, step_move_last length' (ended _), rfl⟩⟩⟩, ?_⟩
  · constructor
    case threads => exact List.replicate_succ'.symm
    case clock => rfl
    case refreshing =>
      dsimp only [store]
      split <;> exact idle
    case length =>
      dsimp only [store]
      rw [if_pos (length.symm ▸ room)]
      dsimp only
      rw [HashMap.length_insert, absent, length]
      rfl
    case stored =>
      intro i
      dsimp only
      rw [lookup_store, stored i]
      -- the keys of different subdomains differ
      by_cases same : i = n
      · subst same
        rw [if_pos ⟨length.symm ▸ room, rfl⟩, if_pos (Nat.lt_succ_self i)]
        rfl
      · have apart : keyAt i ≠ keyOf (subdomain n) gamePort :=
          fun keys => same (keyAt_injective keys)
        rw [if_neg fun both => apart both.2]
        have split : i < n + 1 ↔ i < n := by omega
        simp only [split]

private theorem flooded_flood {n : Nat} (room : n ≤ maxCacheEntries) :
    ∃ pool, run (Threads.step DnsTask.fresh DnsTask.advance) ⟨.start, []⟩ (flood n) = some pool ∧
      Flooded n pool := by
  induction n with
  | zero => exact ⟨_, rfl, rfl, rfl, rfl, rfl, fun _ => rfl⟩
  | succ n ih =>
    obtain ⟨pool, ran, flooded⟩ := ih (Nat.le_of_succ_le room)
    obtain ⟨pool', visited, flooded'⟩ := flooded_visit flooded room
    refine ⟨pool', ?_, flooded'⟩
    rw [flood, List.range_succ, List.flatMap_append, run_append_eq_some]
    exact ⟨pool, ran, by simpa using visited⟩

/-- A minute after `n` subdomains, the first one is resolved again, and refreshed in the
background. -/
def refreshFirst (n : Nat) : List (Threads.Event DnsTask DnsChoice) :=
  [.spawn (.resolve (subdomain 0) gamePort), .move n ⟨cacheTtl, none⟩, .move n ⟨cacheTtl, none⟩,
    .move n ⟨cacheTtl, some newAddr⟩]

private theorem not_replaces_of_flooded {n : Nat} {pool : Threads.Pool DnsShared DnsTask}
    (flooded : Flooded n pool) (nonempty : 0 < n) (full : maxCacheEntries ≤ n) :
    ¬ Guarded (Threads.step DnsTask.fresh DnsTask.advance) (MoveCond DnsTask.Replaces) pool
      (refreshFirst n) := by
  obtain ⟨⟨dns, clock, lookups, calls, answers⟩, threads⟩ := pool
  obtain ⟨rfl, rfl, idle, length, stored⟩ := flooded
  have entry : dns.cache.lookup (keyOf (subdomain 0) gamePort) = _ :=
    (stored 0).trans (if_pos nonempty)
  have length' : (List.replicate n DnsTask.done).length = n := List.length_replicate
  -- the entry has expired: it is the answer, and is refreshed in the background
  have hit : advance ⟨dns, 0, lookups, calls, answers⟩ (.resolve (subdomain 0) gamePort)
      ⟨cacheTtl, none⟩ = some (⟨dns, cacheTtl, lookups, (keyAt 0, cacheTtl) :: calls,
        ⟨keyAt 0, cacheTtl, .ok oldAddr, some ⟨.ok oldAddr, cacheTtl⟩, false,
          DnsShared.resolved ⟨dns, 0, lookups, calls, answers⟩ (keyAt 0)⟩ :: answers⟩,
        .refreshAsync (subdomain 0) gamePort) := by
    simp only [advance, next, isIpLiteral_subdomain, entry, Nat.not_lt_zero, if_false]
    rfl
  have marked (calls : List (Text × Instant)) (answers : List DnsAnswer) :
      advance ⟨dns, cacheTtl, lookups, calls, answers⟩
        (.refreshAsync (subdomain 0) gamePort) ⟨cacheTtl, none⟩ =
        some (⟨{ dns with refreshing := insert (keyAt 0) dns.refreshing }, cacheTtl, lookups, calls,
          answers⟩, .refresh (subdomain 0) gamePort) := by
    have idle : keyOf (subdomain 0) gamePort ∉ dns.refreshing := by
      have none : dns.refreshing = ∅ := idle
      simp [none]
    simp only [advance, next, idle, Nat.lt_irrefl, if_false]
    rfl
  intro guarded
  have first := guarded.2 _ (step_spawn_eq_some.mpr ⟨rfl, rfl⟩)
  have second := first.2 _ (step_move_last length' hit)
  have third := second.2 _ (step_move_last length' (marked _ _))
  have here : (List.replicate n DnsTask.done ++ [DnsTask.refresh (subdomain 0) gamePort])[n]? =
      some (.refresh (subdomain 0) gamePort) := by
    simp
  have room := (replaces_iff_hasRoom _ _ _).mp (third.1 _ here) (Nat.le_refl _)
    (keyAt 0, .ok newAddr) rfl (Option.isSome_of_eq_some entry)
  -- a full cache keeps the entry it has, with the old address
  rcases room with free | same
  · exact absurd (length ▸ free) (Nat.not_lt_of_le full)
  · cases entry.symm.trans same

/-- The address that the refresh has found is not stored: the cache is full. -/
theorem refresh_lost_when_full :
    ¬ ∀ events : List (Threads.Event DnsTask DnsChoice),
      Guarded (Threads.step DnsTask.fresh DnsTask.advance) (MoveCond DnsTask.Replaces)
        ⟨.start, []⟩ events := by
  intro always
  -- the bound is kept behind a name, so that nothing evaluates it
  obtain ⟨n, full⟩ : ∃ n, n = maxCacheEntries := ⟨_, rfl⟩
  obtain ⟨pool, ran, flooded⟩ := flooded_flood (Nat.le_of_eq full)
  have rest := (always (flood n ++ refreshFirst n)).rest ran
  refine not_replaces_of_flooded flooded ?_ (Nat.le_of_eq full.symm) rest
  rw [full]
  decide

end DnsFlood

end MCGate
