import MCGate.Config.Types
import MCGate.Lib.Sql
import MCGate.Net.MetricsText

/-!
# The log of the stats

Now and then a snapshot of the stats is written to a database: a row for the snapshot, one for
each host with players and one for each backend, in three tables of which two refer to the
first. The three are written in one transaction, and pruned through the first: foreign keys
delete the rest. Seen from outside that is one table of whole snapshots (`StatsTable`), each of
which is there with everything that belongs to it or not at all. What SQLite does with a
statement is a parameter, of which only the documentation is known.
-/
namespace MCGate

open Config

/-- What the log reads of a `MetricsSnapshot`. -/
structure LoggedSnapshot extends Api.MetricsSnapshot where
  timestampMillis : Int64
  trackingQueuedRecords : Int64
  trackingDroppedRecordsTotal : Int64

/-! ### Rows -/

structure SnapshotRow where
  timestamp : Int64
  playersOnline : Nat
  uptimeSeconds : Float
  trackingEnabled : Bool
  trackingQueuedRecords : Int64
  trackingDroppedRecordsTotal : Int64

structure HostRow where
  host : Text
  playersOnline : Nat

structure BackendRow where
  routeIndex : Nat
  hosts : Text
  backend : Text
  activeConnections : Int
  latencyMs : Option Int

/-- The tables that refer to `stats_snapshots`. -/
inductive StatsChild where
  | hosts
  | backends
  deriving DecidableEq

abbrev StatsChild.Row : StatsChild → Type
  | .hosts => HostRow
  | .backends => BackendRow

/-- A snapshot with all that belongs to it. -/
abbrev StatsEntry := Sql.Whole SnapshotRow StatsChild.Row

namespace LoggedSnapshot

def row (s : LoggedSnapshot) : SnapshotRow where
  timestamp := s.timestampMillis
  playersOnline := s.playersOnline
  uptimeSeconds := s.uptimeSeconds
  trackingEnabled := s.trackingEnabled
  trackingQueuedRecords := s.trackingQueuedRecords
  trackingDroppedRecordsTotal := s.trackingDroppedRecordsTotal

def hostRows (s : LoggedSnapshot) : List HostRow :=
  s.onlineByHost.entries.map fun entry => ⟨entry.1, entry.2⟩

def backendRows (s : LoggedSnapshot) : List BackendRow :=
  s.backends.map fun b =>
    ⟨b.routeIndex, Api.joinHosts b.hosts, b.backend, b.active, b.latencyMillis⟩

def entry (s : LoggedSnapshot) : StatsEntry where
  row := s.row
  belongs
    | .hosts => s.hostRows
    | .backends => s.backendRows

end LoggedSnapshot

namespace StatsDb

variable {σ : Type} (sqlite : Sql.Engine σ SnapshotRow StatsChild.Row)

/-- One transaction. If it is not committed, it is rolled back. -/
def writeSnapshot (db : σ) (s : LoggedSnapshot) (commits : Bool) : Option (Int × σ) := do
  let (snapshotId, db) ← sqlite.insert db s.row
  let db ← sqlite.insertChildren db .hosts snapshotId s.hostRows
  let db ← sqlite.insertChildren db .backends snapshotId s.backendRows
  if commits then some (snapshotId, db) else none

def cutoff (cfg : StatsLoggingConfig) (nowMillis : Int64) : Int64 :=
  nowMillis - cfg.retentionDays.toInt64 * 86400000

def expired (cfg : StatsLoggingConfig) (nowMillis : Int64) (row : SnapshotRow) : Bool :=
  row.timestamp < cutoff cfg nowMillis

def prune (db : σ) (cfg : StatsLoggingConfig) (nowMillis : Int64) (extent : Sql.Extent) :
    σ × Sql.Extent :=
  sqlite.prune db (expired cfg nowMillis) cfg.maxRecords.toInt extent

end StatsDb

/-- What the writer does with its database: `write_snapshot`, and `prune` under the config with
which it was started. -/
inductive StatsCall where
  | write (s : LoggedSnapshot) (commits : Bool)
  | prune (cfg : StatsLoggingConfig) (nowMillis : Int64) (extent : Sql.Extent)

/-- What the log is for: one table of whole snapshots, with all that were ever in it. -/
structure StatsTable where
  rows : List (Int × StatsEntry)
  ever : List (Int × StatsEntry)
  prunes : List (Sql.Prune StatsEntry)

namespace StatsTable

def insert (self : StatsTable) (id : Int) (entry : StatsEntry) : StatsTable :=
  { self with rows := self.rows ++ [(id, entry)], ever := self.ever ++ [(id, entry)] }

def prune (self : StatsTable) (upto : Int) (cfg : StatsLoggingConfig) (nowMillis : Int64)
    (extent : Sql.Extent) : StatsTable :=
  let expired := fun entry : StatsEntry => StatsDb.expired cfg nowMillis entry.row
  { self with
    rows := Sql.pruned self.rows expired cfg.maxRecords.toInt extent
    prunes := ⟨self.rows, upto, expired, cfg.maxRecords.toInt, extent⟩ :: self.prunes }

end StatsTable

/-- The database. Only the statements read the table that it stands for, and the snapshots whose
transactions were committed. -/
structure StatsLog (σ : Type) where
  db : σ
  table : StatsTable
  committed : List LoggedSnapshot

namespace StatsLog

variable {σ : Type} (sqlite : Sql.Engine σ SnapshotRow StatsChild.Row)

/-- `open_connection` leaves the tables that are there. -/
def opened (db : σ) : StatsLog σ := ⟨db, ⟨sqlite.whole db, sqlite.whole db, []⟩, []⟩

def call (self : StatsLog σ) : StatsCall → StatsLog σ
  | .write s commits =>
    match StatsDb.writeSnapshot sqlite self.db s commits with
    | none => self
    | some (snapshotId, db) =>
      { db, table := self.table.insert snapshotId s.entry, committed := self.committed ++ [s] }
  | .prune cfg nowMillis extent =>
    let done := StatsDb.prune sqlite self.db cfg nowMillis extent
    { self with
      db := done.1
      table := self.table.prune (sqlite.sequence self.db) cfg nowMillis done.2 }

/-- The log after the calls, of a database that it found. -/
def after (db : σ) (calls : List StatsCall) : StatsLog σ :=
  calls.foldl (call sqlite) (opened sqlite db)

end StatsLog

/-! ### Whole snapshots -/

namespace StatsDb

variable {σ : Type} {sqlite : Sql.Engine σ SnapshotRow StatsChild.Row} {db db' : σ}
  {s : LoggedSnapshot} {id : Int} {commits : Bool}

/-- A snapshot that is committed comes with all that belongs to it. -/
theorem whole_writeSnapshot (documented : sqlite.Documented) (linked : sqlite.Linked db)
    (written : writeSnapshot sqlite db s commits = some (id, db')) :
    sqlite.whole db' = sqlite.whole db ++ [(id, s.entry)] ∧ sqlite.sequence db < id ∧
      sqlite.sequence db' = id ∧ sqlite.Linked db' := by
  obtain ⟨⟨id, one⟩, inserted, rest⟩ := Option.bind_eq_some_iff.mp written
  obtain ⟨two, hosts, rest⟩ := Option.bind_eq_some_iff.mp rest
  obtain ⟨three, backends, rest⟩ := Option.bind_eq_some_iff.mp rest
  split at rest <;> cases rest
  obtain ⟨new, sequence, rows, children⟩ := documented.insert inserted
  obtain ⟨rows₂, sequence₂, -, -⟩ := documented.insertChildren hosts
  obtain ⟨rows₃, sequence₃, -, -⟩ := documented.insertChildren backends
  -- both inserts refer to the row that was inserted first
  have parent : ∃ row ∈ sqlite.rows one, row.1 = id :=
    ⟨(id, s.row), by rw [rows]; exact List.mem_append_right _ (List.mem_singleton_self _), rfl⟩
  have linked₂ := documented.linked_insertChildren (documented.linked_insert linked inserted)
    parent hosts
  have linked₃ := documented.linked_insertChildren linked₂ (by rwa [rows₂]) backends
  -- what belongs to a row, by its id
  have belongs (other : Int) (i : StatsChild) : sqlite.childrenOf db' i other =
      sqlite.childrenOf db i other ++ if other = id then s.entry.belongs i else [] := by
    have before : sqlite.childrenOf one i other = sqlite.childrenOf db i other := by
      unfold Sql.Engine.childrenOf
      rw [children]
    cases i with
    | hosts =>
      rw [documented.childrenOf_insertChildren_ne backends (by decide),
        documented.childrenOf_insertChildren hosts, before]
      rfl
    | backends =>
      rw [documented.childrenOf_insertChildren backends,
        documented.childrenOf_insertChildren_ne hosts (by decide), before]
      rfl
  refine ⟨?_, new, (sequence₃.trans sequence₂).trans sequence, linked₃⟩
  rw [Sql.Engine.whole, Sql.Engine.whole, rows₃, rows₂, rows, List.map_append]
  congr 1
  · refine List.map_congr_left fun row there => ?_
    -- an older snapshot has another id, and gets nothing new
    have old : row.1 ≠ id :=
      Int.ne_of_lt (Int.lt_of_le_of_lt (documented.known db row there) new)
    simp only [belongs, if_neg old, List.append_nil]
  · simp only [List.map_cons, List.map_nil, belongs, if_true,
      documented.childrenOf_new linked _ new, List.nil_append]
    rfl

end StatsDb

namespace StatsLog

variable {σ : Type} {sqlite : Sql.Engine σ SnapshotRow StatsChild.Row} {db : σ}
  {log : StatsLog σ}

/-- The tables stand for one table of whole snapshots, which accounts for those that were found
and those that were committed. -/
structure Stands (sqlite : Sql.Engine σ SnapshotRow StatsChild.Row) (found : σ)
    (log : StatsLog σ) : Prop where
  whole : sqlite.whole log.db = log.table.rows
  /-- no host and no backend is left without its snapshot -/
  linked : sqlite.Linked log.db
  ever : log.table.ever.map Prod.snd =
    (sqlite.whole found).map Prod.snd ++ log.committed.map LoggedSnapshot.entry
  kept : Sql.Kept log.table.rows (sqlite.sequence log.db) log.table.ever log.table.prunes

private theorem stands_opened (linked : sqlite.Linked db) :
    Stands sqlite db (opened sqlite db) where
  whole := rfl
  linked := linked
  ever := (List.append_nil _).symm
  kept := .start _ _

theorem Stands.write (documented : sqlite.Documented) (stands : log.Stands sqlite db)
    (s : LoggedSnapshot) (commits : Bool) :
    (log.call sqlite (.write s commits)).Stands sqlite db := by
  unfold call
  dsimp only
  cases written : StatsDb.writeSnapshot sqlite log.db s commits with
  | none => exact stands
  | some done =>
    obtain ⟨id, after⟩ := done
    obtain ⟨whole, new, sequence, linked⟩ :=
      StatsDb.whole_writeSnapshot documented stands.linked written
    constructor
    case whole =>
      rw [whole, stands.whole]
      rfl
    case linked => exact linked
    case ever =>
      show (log.table.ever ++ [(id, s.entry)]).map Prod.snd = _ ++ (log.committed ++ [s]).map _
      rw [List.map_append, stands.ever, List.map_append, List.append_assoc]
      rfl
    case kept =>
      refine stands.kept.append (fun row member => ?_) ?_
      · rw [List.mem_singleton.mp member]
        exact new
      · rw [← sequence] at new
        exact Int.le_of_lt new

theorem Stands.prune (documented : sqlite.Documented) (stands : log.Stands sqlite db)
    (cfg : StatsLoggingConfig) (nowMillis : Int64) (extent : Sql.Extent) :
    (log.call sqlite (.prune cfg nowMillis extent)).Stands sqlite db := by
  constructor
  case whole =>
    refine (documented.whole_prune log.db (StatsDb.expired cfg nowMillis) _ extent).trans ?_
    rw [stands.whole]
    rfl
  case linked => exact documented.linked_prune stands.linked _ _ extent
  case ever => exact stands.ever
  case kept =>
    have sorted : log.table.rows.Pairwise fun one two => one.1 < two.1 := by
      rw [← stands.whole]
      exact List.pairwise_map.mpr (documented.sorted log.db)
    have fewer := stands.kept.prune sorted (fun entry => StatsDb.expired cfg nowMillis entry.row)
      cfg.maxRecords.toInt (StatsDb.prune sqlite log.db cfg nowMillis extent).2
    rw [call]
    dsimp only
    rw [StatsDb.prune, documented.sequence_prune]
    exact fewer

theorem Stands.call (documented : sqlite.Documented) (stands : log.Stands sqlite db)
    (call : StatsCall) : (log.call sqlite call).Stands sqlite db := by
  cases call with
  | write s commits => exact stands.write documented s commits
  | prune cfg nowMillis extent => exact stands.prune documented cfg nowMillis extent

end StatsLog

/-- Whichever transactions commit and however far each prune comes, the three tables hold whole
snapshots and nothing that belongs to none: those that were found and the ones that were
committed, in their order, but for those that a prune had a reason to delete. -/
theorem snapshots_stay_whole {σ : Type} {sqlite : Sql.Engine σ SnapshotRow StatsChild.Row}
    (documented : sqlite.Documented) {db : σ} (linked : sqlite.Linked db)
    (calls : List StatsCall) : (StatsLog.after sqlite db calls).Stands sqlite db := by
  -- from the last call back
  induction calls using List.reverseRecOn with
  | nil => exact StatsLog.stands_opened linked
  | append_singleton calls call ih =>
    rw [StatsLog.after, List.foldl_append]
    exact ih.call documented call

/-- A snapshot with one host and one backend. -/
def lobbySnapshot (timestampMillis : Int64) (active : Int) : LoggedSnapshot where
  timestampMillis
  playersOnline := 1
  onlineByHost := AList.insert "lobby.example.com".toList 1 ∅
  uptimeSeconds := 1
  backends := [⟨0, ["lobby.example.com".toList], "10.0.0.2:25565".toList, active, some 3⟩]
  trackingEnabled := false
  routeMetrics := []
  trackingQueuedRecords := 0
  trackingDroppedRecordsTotal := 0

/-- Three snapshots, one of which is rolled back, and a prune that leaves one. -/
def threeSnapshots : List StatsCall :=
  [.write (lobbySnapshot 1000 4) true, .write (lobbySnapshot 2000 5) false,
    .write (lobbySnapshot 3000 6) true, .prune { enabled := true, maxRecords := 1 } 4000 .complete]

theorem snapshots_stay_whole_pruned :
    (StatsLog.after Sql.memory .empty threeSnapshots).Stands Sql.memory .empty ∧
      ((StatsLog.after Sql.memory .empty threeSnapshots).table.rows.map fun entry =>
        (entry.1, entry.2.row.timestamp, (entry.2.belongs .hosts).map HostRow.playersOnline,
          (entry.2.belongs .backends).map BackendRow.activeConnections)) =
        [(2, 3000, [1], [6])] := by
  refine ⟨snapshots_stay_whole Sql.memory_documented ?_ threeSnapshots, by rfl⟩
  intro i child member
  cases member

end MCGate
