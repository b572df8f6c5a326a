import Mathlib.Algebra.BigOperators.Intervals
import Mathlib.Algebra.Order.BigOperators.Group.Finset
import Mathlib.Algebra.Order.Group.Multiset
import MCGate.Lib.Threads

/-!
# Rolling log files

All threads that log write through clones of one `RollingFileWriter`. The write itself is done
under the lock of the file, but the lines are counted after it, and the thread that reaches the
limit rolls the files after that: it moves `latest.1.log.gz` and the ones after it one place up,
reads `latest.log`, writes what it read to `latest.1.log.gz`, and only then takes the lock again
to truncate `latest.log`. What another thread writes between the reading and the truncation is
lost, and two rolls at once may write to the same place.

A file is the list of the buffers that were written to it. The handle after a roll is not
opened in append mode, but all writes go through it, from the start of an empty file on.
-/
namespace MCGate

open Machine Threads

abbrev Buffer := List UInt8

abbrev LogFile := List Buffer

structure LogFiles where
  latest : LogFile
  /-- `latest.{i}.log.gz`, unpacked -/
  rolled : Nat → Option LogFile

namespace LogFiles

/-- The error of a rename is ignored, and there is one only if the file is gone by then. -/
def rename (self : LogFiles) (i j : Nat) : LogFiles :=
  match self.rolled i with
  | none => self
  | some file =>
    { self with rolled := Function.update (Function.update self.rolled j (some file)) i none }

def removeFile (self : LogFiles) (i : Nat) : LogFiles :=
  { self with rolled := Function.update self.rolled i none }

end LogFiles

/-- What the threads share. Only the statements read the buffers that were written and the
number of rolls that ended. -/
structure LogShared where
  files : LogFiles
  lineCount : Int64
  written : Multiset Buffer
  rolls : Nat

/-- Where a call of `write` is. -/
inductive LogTask where
  | write (buf : Buffer)
  | count (newlines : Nat)
  /-- this call has reached the limit -/
  | reset
  /-- the loop of `roll` is at `i` -/
  | shift (i : Nat)
  | rename (i : Nat)
  | read
  | gzip (input : LogFile)
  | truncate
  | done
  deriving DecidableEq

namespace RollingFileWriter

def maxLinesPerFile : Nat := 10000

def maxRolledFiles : Nat := 7

def newlines (buf : Buffer) : Nat := buf.countP (· = 10)

/-- The loop of `roll` goes on below `i`, and after it `latest.log` is read. -/
def below : Nat → LogTask
  | 0 | 1 => .read
  | i + 2 => .shift (i + 1)

def fresh : LogTask → Bool
  | .write _ => true
  | _ => false

/-- One step of a call; all file operations succeed. -/
def advance (s : LogShared) (task : LogTask) (_ : Unit) : Option (LogShared × LogTask) :=
  match task with
  | .write buf =>
    let files := { s.files with latest := s.files.latest ++ [buf] }
    some ({ s with files, written := buf ::ₘ s.written },
      if 0 < newlines buf then .count (newlines buf) else .done)
  | .count newlines =>
    -- `fetch_add` wraps
    let newTotal := s.lineCount + Int64.ofNat newlines
    some ({ s with lineCount := newTotal },
      if Int64.ofNat maxLinesPerFile ≤ newTotal then .reset else .done)
  | .reset => some ({ s with lineCount := 0 }, below maxRolledFiles)
  | .shift i => some (s, if (s.files.rolled i).isSome then .rename i else below i)
  | .rename i =>
    let files :=
      if maxRolledFiles < i + 1 then s.files.removeFile i else s.files.rename i (i + 1)
    some ({ s with files }, below i)
  | .read => some (s, .gzip s.files.latest)
  | .gzip input =>
    let files := { s.files with rolled := Function.update s.files.rolled 1 (some input) }
    some ({ s with files }, .truncate)
  | .truncate =>
    some ({ s with files := { s.files with latest := [] }, rolls := s.rolls + 1 }, .done)
  | .done => none

end RollingFileWriter

/-! ### Where the lines are -/

namespace LogFiles

def lines (file : Option LogFile) : Multiset Buffer := (file.getD [] : List Buffer)

/-- What is in the rolled files. -/
def rolledLines (self : LogFiles) : Multiset Buffer :=
  ∑ i ∈ Finset.range RollingFileWriter.maxRolledFiles, lines (self.rolled (i + 1))

/-- What is in all files. -/
def allLines (self : LogFiles) : Multiset Buffer := self.latest + self.rolledLines

/-- To move one summand to another place makes the sum no larger. -/
theorem sum_move_le {s : Finset Nat} {f : Nat → Option LogFile} {i : Nat} (member : i ∈ s)
    (j : Nat) :
    ∑ k ∈ s, lines (Function.update (Function.update f j (f i)) i none k) ≤
      ∑ k ∈ s, lines (f k) := by
  have gone : ∑ k ∈ s, lines (Function.update (Function.update f j (f i)) i none k) =
      ∑ k ∈ s.erase i, lines (Function.update f j (f i) k) := by
    rw [← Finset.add_sum_erase s _ member, Function.update_self]
    refine (zero_add _).trans (Finset.sum_congr rfl fun k others => ?_)
    rw [Function.update_of_ne (Finset.ne_of_mem_erase others)]
  rw [gone, ← Finset.add_sum_erase s (fun k => lines (f k)) member]
  -- what was at the target, if it is counted, is overwritten
  by_cases target : j ∈ s.erase i
  · rw [← Finset.add_sum_erase _ _ target, Function.update_self]
    have rest : ∀ k ∈ (s.erase i).erase j, lines (Function.update f j (f i) k) = lines (f k) :=
      fun k others => by rw [Function.update_of_ne (Finset.ne_of_mem_erase others)]
    rw [Finset.sum_congr rfl rest]
    exact add_le_add_right (Finset.sum_le_sum_of_subset (Finset.erase_subset _ _)) _
  · have rest : ∀ k ∈ s.erase i, lines (Function.update f j (f i) k) = lines (f k) := by
      intro k others
      have apart : k ≠ j := fun same => target (same ▸ others)
      rw [Function.update_of_ne apart]
    rw [Finset.sum_congr rfl rest]
    exact Multiset.le_add_left _ _

variable {self : LogFiles}

private theorem latest_rename (i j : Nat) : (self.rename i j).latest = self.latest := by
  unfold rename
  split <;> rfl

private theorem rolled_rename {i j : Nat} {file : LogFile} (present : self.rolled i = some file) :
    (self.rename i j).rolled =
      Function.update (Function.update self.rolled j (self.rolled i)) i none := by
  rw [rename, present]

private theorem rolledLines_rename_le {i j : Nat} (first : 1 ≤ i)
    (last : i ≤ RollingFileWriter.maxRolledFiles) :
    (self.rename i j).rolledLines ≤ self.rolledLines := by
  unfold rename
  split
  · exact le_refl _
  next file present =>
    have numbered (rolled : Nat → Option LogFile) :
        ∑ k ∈ Finset.range RollingFileWriter.maxRolledFiles, lines (rolled (k + 1)) =
          ∑ k ∈ Finset.Ico 1 (RollingFileWriter.maxRolledFiles + 1), lines (rolled k) := by
      rw [Finset.sum_Ico_eq_sum_range, Nat.add_sub_cancel]
      simp only [Nat.add_comm 1]
    unfold rolledLines
    dsimp only
    rw [numbered, numbered, ← present]
    exact sum_move_le (Finset.mem_Ico.mpr ⟨first, Nat.lt_succ_of_le last⟩) j

end LogFiles

namespace RollingFileWriter

/-- The call is in `roll`. -/
def rolling : LogTask → Bool
  | .shift _ | .rename _ | .read | .gzip _ | .truncate => true
  | _ => false

/-- The call has read `latest.log` and is to truncate it. -/
def hasRead : LogTask → Bool
  | .gzip _ | .truncate => true
  | _ => false

/-- No write comes between the reading and the truncation of `latest.log`, and no roll begins
while another one is under way. -/
def Undisturbed (_ : LogShared) (task : LogTask) (threads : Multiset LogTask) : Prop :=
  match task with
  | .write _ => ∀ other ∈ threads, ¬ hasRead other
  | .reset => ∀ other ∈ threads, ¬ rolling other
  | _ => True

instance (s : LogShared) (task : LogTask) (threads : Multiset LogTask) :
    Decidable (Undisturbed s task threads) :=
  match task with
  | .write _ => inferInstanceAs (Decidable (∀ other ∈ threads, ¬ hasRead other))
  | .reset => inferInstanceAs (Decidable (∀ other ∈ threads, ¬ rolling other))
  | .count _ | .shift _ | .rename _ | .read | .gzip _ | .truncate | .done => isTrue trivial

def start (files : LogFiles) : Pool LogShared LogTask := ⟨⟨files, 0, 0, 0⟩, []⟩

/-- When all calls have returned, each buffer is in the files as often as it was written, apart
from what was in them at the start. -/
def NoLineLost (initial : LogFiles) (pool : Pool LogShared LogTask) : Prop :=
  (∀ task ∈ pool.threads, task = .done) → pool.shared.rolls ≤ maxRolledFiles →
    pool.shared.written ≤ pool.shared.files.allLines ∧
      pool.shared.files.allLines ≤ initial.allLines + pool.shared.written

/-! ### The invariant -/

/-- What the last `n` rolls have written. -/
def newest (files : LogFiles) (n : Nat) : Multiset Buffer :=
  ∑ a ∈ Finset.range n, LogFiles.lines (files.rolled (a + 1))

/-- The number of the file of a roll, `a` rolls ago, when the loop is at `i`: the files above `i`
have been moved. -/
def place (i a : Nat) : Nat := if a < i then a + 1 else a + 2

/-- The same, when the loop is at `i`. -/
def shifted (files : LogFiles) (i n : Nat) : Multiset Buffer :=
  ∑ a ∈ Finset.range n, LogFiles.lines (files.rolled (place i a))

variable {initial : LogFiles} {s : LogShared}

/-- The loop of a roll is at `i`. -/
def Shifting (initial : LogFiles) (s : LogShared) (i : Nat) : Prop :=
  s.files.allLines ≤ initial.allLines + s.written ∧
    (s.rolls < maxRolledFiles → s.written ≤ s.files.latest + shifted s.files i s.rolls)

/-- Where the lines are, by how far the roll under way is. -/
def Accounted (initial : LogFiles) (s : LogShared) : Option LogTask → Prop
  | some (.shift i) | some (.rename i) => 1 ≤ i ∧ i < maxRolledFiles ∧ Shifting initial s i
  | some .read => Shifting initial s 0
  | some (.gzip input) => input = s.files.latest ∧ Shifting initial s 0
  | some .truncate =>
    -- what is in `latest.log` is in `latest.1.log.gz` too
    s.files.rolledLines ≤ initial.allLines + s.written ∧
      (s.rolls < maxRolledFiles → s.written ≤ newest s.files (s.rolls + 1))
  | _ =>
    s.files.allLines ≤ initial.allLines + s.written ∧
      (s.rolls ≤ maxRolledFiles → s.written ≤ s.files.latest + newest s.files s.rolls)

private theorem shifted_zero (files : LogFiles) (n : Nat) :
    newest files (n + 1) = shifted files 0 n + LogFiles.lines (files.rolled 1) :=
  Finset.sum_range_succ' _ _

/-- Before the first move all files are in place. -/
theorem shifted_of_le {files : LogFiles} {i n : Nat} (few : n ≤ i) :
    shifted files i n = newest files n := by
  refine Finset.sum_congr rfl fun a member => ?_
  have early : a < i := Nat.lt_of_lt_of_le (Finset.mem_range.mp member) few
  rw [place, if_pos early]

/-- One file has been moved, or it was not there. -/
theorem shifted_le_of_move {files files' : LogFiles} {i : Nat} (n : Nat)
    (moved : LogFiles.lines (files.rolled (i + 1)) ≤ LogFiles.lines (files'.rolled (i + 2)))
    (others : ∀ k, k ≠ i + 1 → k ≠ i + 2 → files'.rolled k = files.rolled k) :
    shifted files (i + 1) n ≤ shifted files' i n := by
  refine Finset.sum_le_sum fun a _ => ?_
  unfold place
  -- below the loop and above it nothing has changed
  rcases Nat.lt_trichotomy a i with below | rfl | above
  · rw [if_pos (Nat.lt_succ_of_lt below), if_pos below, others _ (by omega) (by omega)]
  · rw [if_pos (Nat.lt_succ_self _), if_neg (Nat.lt_irrefl _)]
    exact moved
  · rw [if_neg (by omega), if_neg (by omega), others _ (by omega) (by omega)]

private theorem newest_le_rolledLines {files : LogFiles} {n : Nat} (few : n ≤ maxRolledFiles) :
    newest files n ≤ files.rolledLines :=
  Finset.sum_le_sum_of_subset (Finset.range_subset_range.mpr few)

private theorem accounted_below {i : Nat} (first : 1 ≤ i) (last : i ≤ maxRolledFiles)
    (shifting : Shifting initial s (i - 1)) : Accounted initial s (some (below i)) := by
  obtain _ | _ | i := i
  · cases first
  · exact shifting
  · exact ⟨Nat.succ_pos i, last, shifting⟩

/-- A write adds the same buffer on both sides, unless it comes too late for the roll. -/
theorem accounted_write {roller : Option LogTask} (accounted : Accounted initial s roller)
    (early : ∀ task ∈ roller, ¬ hasRead task) (buf : Buffer) :
    Accounted initial
      { s with
        files := { s.files with latest := s.files.latest ++ [buf] }
        written := buf ::ₘ s.written }
      roller := by
  have appended : ((s.files.latest ++ [buf] : LogFile) : Multiset Buffer) =
      buf ::ₘ s.files.latest :=
    Multiset.coe_eq_coe.mpr (List.perm_append_singleton buf s.files.latest)
  have once (before : s.files.allLines ≤ initial.allLines + s.written) :
      (s.files.latest ++ [buf] : LogFile) + s.files.rolledLines ≤
        initial.allLines + buf ::ₘ s.written := by
    rw [appended, Multiset.cons_add, Multiset.add_cons]
    exact Multiset.cons_le_cons buf before
  have kept {others : Multiset Buffer} (before : s.written ≤ s.files.latest + others) :
      buf ::ₘ s.written ≤ (s.files.latest ++ [buf] : LogFile) + others := by
    rw [appended, Multiset.cons_add]
    exact Multiset.cons_le_cons buf before
  have shifting {i : Nat} (before : Shifting initial s i) :
      Shifting initial
        { s with
          files := { s.files with latest := s.files.latest ++ [buf] }
          written := buf ::ₘ s.written }
        i :=
    ⟨once before.1, fun few => kept (before.2 few)⟩
  have settled
      (before : s.files.allLines ≤ initial.allLines + s.written ∧
        (s.rolls ≤ maxRolledFiles → s.written ≤ s.files.latest + newest s.files s.rolls)) :=
    And.intro (once before.1) fun few => kept (before.2 few)
  -- only between the reading of the file and its truncation is a write too late
  cases roller with
  | none => exact settled accounted
  | some task =>
    cases task with
    | shift i => exact ⟨accounted.1, accounted.2.1, shifting accounted.2.2⟩
    | rename i => exact ⟨accounted.1, accounted.2.1, shifting accounted.2.2⟩
    | read => exact shifting accounted
    | gzip input => exact absurd rfl (early _ rfl)
    | truncate => exact absurd rfl (early _ rfl)
    | write buf => exact settled accounted
    | count newlines => exact settled accounted
    | reset => exact settled accounted
    | done => exact settled accounted

private theorem shifting_rename {i : Nat} (last : i + 1 < maxRolledFiles)
    (shifting : Shifting initial s (i + 1)) :
    Shifting initial { s with files := s.files.rename (i + 1) (i + 2) } i := by
  have fewer : (s.files.rename (i + 1) (i + 2)).rolledLines ≤ s.files.rolledLines :=
    LogFiles.rolledLines_rename_le (Nat.succ_pos i) (Nat.le_of_lt last)
  constructor
  · unfold LogFiles.allLines
    rw [LogFiles.latest_rename]
    exact le_trans (add_le_add_right fewer _) shifting.1
  · intro few
    have moved : shifted s.files (i + 1) s.rolls ≤
        shifted (s.files.rename (i + 1) (i + 2)) i s.rolls := by
      cases present : s.files.rolled (i + 1) with
      | none =>
        rw [LogFiles.rename, present]
        apply shifted_le_of_move
        · rw [present]
          exact Multiset.zero_le _
        · exact fun _ _ _ => rfl
      | some file =>
        have rolled := @LogFiles.rolled_rename s.files (i + 1) (i + 2) file present
        apply shifted_le_of_move
        · rw [rolled, Function.update_of_ne (by omega), Function.update_self]
        · intro k other next
          rw [rolled, Function.update_of_ne other, Function.update_of_ne next]
    dsimp only
    rw [LogFiles.latest_rename]
    exact le_trans (shifting.2 few) (add_le_add_right moved _)

/-- Where there is no file, nothing has to be moved. -/
theorem shifting_absent {i : Nat} (absent : s.files.rolled (i + 1) = none)
    (shifting : Shifting initial s (i + 1)) : Shifting initial s i := by
  refine ⟨shifting.1, fun few => le_trans (shifting.2 few) (add_le_add_right ?_ _)⟩
  apply shifted_le_of_move
  · rw [absent]
    exact Multiset.zero_le _
  · exact fun _ _ _ => rfl

private theorem shifting_start (accounted : Accounted initial s none) :
    Shifting initial s (maxRolledFiles - 1) := by
  refine ⟨accounted.1, fun few => ?_⟩
  rw [shifted_of_le (Nat.le_sub_one_of_lt few)]
  exact accounted.2 (Nat.le_of_lt few)

/-- What was read replaces the file that has been moved. -/
theorem accounted_gzip (shifting : Shifting initial s 0) :
    Accounted initial
      { s with files :=
          { s.files with rolled := Function.update s.files.rolled 1 (some s.files.latest) } }
      (some .truncate) := by
  have rest (n : Nat) :
      shifted { s.files with rolled := Function.update s.files.rolled 1 (some s.files.latest) } 0
        n = shifted s.files 0 n := by
    refine Finset.sum_congr rfl fun a _ => ?_
    dsimp only
    rw [place, if_neg (Nat.not_lt_zero a), Function.update_of_ne (by omega)]
  -- the two sides differ in `latest.1.log.gz` alone
  have all (n : Nat) :
      newest { s.files with rolled := Function.update s.files.rolled 1 (some s.files.latest) }
        (n + 1) = s.files.latest + shifted s.files 0 n := by
    rw [shifted_zero, rest, add_comm]
    dsimp only
    rw [Function.update_self]
    rfl
  constructor
  · have moved : shifted s.files 0 (maxRolledFiles - 1) ≤ s.files.rolledLines :=
      le_trans (Multiset.le_add_right _ _) (le_of_eq (shifted_zero s.files _).symm)
    exact le_trans (le_of_eq (all (maxRolledFiles - 1)))
      (le_trans (add_le_add_right moved _) shifting.1)
  · intro few
    exact le_trans (shifting.2 few) (le_of_eq (all s.rolls).symm)

private theorem accounted_truncate (accounted : Accounted initial s (some .truncate)) :
    Accounted initial { s with files := { s.files with latest := [] }, rolls := s.rolls + 1 }
      none := by
  constructor
  · exact le_trans (le_of_eq (zero_add _)) accounted.1
  · intro few
    exact le_trans (accounted.2 few) (le_of_eq (zero_add _).symm)

/-- A step of a roll that nothing disturbs. -/
theorem accounted_roll {s' : LogShared} {task task' : LogTask} {choice : Unit}
    (accounted : Accounted initial s (some task)) (isRolling : rolling task)
    (moved : advance s task choice = some (s', task')) :
    (rolling task' ∧ Accounted initial s' (some task')) ∨
      (¬ rolling task' ∧ Accounted initial s' none) := by
  have rolling_below (i : Nat) : rolling (below i) := by
    obtain _ | _ | i := i <;> rfl
  cases task with
  -- the files are moved from the last one down, so that a rename only ever drops the last
  | shift i =>
    obtain ⟨first, last, shifting⟩ := accounted
    obtain ⟨i, rfl⟩ := Nat.exists_eq_succ_of_ne_zero (Nat.pos_iff_ne_zero.mp first)
    simp only [advance, Option.some.injEq, Prod.mk.injEq] at moved
    obtain ⟨rfl, rfl⟩ := moved
    left
    split
    next present => exact ⟨rfl, first, last, shifting⟩
    -- a number without a file is passed over
    next absent =>
      have absent := Option.not_isSome_iff_eq_none.mp absent
      exact ⟨rolling_below _,
        accounted_below first (Nat.le_of_lt last) (shifting_absent absent shifting)⟩
  | rename i =>
    obtain ⟨first, last, shifting⟩ := accounted
    obtain ⟨i, rfl⟩ := Nat.exists_eq_succ_of_ne_zero (Nat.pos_iff_ne_zero.mp first)
    simp only [advance, Option.some.injEq, Prod.mk.injEq] at moved
    obtain ⟨rfl, rfl⟩ := moved
    rw [if_neg (Nat.not_lt_of_le last)]
    exact .inl ⟨rolling_below _,
      accounted_below first (Nat.le_of_lt last) (shifting_rename last shifting)⟩
  | read =>
    cases moved
    exact .inl ⟨rfl, rfl, accounted⟩
  | gzip input =>
    obtain ⟨rfl, shifting⟩ := accounted
    cases moved
    exact .inl ⟨rfl, accounted_gzip shifting⟩
  | truncate =>
    cases moved
    exact .inr ⟨Bool.false_ne_true, accounted_truncate accounted⟩
  | write buf => cases isRolling
  | count newlines => cases isRolling
  | reset => cases isRolling
  | done => cases isRolling

/-- The calls that are in `roll`. -/
def rollers (threads : Multiset LogTask) : Multiset LogTask :=
  threads.filter fun task => rolling task

private theorem rollers_cons_of_rolling {task : LogTask} {threads : Multiset LogTask}
    (isRolling : rolling task) : rollers (task ::ₘ threads) = task ::ₘ rollers threads :=
  Multiset.filter_cons_of_pos threads isRolling

private theorem rollers_cons_of_idle {task : LogTask} {threads : Multiset LogTask}
    (idle : ¬ rolling task) : rollers (task ::ₘ threads) = rollers threads :=
  Multiset.filter_cons_of_neg threads idle

private theorem mem_rollers_iff {task : LogTask} {threads : Multiset LogTask} :
    task ∈ rollers threads ↔ task ∈ threads ∧ rolling task :=
  Multiset.mem_filter

/-- At most one call rolls the files, and the lines are where that roll has left them. -/
def Inv (initial : LogFiles) (s : LogShared) (threads : Multiset LogTask) : Prop :=
  ∃ roller : Option LogTask, rollers threads = roller.toList ∧ Accounted initial s roller

private theorem inv_spawned {s : LogShared} {threads : Multiset LogTask} {task : LogTask}
    (inv : Inv initial s threads) (ready : fresh task) : Inv initial s (task ::ₘ threads) := by
  obtain ⟨roller, only, accounted⟩ := inv
  refine ⟨roller, ?_, accounted⟩
  cases task with
  | write buf =>
    have idle : ¬ rolling (.write buf) := Bool.false_ne_true
    rw [rollers_cons_of_idle idle, only]
  | _ => cases ready

private theorem inv_moved {s s' : LogShared} {task task' : LogTask} {others : Multiset LogTask}
    {choice : Unit} (inv : Inv initial s (task ::ₘ others))
    (undisturbed : Undisturbed s task (task ::ₘ others))
    (moved : advance s task choice = some (s', task')) : Inv initial s' (task' ::ₘ others) := by
  obtain ⟨roller, only, accounted⟩ := inv
  by_cases isRolling : rolling task
  · -- the call that moves is the one that rolls
    rw [rollers_cons_of_rolling isRolling] at only
    cases roller with
    | none => exact absurd only Multiset.cons_ne_zero
    | some roller =>
      have size := congrArg Multiset.card only
      rw [Multiset.card_cons] at size
      have alone : rollers others = 0 := Multiset.card_eq_zero.mp (Nat.succ.inj size)
      rw [alone] at only
      obtain rfl : task = roller := Multiset.singleton_inj.mp only
      rcases accounted_roll accounted isRolling moved with ⟨still, after⟩ | ⟨ended, after⟩
      · refine ⟨some task', ?_, after⟩
        rw [rollers_cons_of_rolling still, alone]
        rfl
      · refine ⟨none, ?_, after⟩
        rw [rollers_cons_of_idle ended, alone]
        rfl
  · -- another call may roll, and what this one does must suit the point where that roll is
    rw [rollers_cons_of_idle isRolling] at only
    have stays (after : Accounted initial s' roller) (idle : ¬ rolling task') :
        Inv initial s' (task' ::ₘ others) := by
      refine ⟨roller, ?_, after⟩
      rw [rollers_cons_of_idle idle, only]
    have among (other : LogTask) (rolls : other ∈ roller) : other ∈ others ∧ rolling other := by
      rw [← mem_rollers_iff, only]
      exact Multiset.mem_coe.mpr (Option.mem_toList.mpr rolls)
    cases task with
    | write buf =>
      simp only [advance, Option.some.injEq, Prod.mk.injEq] at moved
      obtain ⟨rfl, rfl⟩ := moved
      refine stays (accounted_write accounted (fun other rolls => ?_) buf) ?_
      · exact undisturbed other (Multiset.mem_cons_of_mem (among other rolls).1)
      · split <;> exact Bool.false_ne_true
    | count newlines =>
      simp only [advance, Option.some.injEq, Prod.mk.injEq] at moved
      obtain ⟨rfl, rfl⟩ := moved
      refine stays accounted ?_
      split <;> exact Bool.false_ne_true
    | reset =>
      cases moved
      cases roller with
      | some other =>
        have rolls := among other rfl
        exact absurd rolls.2 (undisturbed other (Multiset.mem_cons_of_mem rolls.1))
      | none =>
        -- all files are in place when the roll begins
        refine ⟨some (below maxRolledFiles), ?_, ?_⟩
        · rw [rollers_cons_of_rolling rfl, only]
          rfl
        · exact accounted_below (by decide) (Nat.le_refl _) (shifting_start accounted)
    | done => cases moved
    | shift i => exact absurd rfl isRolling
    | rename i => exact absurd rfl isRolling
    | read => exact absurd rfl isRolling
    | gzip input => exact absurd rfl isRolling
    | truncate => exact absurd rfl isRolling

private theorem noLineLost_of_inv {pool : Pool LogShared LogTask}
    (inv : Inv initial pool.shared pool.threads) : NoLineLost initial pool := by
  intro finished few
  obtain ⟨roller, only, accounted⟩ := inv
  -- a call that has returned does not roll
  have idle : roller = none := by
    cases roller with
    | none => rfl
    | some task =>
      have member : task ∈ rollers pool.threads := by
        rw [only]
        exact List.mem_cons_self
      obtain ⟨listed, rolls⟩ := mem_rollers_iff.mp member
      rw [finished task listed] at rolls
      cases rolls
  rw [idle] at accounted
  constructor
  · exact le_trans (accounted.2 few) (add_le_add_right (newest_le_rolledLines few) _)
  · exact accounted.1

/-- As long as no write comes between the reading and the truncation of a roll and the rolls do
not overlap, each line that was written is in one of the files, and in one only. -/
theorem noLineLost_of_undisturbed (initial : LogFiles) (events : List (Event LogTask Unit))
    (undisturbed : Guarded (Threads.step fresh advance) (AmongCond Undisturbed) (start initial)
      events) :
    Always (Threads.step fresh advance) (NoLineLost initial) (start initial) events := by
  have first : Inv initial (start initial).shared (start initial).threads := by
    refine ⟨none, rfl, Multiset.le_add_right _ _, fun _ => Multiset.zero_le _⟩
  have inv : Always (Threads.step fresh advance)
      (fun pool => Inv initial pool.shared pool.threads) (start initial) events := by
    refine always_of_guarded (fun pool event next inv allowed stepped => ?_) first undisturbed
    exact step_bag (fun _ _ _ => inv_spawned) (fun _ _ _ _ _ _ => inv_moved) inv allowed stepped
  exact inv.imp fun pool => noLineLost_of_inv

/-! ### A line that is lost -/

namespace LateWrite

/-- A report that takes as many lines as a file. -/
def report : Buffer := List.replicate maxLinesPerFile 10

def late : Buffer := "late\n".toList.map fun char => UInt8.ofNat char.toNat

def noFiles : LogFiles := ⟨[], fun _ => none⟩

private theorem newlines_report : newlines report = maxLinesPerFile := by
  rw [newlines, report, List.countP_replicate]
  rfl

/-- The report has been written, and its lines are to be counted. -/
def reported : LogShared := ⟨⟨[report], noFiles.rolled⟩, 0, {report}, 0⟩

/-- They have been counted, and the limit is reached. -/
def counted : LogShared := { reported with lineCount := 0 + Int64.ofNat maxLinesPerFile }

private theorem step_report :
    Threads.step fresh advance ⟨(start noFiles).shared, [.write report, .write late]⟩
      (.move 0 ()) = some ⟨reported, [.count maxLinesPerFile, .write late]⟩ := by
  have written :
      Threads.step fresh advance ⟨(start noFiles).shared, [.write report, .write late]⟩
        (.move 0 ()) =
      some ⟨reported,
        [if 0 < newlines report then .count (newlines report) else .done, .write late]⟩ := rfl
  have lines : 0 < maxLinesPerFile := by decide
  rw [newlines_report, if_pos lines] at written
  exact written

private theorem step_count :
    Threads.step fresh advance ⟨reported, [.count maxLinesPerFile, .write late]⟩ (.move 0 ()) =
      some ⟨counted, [.reset, .write late]⟩ := by
  have limit : Int64.ofNat maxLinesPerFile ≤ 0 + Int64.ofNat maxLinesPerFile := by decide
  have added :
      Threads.step fresh advance ⟨reported, [.count maxLinesPerFile, .write late]⟩ (.move 0 ()) =
      some ⟨counted,
        [if Int64.ofNat maxLinesPerFile ≤ 0 + Int64.ofNat maxLinesPerFile then .reset else .done,
          .write late]⟩ := rfl
  rw [if_pos limit] at added
  exact added

/-- Two calls are there, and the first one has reached the limit; then `rest` happens. -/
def reaching (rest : List (Event LogTask Unit)) : List (Event LogTask Unit) :=
  .spawn (.write report) :: .spawn (.write late) :: .move 0 () :: .move 0 () :: rest

/-- The roll goes up to the reading of `latest.log`, the other thread writes, and the roll goes
on. -/
def during : List (Event LogTask Unit) :=
  List.replicate 8 (.move 0 ()) ++ [.move 1 (), .move 1 (), .move 0 (), .move 0 ()]

/-- The other thread writes when the roll has ended. -/
def after : List (Event LogTask Unit) :=
  List.replicate 10 (.move 0 ()) ++ [.move 1 (), .move 1 ()]

/-- What is left when both calls have returned. -/
def truncated : Pool LogShared LogTask :=
  ⟨⟨⟨[], Function.update noFiles.rolled 1 (some [report])⟩, 1, {late, report}, 1⟩, [.done, .done]⟩

private theorem run_reaching_during :
    run (Threads.step fresh advance) (start noFiles) (reaching during) = some truncated := by
  have rest : run (Threads.step fresh advance) ⟨counted, [.reset, .write late]⟩ during =
      some truncated := rfl
  have roll := run_cons_eq_some.mpr ⟨_, step_report, run_cons_eq_some.mpr ⟨_, step_count, rest⟩⟩
  exact run_cons_eq_some.mpr ⟨_, rfl, run_cons_eq_some.mpr ⟨_, rfl, roll⟩⟩

end LateWrite

open LateWrite

/-- A report is rolled, and another thread writes a line after that. -/
theorem noLineLost_after_roll :
    Always (Threads.step fresh advance) (NoLineLost noFiles) (start noFiles) (reaching after) := by
  refine noLineLost_of_undisturbed noFiles (reaching after) ?_
  refine (guarded_cons_iff rfl).mpr ⟨trivial, (guarded_cons_iff rfl).mpr ⟨trivial, ?_⟩⟩
  refine (guarded_cons_iff step_report).mpr ⟨?_, (guarded_cons_iff step_count).mpr ⟨?_, ?_⟩⟩
  · decide
  · decide
  · decide +kernel

/-- A line that another thread writes while a roll is between reading and truncating `latest.log`
is lost. -/
theorem late_write_lost :
    ¬ ∀ (initial : LogFiles) (events : List (Event LogTask Unit)),
      Always (Threads.step fresh advance) (NoLineLost initial) (start initial) events := by
  intro always
  have good : NoLineLost noFiles truncated :=
    always_iff_prefixes.mp (always noFiles (reaching during)) (reaching during) [] truncated
      (List.append_nil _).symm run_reaching_during
  have kept := (good (by decide) (by decide)).1
  -- two buffers were written, and one is left
  have fewer : Multiset.card truncated.shared.files.allLines = 1 := rfl
  have both := Multiset.card_le_card kept
  rw [fewer] at both
  exact absurd both (by decide)

end RollingFileWriter

end MCGate
