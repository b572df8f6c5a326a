import Mathlib.Data.List.Sort
import MCGate.Std.HashMap
import MCGate.Std.Text
import MCGate.Std.Time

/-!
# The cache of status answers

Answers are kept until they expire, and at most `MAX_ENTRIES` of them: where there are more,
the ones that expire first go until a tenth of the room is free. A backend whose dial failed
is remembered for a while. Each map has its own lock, so an operation on both is two steps.
-/
namespace MCGate

structure PingCacheEntry where
  json : Text
  expiresAt : Instant
  deriving DecidableEq

structure PingCache where
  entries : HashMap Text PingCacheEntry
  downUntil : HashMap Text Instant

namespace PingCache

def failureTtl : Nat := 5 * nanosPerSecond

def maxEntries : Nat := 10000

/-- `evict_overflow` -/
def evictOverflow (entries : HashMap Text PingCacheEntry) : HashMap Text PingCacheEntry :=
  let target := maxEntries * 9 / 10
  let overBy := entries.entries.length - target
  let byExpiry := (entries.entries.map fun entry => (entry.1, entry.2.expiresAt)).insertionSort
    fun one two => one.2 ≤ two.2
  (byExpiry.take overBy).foldl (fun entries entry => entries.erase entry.1) entries

def get (self : PingCache) (now : Instant) (key : Text) : PingCache × Option Text :=
  match self.entries.lookup key with
  | none => (self, none)
  | some entry =>
    if entry.expiresAt < now then ({ self with entries := self.entries.erase key }, none)
    else (self, some entry.json)

/-- The first half of `put`. -/
def clearDown (self : PingCache) (key : Text) : PingCache :=
  { self with downUntil := self.downUntil.erase key }

/-- The second half of `put`. -/
def store (self : PingCache) (now : Instant) (key json : Text) (ttlMillis : Int64) : PingCache :=
  if ttlMillis < 0 then self
  else
    let entries := self.entries.insert key ⟨json, now + fromMillis ttlMillis⟩
    { self with
      entries := if maxEntries < entries.entries.length then evictOverflow entries else entries }

def isKnownDown (self : PingCache) (now : Instant) (key : Text) : PingCache × Bool :=
  match self.downUntil.lookup key with
  | none => (self, false)
  | some until_ =>
    if until_ < now then ({ self with downUntil := self.downUntil.erase key }, false)
    else (self, true)

def markDown (self : PingCache) (now : Instant) (key : Text) : PingCache :=
  { self with downUntil := self.downUntil.insert key (now + failureTtl) }

/-- The first half of `sweep`. -/
def sweepEntries (self : PingCache) (now : Instant) : PingCache :=
  { self with entries := HashMap.retain (fun _ entry => now ≤ entry.expiresAt) self.entries }

/-- The second half of `sweep`. -/
def sweepDown (self : PingCache) (now : Instant) : PingCache :=
  { self with downUntil := HashMap.retain (fun _ until_ => now ≤ until_) self.downUntil }

/-! ### What is cached -/

/-- Nothing is in the first map that is not in the second. -/
def Within (small large : HashMap Text PingCacheEntry) : Prop :=
  ∀ key entry, small.lookup key = some entry → large.lookup key = some entry

private theorem within_erase (entries : HashMap Text PingCacheEntry) (key : Text) :
    Within (entries.erase key) entries := by
  intro other entry found
  rw [HashMap.lookup_erase_eq] at found
  split at found
  · cases found
  · exact found

private theorem within_foldl_erase (gone : List (Text × Instant))
    (entries : HashMap Text PingCacheEntry) :
    Within (gone.foldl (fun entries entry => entries.erase entry.1) entries) entries := by
  induction gone generalizing entries with
  | nil => exact fun _ _ found => found
  | cons first rest ih =>
    intro key entry found
    exact within_erase entries first.1 key entry (ih (entries.erase first.1) key entry found)

variable {self : PingCache} {now : Instant} {key : Text}

/-- `get` returns what is there, and adds nothing. -/
theorem get_within : Within (self.get now key).1.entries self.entries := by
  unfold get
  split
  · exact fun _ _ found => found
  · split
    · exact within_erase _ _
    · exact fun _ _ found => found

theorem lookup_of_get {json : Text} (found : (self.get now key).2 = some json) :
    ∃ entry, self.entries.lookup key = some entry ∧ entry.json = json := by
  unfold get at found
  split at found
  next => cases found
  next entry there =>
    split at found
    · cases found
    · exact ⟨entry, there, Option.some.inj found⟩

theorem isKnownDown_entries : (self.isKnownDown now key).1.entries = self.entries := by
  unfold isKnownDown
  split
  · rfl
  · split <;> rfl

/-- `put` adds one entry, if any. -/
theorem lookup_of_store {json other : Text} {ttlMillis : Int64} {entry : PingCacheEntry}
    (found : (self.store now key json ttlMillis).entries.lookup other = some entry) :
    (ttlMillis < 0 ∨ other ≠ key) ∧ self.entries.lookup other = some entry ∨
      ¬ ttlMillis < 0 ∧ other = key ∧ entry.json = json := by
  unfold store at found
  split at found
  next skipped => exact .inl ⟨.inl skipped, found⟩
  next stored =>
    have inserted : (self.entries.insert key ⟨json, now + fromMillis ttlMillis⟩).lookup other =
        some entry := by
      dsimp only at found
      split at found
      · exact within_foldl_erase _ _ other entry found
      · exact found
    rw [HashMap.lookup_insert_eq] at inserted
    split at inserted
    next same =>
      cases inserted
      exact .inr ⟨stored, same, rfl⟩
    next apart => exact .inl ⟨.inr apart, inserted⟩

theorem sweepEntries_within : Within (self.sweepEntries now).entries self.entries := by
  intro key entry found
  rw [sweepEntries, HashMap.lookup_retain, Option.filter_eq_some_iff] at found
  exact found.1

end PingCache

end MCGate
