import Mathlib.Data.List.Basic
import Mathlib.Data.List.Nodup
import Mathlib.Data.List.Pairwise
import Mathlib.Logic.Function.Basic

/-!
# Tables with automatic ids

A program keeps a table whose rows are numbered as they come, and tables of rows that refer to
them, in a database that is not its own. All it relies on is what the documentation of the
database says of the statements that succeed (`Documented`): an `AUTOINCREMENT` id is above all
ids that were ever given, and `ON DELETE CASCADE` deletes what refers to a deleted row.

So the rows stand in the order in which they came, whatever was deleted in between, and the
newest ones are the last ones (`Documented.rows_deleteBeyond`). A row is in the table with all
that belongs to it, or not at all: seen from outside the tables are one table of whole rows
(`Engine.whole`), also to a prune (`Documented.whole_prune`).

A table that is pruned now and then loses rows to age and to number. `Kept` accounts for all rows
there ever were: each is in the table or has a prune to blame, and no prune is undone later.
-/
namespace MCGate.Sql

/-- What a program asks of its database. An error, `none`, leaves the database as it was. -/
structure Engine (σ ρ : Type) {ι : Type} (χ : ι → Type) where
  /-- `SELECT … ORDER BY id` -/
  rows : σ → List (Int × ρ)
  /-- the largest id that was ever given -/
  sequence : σ → Int
  /-- the rows of another table as they came, each behind the id that it refers to -/
  children : σ → (i : ι) → List (Int × χ i)
  /-- with `last_insert_rowid` behind it -/
  insert : σ → ρ → Option (Int × σ)
  insertChild : σ → (i : ι) → Int → χ i → Option σ
  /-- `DELETE FROM … WHERE …` -/
  deleteWhere : σ → (Int × ρ → Bool) → Option σ
  /-- `SELECT id FROM … ORDER BY id DESC LIMIT -1 OFFSET …` -/
  idsBeyond : σ → Int → List Int

variable {σ ρ ι : Type} {χ : ι → Type}

/-- What is documented of the statements that succeed. -/
structure Engine.Documented (db : Engine σ ρ χ) : Prop where
  /-- `PRIMARY KEY` -/
  sorted : ∀ s, (db.rows s).Pairwise fun one two => one.1 < two.1
  known : ∀ s, ∀ row ∈ db.rows s, row.1 ≤ db.sequence s
  /-- `AUTOINCREMENT` -/
  insert : ∀ {s row id s'}, db.insert s row = some (id, s') →
    db.sequence s < id ∧ db.sequence s' = id ∧ db.rows s' = db.rows s ++ [(id, row)] ∧
      db.children s' = db.children s
  insertChild : ∀ {s i id child s'}, db.insertChild s i id child = some s' →
    db.rows s' = db.rows s ∧ db.sequence s' = db.sequence s ∧
      db.children s' i = db.children s i ++ [(id, child)] ∧
      ∀ j, j ≠ i → db.children s' j = db.children s j
  /-- `ON DELETE CASCADE` -/
  deleteWhere : ∀ {s p s'}, db.deleteWhere s p = some s' →
    db.rows s' = ((db.rows s).filter fun row => !p row) ∧ db.sequence s' = db.sequence s ∧
      ∀ i, db.children s' i =
        (db.children s i).filter fun child => child.1 ∉ ((db.rows s).filter p).map Prod.fst
  /-- a negative offset counts as none -/
  idsBeyond : ∀ s max, db.idsBeyond s max = ((db.rows s).map Prod.fst).reverse.drop max.toNat

namespace Engine

/-- An `INSERT` of each of the values. -/
def insertAll (db : Engine σ ρ χ) (s : σ) (values : List ρ) : Option σ :=
  values.foldlM (fun s value => (db.insert s value).map Prod.snd) s

def insertChildren (db : Engine σ ρ χ) (s : σ) (i : ι) (id : Int) (values : List (χ i)) :
    Option σ :=
  values.foldlM (fun s child => db.insertChild s i id child) s

/-- `DELETE FROM … WHERE id IN (SELECT id FROM … ORDER BY id DESC LIMIT -1 OFFSET …)` -/
def deleteBeyond (db : Engine σ ρ χ) (s : σ) (max : Int) : Option σ :=
  db.deleteWhere s fun row => row.1 ∈ db.idsBeyond s max

end Engine

/-! ### Retention -/

/-- How far a prune has come: each of its statements may fail, and then it stops. -/
inductive Extent where
  | nothing
  | expired
  | complete
  deriving DecidableEq

/-- What is too old is deleted, and then all but the newest `max`. The environment lets the
prune come no further than `extent`. -/
def Engine.prune (db : Engine σ ρ χ) (s : σ) (expired : ρ → Bool) (max : Int) (extent : Extent) :
    σ × Extent :=
  if extent = .nothing then (s, .nothing)
  else
    match db.deleteWhere s fun row => expired row.2 with
    | none => (s, .nothing)
    | some young =>
      if extent = .expired then (young, .expired)
      else
        match db.deleteBeyond young max with
        | none => (young, .expired)
        | some few => (few, .complete)

section Retention

variable {α : Type}

/-- The rows that a prune leaves of `rows`. -/
def pruned (rows : List (Int × α)) (expired : α → Bool) (max : Int) : Extent → List (Int × α)
  | .nothing => rows
  | .expired => rows.filter fun row => !expired row.2
  | .complete =>
    let young := rows.filter fun row => !expired row.2
    young.drop (young.length - max.toNat)

/-- A prune of the past, with the rows it found and the largest id that was given by then. -/
structure Prune (α : Type) where
  found : List (Int × α)
  upto : Int
  expired : α → Bool
  max : Int
  extent : Extent

/-- The prune had a reason to delete the row: its age, or enough newer rows that stayed. -/
def Prune.Blamed (p : Prune α) (row : Int × α) : Prop :=
  row ∈ p.found ∧
    ((p.extent ≠ .nothing ∧ p.expired row.2) ∨
      (p.extent = .complete ∧
        p.max.toNat ≤ p.found.countP fun other => row.1 < other.1 ∧ !p.expired other.2))

/-- The table after some inserts, of the rows `ever`, and some prunes. -/
structure Kept (rows : List (Int × α)) (last : Int) (ever : List (Int × α))
    (prunes : List (Prune α)) : Prop where
  /-- nothing was changed, made up or reordered -/
  unchanged : rows.Sublist ever
  cause : ∀ row ∈ ever, row ∉ rows → ∃ p ∈ prunes, p.Blamed row
  past : ∀ p ∈ prunes, p.upto ≤ last
  fresh : ∀ p ∈ prunes, p.extent ≠ .nothing → ∀ row ∈ rows, row.1 ≤ p.upto →
    p.expired row.2 = false
  few : ∀ p ∈ prunes, p.extent = .complete →
    (rows.countP fun row => row.1 ≤ p.upto) ≤ p.max.toNat

variable {rows added ever : List (Int × α)} {last last' : Int} {prunes : List (Prune α)}
  {expired : α → Bool} {max : Int} {extent : Extent} {row : Int × α}

theorem Kept.start (rows : List (Int × α)) (last : Int) : Kept rows last rows [] where
  unchanged := .refl _
  cause row member gone := absurd member gone
  past p member := by cases member
  fresh p member := by cases member
  few p member := by cases member

/-- New rows come behind all prunes. -/
theorem Kept.append (kept : Kept rows last ever prunes) (new : ∀ row ∈ added, last < row.1)
    (later : last ≤ last') : Kept (rows ++ added) last' (ever ++ added) prunes := by
  -- an id that is given now is larger than any that a prune has seen
  have unknown {p : Prune α} (member : p ∈ prunes) {row : Int × α} (inserted : row ∈ added) :
      ¬ row.1 ≤ p.upto :=
    Int.not_le.mpr (Int.lt_of_le_of_lt (kept.past p member) (new row inserted))
  constructor
  case unchanged => exact kept.unchanged.append (.refl _)
  case cause =>
    intro row member gone
    rcases List.mem_append.mp member with old | inserted
    · exact kept.cause row old fun there => gone (List.mem_append_left _ there)
    · exact absurd (List.mem_append_right _ inserted) gone
  case past => exact fun p member => Int.le_trans (kept.past p member) later
  case fresh =>
    intro p member done row there known
    rcases List.mem_append.mp there with old | inserted
    · exact kept.fresh p member done row old known
    · exact absurd known (unknown member inserted)
  case few =>
    intro p member done
    have none_new : (added.countP fun row => row.1 ≤ p.upto) = 0 :=
      List.countP_eq_zero.mpr fun row inserted => by simpa using unknown member inserted
    rw [List.countP_append, none_new]
    exact kept.few p member done

/-- What a prune leaves is part of what was there. -/
theorem pruned_sublist (rows : List (Int × α)) (expired : α → Bool) (max : Int)
    (extent : Extent) : (pruned rows expired max extent).Sublist rows := by
  cases extent with
  | nothing => exact .refl _
  | expired => exact List.filter_sublist
  | complete => exact (List.drop_sublist _ _).trans List.filter_sublist

theorem young_of_pruned (done : extent ≠ .nothing)
    (member : row ∈ pruned rows expired max extent) : expired row.2 = false := by
  have young : row ∈ rows.filter fun row => !expired row.2 := by
    cases extent with
    | nothing => exact absurd rfl done
    | expired => exact member
    | complete => exact List.mem_of_mem_drop member
  simpa using (List.mem_filter.mp young).2

theorem length_pruned_le (rows : List (Int × α)) (expired : α → Bool) (max : Int) :
    (pruned rows expired max .complete).length ≤ max.toNat := by
  rw [pruned, List.length_drop]
  omega

/-- A row goes only if there are enough newer ones. -/
theorem newer_of_notMem_drop (sorted : rows.Pairwise fun one two => one.1 < two.1)
    (member : row ∈ rows) {n : Nat} (gone : row ∉ rows.drop (rows.length - n)) :
    n ≤ rows.countP fun other => row.1 < other.1 := by
  have split := List.take_append_drop (rows.length - n) rows
  rw [← split] at member
  -- ids ascend, so all that stays is newer than what goes
  have early := (List.mem_append.mp member).resolve_right gone
  rw [← split, List.pairwise_append] at sorted
  have later := sorted.2.2 row early
  have some_gone : 0 < (rows.take (rows.length - n)).length := List.length_pos_of_mem early
  rw [List.length_take] at some_gone
  have all : (rows.drop (rows.length - n)).countP (fun other => row.1 < other.1) = n := by
    rw [List.countP_eq_length.mpr (by simpa using later), List.length_drop]
    omega
  calc n = (rows.drop (rows.length - n)).countP fun other => row.1 < other.1 := all.symm
    _ ≤ rows.countP fun other => row.1 < other.1 := (List.drop_sublist _ _).countP_le

theorem blamed_of_gone (sorted : rows.Pairwise fun one two => one.1 < two.1)
    (member : row ∈ rows) (gone : row ∉ pruned rows expired max extent) (upto : Int) :
    Prune.Blamed ⟨rows, upto, expired, max, extent⟩ row := by
  refine ⟨member, ?_⟩
  -- a row that was too old went in the first statement, any other in the second
  by_cases old : expired row.2
  · refine .inl ⟨?_, old⟩
    rintro rfl
    exact gone member
  · have stays : row ∈ rows.filter fun row => !expired row.2 :=
      List.mem_filter.mpr ⟨member, by simpa using old⟩
    cases extent with
    | nothing => exact absurd member gone
    | expired => exact absurd stays gone
    | complete =>
      have newer := newer_of_notMem_drop (sorted.sublist List.filter_sublist) stays gone
      rw [List.countP_filter] at newer
      simpa using Or.inr newer

theorem Kept.prune (kept : Kept rows last ever prunes)
    (sorted : rows.Pairwise fun one two => one.1 < two.1) (expired : α → Bool) (max : Int)
    (extent : Extent) :
    Kept (pruned rows expired max extent) last ever
      (⟨rows, last, expired, max, extent⟩ :: prunes) := by
  have fewer := pruned_sublist rows expired max extent
  constructor
  case unchanged => exact fewer.trans kept.unchanged
  case cause =>
    intro row member gone
    -- a row that had gone before keeps its earlier cause
    by_cases there : row ∈ rows
    · exact ⟨_, List.mem_cons_self, blamed_of_gone sorted there gone last⟩
    · obtain ⟨p, known, blamed⟩ := kept.cause row member there
      exact ⟨p, List.mem_cons_of_mem _ known, blamed⟩
  case past =>
    intro p member
    rcases List.mem_cons.mp member with rfl | before
    · exact Int.le_refl _
    · exact kept.past p before
  case fresh =>
    intro p member done row there known
    rcases List.mem_cons.mp member with rfl | before
    · exact young_of_pruned done there
    · exact kept.fresh p before done row (fewer.subset there) known
  case few =>
    intro p member done
    rcases List.mem_cons.mp member with rfl | before
    · dsimp only at done
      subst done
      exact Nat.le_trans List.countP_le_length (length_pruned_le rows expired max)
    · exact Nat.le_trans fewer.countP_le (kept.few p before done)

end Retention

/-! ### Rows with what belongs to them -/

/-- A row, and what refers to it in each of the other tables. -/
structure Whole (ρ : Type) {ι : Type} (χ : ι → Type) where
  row : ρ
  belongs : (i : ι) → List (χ i)

namespace Engine

def childrenOf (db : Engine σ ρ χ) (s : σ) (i : ι) (id : Int) : List (χ i) :=
  ((db.children s i).filter fun child => child.1 = id).map Prod.snd

/-- The rows by their ids, each with what refers to it. -/
def whole (db : Engine σ ρ χ) (s : σ) : List (Int × Whole ρ χ) :=
  (db.rows s).map fun row => (row.1, ⟨row.2, fun i => db.childrenOf s i row.1⟩)

/-- Every reference leads to a row. -/
def Linked (db : Engine σ ρ χ) (s : σ) : Prop :=
  ∀ i, ∀ child ∈ db.children s i, ∃ row ∈ db.rows s, row.1 = child.1

namespace Documented

variable {db : Engine σ ρ χ} {s s' : σ} {i : ι} {id : Int}

theorem insertAll (documented : db.Documented) {values : List ρ}
    (inserted : db.insertAll s values = some s') :
    ∃ added, db.rows s' = db.rows s ++ added ∧ added.map Prod.snd = values ∧
      (∀ row ∈ added, db.sequence s < row.1) ∧ db.sequence s ≤ db.sequence s' := by
  -- each row is given an id above those before it
  induction values generalizing s with
  | nil =>
    cases inserted
    exact ⟨[], (List.append_nil _).symm, rfl, by simp, Int.le_refl _⟩
  | cons value rest ih =>
    obtain ⟨mid, done, others⟩ := Option.bind_eq_some_iff.mp inserted
    obtain ⟨⟨id, mid⟩, first, rfl⟩ := Option.map_eq_some_iff.mp done
    obtain ⟨greater, rfl, rows, -⟩ := documented.insert first
    obtain ⟨added, behind, values, new, more⟩ := ih others
    refine ⟨(db.sequence mid, value) :: added, ?_, by rw [List.map_cons, values], ?_,
      Int.le_trans (Int.le_of_lt greater) more⟩
    · rw [behind, rows, List.append_assoc, List.singleton_append]
    · intro row member
      rcases List.mem_cons.mp member with rfl | later
      · exact greater
      · exact Int.lt_trans greater (new row later)

theorem insertChildren (documented : db.Documented) {values : List (χ i)}
    (inserted : db.insertChildren s i id values = some s') :
    db.rows s' = db.rows s ∧ db.sequence s' = db.sequence s ∧
      db.children s' i = db.children s i ++ values.map (Prod.mk id) ∧
      ∀ j, j ≠ i → db.children s' j = db.children s j := by
  induction values generalizing s with
  | nil =>
    cases inserted
    exact ⟨rfl, rfl, (List.append_nil _).symm, fun _ _ => rfl⟩
  | cons value rest ih =>
    obtain ⟨mid, first, others⟩ := Option.bind_eq_some_iff.mp inserted
    obtain ⟨rows, sequence, here, elsewhere⟩ := documented.insertChild first
    obtain ⟨rows', sequence', here', elsewhere'⟩ := ih others
    refine ⟨rows'.trans rows, sequence'.trans sequence, ?_, fun j other =>
      (elsewhere' j other).trans (elsewhere j other)⟩
    rw [here', here, List.append_assoc, List.map_cons, List.singleton_append]

theorem nodup_ids (documented : db.Documented) (s : σ) : ((db.rows s).map Prod.fst).Nodup :=
  List.pairwise_map.mpr ((documented.sorted s).imp Int.ne_of_lt)

/-- The ids of the rows that stay are not among those that go. -/
theorem stays_of_mem_filter (documented : db.Documented) {p : Int × ρ → Bool} {row : Int × ρ}
    (member : row ∈ (db.rows s).filter fun row => !p row) :
    row.1 ∉ ((db.rows s).filter p).map Prod.fst := by
  obtain ⟨there, kept⟩ := List.mem_filter.mp member
  intro gone
  obtain ⟨other, matched, same⟩ := List.mem_map.mp gone
  obtain ⟨otherThere, deleted⟩ := List.mem_filter.mp matched
  -- an id belongs to one row, which would both stay and go
  rw [List.inj_on_of_nodup_map (documented.nodup_ids s) otherThere there same] at deleted
  rw [deleted] at kept
  cases kept

end Documented

end Engine

theorem filter_notMem_take {α : Type} {rows : List (Int × α)} (nodup : (rows.map Prod.fst).Nodup)
    (k : Nat) :
    (rows.filter fun row => !decide (row.1 ∈ (rows.map Prod.fst).take k)) = rows.drop k := by
  induction rows generalizing k with
  | nil => rw [List.filter_nil, List.drop_nil]
  | cons first rest ih =>
    obtain ⟨fresh, nodup⟩ := List.nodup_cons.mp nodup
    cases k with
    | zero => simp
    | succ k =>
      rw [List.map_cons, List.take_succ_cons, List.filter_cons_of_neg (by simp),
        List.drop_succ_cons, ← ih nodup k]
      refine List.filter_congr fun row member => ?_
      -- the id of the first row is no other row's
      have apart : row.1 ≠ first.1 := by
        rintro same
        exact fresh (same ▸ List.mem_map_of_mem member)
      simp only [List.mem_cons, apart, false_or]

namespace Engine

variable {db : Engine σ ρ χ} {s s' : σ} {i : ι} {id : Int}

theorem map_fst_whole (db : Engine σ ρ χ) (s : σ) :
    (db.whole s).map Prod.fst = (db.rows s).map Prod.fst := by
  rw [whole, List.map_map]
  rfl

namespace Documented

/-- With a row goes what belongs to it, and nothing else. -/
theorem whole_deleteWhere (documented : db.Documented) {p : Int × ρ → Bool}
    (deleted : db.deleteWhere s p = some s') :
    db.whole s' = (db.whole s).filter fun entry => !p (entry.1, entry.2.row) := by
  obtain ⟨rows, -, children⟩ := documented.deleteWhere deleted
  rw [whole, whole, List.filter_map, rows]
  refine List.map_congr_left fun row there => ?_
  have stays := documented.stays_of_mem_filter there
  -- the cascade takes the children of deleted rows only, and this row stays
  have same (i : ι) : db.childrenOf s' i row.1 = db.childrenOf s i row.1 := by
    unfold childrenOf
    rw [children, List.filter_filter]
    congr 1
    refine List.filter_congr fun child _ => ?_
    by_cases mine : child.1 = row.1
    · simp only [mine, stays, not_false_eq_true, decide_true, Bool.and_true]
    · simp only [mine, decide_false, Bool.false_and]
  simp only [same]

theorem idsBeyond_iff (documented : db.Documented) (s : σ) (max : Int) (id : Int) :
    id ∈ db.idsBeyond s max ↔
      id ∈ ((db.rows s).map Prod.fst).take ((db.rows s).length - max.toNat) := by
  rw [documented.idsBeyond, List.drop_reverse, List.mem_reverse, List.length_map]

/-- What is left are the newest rows. -/
theorem rows_deleteBeyond (documented : db.Documented) {max : Int}
    (deleted : db.deleteBeyond s max = some s') :
    db.rows s' = (db.rows s).drop ((db.rows s).length - max.toNat) := by
  obtain ⟨rows, -, -⟩ := documented.deleteWhere deleted
  rw [rows, ← filter_notMem_take (documented.nodup_ids s)]
  simp only [documented.idsBeyond_iff]

theorem whole_deleteBeyond (documented : db.Documented) {max : Int}
    (deleted : db.deleteBeyond s max = some s') :
    db.whole s' = (db.whole s).drop ((db.whole s).length - max.toNat) := by
  have length : (db.whole s).length = (db.rows s).length := List.length_map _
  have nodup : ((db.whole s).map Prod.fst).Nodup := by
    rw [map_fst_whole]
    exact documented.nodup_ids s
  rw [documented.whole_deleteWhere deleted, ← filter_notMem_take nodup, map_fst_whole, length]
  simp only [documented.idsBeyond_iff]

/-- What holds of each of the two statements of a prune holds of both. -/
theorem prune_cases {motive : σ → Extent → Prop} {expired : ρ → Bool} {max : Int}
    {extent : Extent} (nothing : motive s .nothing)
    (one : ∀ young, db.deleteWhere s (fun row => expired row.2) = some young →
      motive young .expired)
    (two : ∀ young few, db.deleteWhere s (fun row => expired row.2) = some young →
      db.deleteBeyond young max = some few → motive few .complete) :
    motive (db.prune s expired max extent).1 (db.prune s expired max extent).2 := by
  unfold Engine.prune
  split
  · exact nothing
  · -- the second statement is not run when the first one fails
    cases first : db.deleteWhere s fun row => expired row.2 with
    | none => exact nothing
    | some young =>
      dsimp only
      split
      · exact one young first
      · cases second : db.deleteBeyond young max with
        | none => exact one young first
        | some few => exact two young few first second

theorem rows_prune (documented : db.Documented) (s : σ) (expired : ρ → Bool) (max : Int)
    (extent : Extent) :
    db.rows (db.prune s expired max extent).1 =
      pruned (db.rows s) expired max (db.prune s expired max extent).2 := by
  refine prune_cases (motive := fun s' extent => db.rows s' = pruned (db.rows s) expired max extent)
    rfl (fun young first => (documented.deleteWhere first).1) fun young few first second => ?_
  rw [documented.rows_deleteBeyond second, (documented.deleteWhere first).1]
  rfl

/-- To a prune the tables are one table of whole rows. -/
theorem whole_prune (documented : db.Documented) (s : σ) (expired : ρ → Bool) (max : Int)
    (extent : Extent) :
    db.whole (db.prune s expired max extent).1 =
      pruned (db.whole s) (fun entry => expired entry.row) max
        (db.prune s expired max extent).2 := by
  refine prune_cases (motive := fun s' extent =>
      db.whole s' = pruned (db.whole s) (fun entry => expired entry.row) max extent)
    rfl (fun young first => documented.whole_deleteWhere first) fun young few first second => ?_
  rw [documented.whole_deleteBeyond second, documented.whole_deleteWhere first]
  rfl

theorem sequence_prune (documented : db.Documented) (s : σ) (expired : ρ → Bool) (max : Int)
    (extent : Extent) : db.sequence (db.prune s expired max extent).1 = db.sequence s := by
  refine prune_cases (motive := fun s' _ => db.sequence s' = db.sequence s) rfl
    (fun young first => (documented.deleteWhere first).2.1) fun young few first second => ?_
  rw [(documented.deleteWhere second).2.1, (documented.deleteWhere first).2.1]

theorem linked_deleteWhere (documented : db.Documented) (linked : db.Linked s)
    {p : Int × ρ → Bool} (deleted : db.deleteWhere s p = some s') : db.Linked s' := by
  obtain ⟨rows, -, children⟩ := documented.deleteWhere deleted
  intro i child member
  rw [children] at member
  obtain ⟨there, stays⟩ := List.mem_filter.mp member
  obtain ⟨row, rowThere, same⟩ := linked i child there
  rw [rows]
  refine ⟨row, List.mem_filter.mpr ⟨rowThere, ?_⟩, same⟩
  -- the cascade would have deleted a child of a deleted row
  by_contra gone
  have goes : child.1 ∈ ((db.rows s).filter p).map Prod.fst :=
    List.mem_map.mpr ⟨row, List.mem_filter.mpr ⟨rowThere, by simpa using gone⟩, same⟩
  exact of_decide_eq_true stays goes

theorem linked_prune (documented : db.Documented) (linked : db.Linked s) (expired : ρ → Bool)
    (max : Int) (extent : Extent) : db.Linked (db.prune s expired max extent).1 :=
  prune_cases (motive := fun s' _ => db.Linked s') linked
    (fun _ first => documented.linked_deleteWhere linked first) fun _ _ first second =>
      documented.linked_deleteWhere (documented.linked_deleteWhere linked first) second

theorem linked_insert (documented : db.Documented) (linked : db.Linked s) {row : ρ}
    (inserted : db.insert s row = some (id, s')) : db.Linked s' := by
  obtain ⟨-, -, rows, children⟩ := documented.insert inserted
  intro i child member
  rw [children] at member
  obtain ⟨row, there, same⟩ := linked i child member
  rw [rows]
  exact ⟨row, List.mem_append_left _ there, same⟩

theorem linked_insertChildren (documented : db.Documented) (linked : db.Linked s)
    {values : List (χ i)} (parent : ∃ row ∈ db.rows s, row.1 = id)
    (inserted : db.insertChildren s i id values = some s') : db.Linked s' := by
  obtain ⟨rows, -, here, elsewhere⟩ := documented.insertChildren inserted
  intro j child member
  rw [rows]
  by_cases mine : j = i
  · subst mine
    rw [here] at member
    rcases List.mem_append.mp member with old | new
    · exact linked j child old
    · obtain ⟨value, -, rfl⟩ := List.mem_map.mp new
      exact parent
  · rw [elsewhere j mine] at member
    exact linked j child member

/-- Nothing refers to an id that is still to be given. -/
theorem childrenOf_new (documented : db.Documented) (linked : db.Linked s) (i : ι)
    (new : db.sequence s < id) : db.childrenOf s i id = [] := by
  refine List.map_eq_nil_iff.mpr (List.filter_eq_nil_iff.mpr fun child member own => ?_)
  obtain ⟨row, there, same⟩ := linked i child member
  have known := documented.known s row there
  rw [same, of_decide_eq_true own] at known
  exact absurd new (Int.not_lt.mpr known)

theorem childrenOf_insertChildren (documented : db.Documented) {values : List (χ i)}
    (inserted : db.insertChildren s i id values = some s') (id' : Int) :
    db.childrenOf s' i id' = db.childrenOf s i id' ++ if id' = id then values else [] := by
  obtain ⟨-, -, here, -⟩ := documented.insertChildren inserted
  unfold childrenOf
  rw [here, List.filter_append, List.map_append]
  congr 1
  split
  next same =>
    rw [List.filter_eq_self.mpr (by simp [same]), List.map_map]
    exact List.map_id values
  next apart =>
    rw [List.filter_eq_nil_iff.mpr (by simpa using fun _ _ => Ne.symm apart)]
    rfl

theorem childrenOf_insertChildren_ne (documented : db.Documented) {values : List (χ i)}
    (inserted : db.insertChildren s i id values = some s') {j : ι} (other : j ≠ i) (id' : Int) :
    db.childrenOf s' j id' = db.childrenOf s j id' := by
  obtain ⟨-, -, -, elsewhere⟩ := documented.insertChildren inserted
  unfold childrenOf
  rw [elsewhere j other]

end Documented

end Engine

/-! ### A database in memory -/

/-- Tables in memory, with the largest id that was ever given. -/
structure Memory (ρ : Type) {ι : Type} (χ : ι → Type) where
  rows : List (Int × ρ)
  sequence : Int
  children : (i : ι) → List (Int × χ i)
  sorted : rows.Pairwise fun one two => one.1 < two.1
  known : ∀ row ∈ rows, row.1 ≤ sequence

namespace Memory

/-- The ids begin at one. -/
def empty : Memory ρ χ := ⟨[], 0, fun _ => [], .nil, fun _ member => by cases member⟩

def insert (self : Memory ρ χ) (row : ρ) : Memory ρ χ where
  rows := self.rows ++ [(self.sequence + 1, row)]
  sequence := self.sequence + 1
  children := self.children
  sorted := by
    refine List.pairwise_append.mpr ⟨self.sorted, List.pairwise_singleton _ _, ?_⟩
    intro old before new after
    rw [List.mem_singleton.mp after]
    exact Int.lt_add_one_of_le (self.known old before)
  known row member := by
    rcases List.mem_append.mp member with old | new
    · exact Int.le_trans (self.known row old) (Int.le_add_one (Int.le_refl _))
    · exact Int.le_of_eq (congrArg Prod.fst (List.mem_singleton.mp new))

def deleteWhere (self : Memory ρ χ) (p : Int × ρ → Bool) : Memory ρ χ where
  rows := self.rows.filter fun row => !p row
  sequence := self.sequence
  children i := (self.children i).filter fun child => child.1 ∉ (self.rows.filter p).map Prod.fst
  sorted := self.sorted.sublist List.filter_sublist
  known row member := self.known row (List.mem_of_mem_filter member)

end Memory

/-- It refuses only a row that refers to none. -/
def memory [DecidableEq ι] : Engine (Memory ρ χ) ρ χ where
  rows := Memory.rows
  sequence := Memory.sequence
  children := Memory.children
  insert s row := some (s.sequence + 1, s.insert row)
  insertChild s i id child :=
    if id ∈ s.rows.map Prod.fst then
      some { s with children := Function.update s.children i (s.children i ++ [(id, child)]) }
    else none
  deleteWhere s p := some (s.deleteWhere p)
  idsBeyond s max := (s.rows.map Prod.fst).reverse.drop max.toNat

theorem memory_documented [DecidableEq ι] : (memory (ρ := ρ) (χ := χ)).Documented where
  sorted := Memory.sorted
  known := Memory.known
  insert := by
    rintro s row id s' ⟨⟩
    exact ⟨Int.lt_add_one_of_le (Int.le_refl _), rfl, rfl, rfl⟩
  insertChild := by
    intro s i id child s' inserted
    simp only [memory] at inserted
    split at inserted <;> cases inserted
    exact ⟨rfl, rfl, Function.update_self _ _ _, fun j other => Function.update_of_ne other _ _⟩
  deleteWhere := by
    rintro s p s' ⟨⟩
    exact ⟨rfl, rfl, fun _ => rfl⟩
  idsBeyond _ _ := rfl

end MCGate.Sql
