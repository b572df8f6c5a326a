import Mathlib.Data.Multiset.Filter
import Mathlib.Logic.Relation
import MCGate.Lib.Machine

/-!
# Interleaved threads

Threads run a sequential program each over one shared state. `advance : σ → τ → α →
Option (σ × τ)` is one atomic step of a thread: it may read and change the shared state,
`α` is what its environment decides, and `none` means that the thread cannot move. The
pool starts threads and lets them move in any order, so a run of the pool is one
interleaving.

An assertion about the shared state and one about each thread hold in every state of a
run, if a thread's own step keeps them and no other thread's step disturbs a thread's
assertion (`always_stable`). Where a statement counts threads, their order does not matter:
it is about the shared state and the threads as a multiset, of which one moves and the others
stay (`step_bag`). So it is with a lock, which one of them holds if any does (`OneHolder`).
-/
namespace MCGate.Threads

open Machine

variable {σ τ α : Type}

structure Pool (σ τ : Type) where
  shared : σ
  threads : List τ

inductive Event (τ α : Type) where
  /-- a thread starts -/
  | spawn (thread : τ)
  /-- the thread at position `i` takes its next step -/
  | move (i : Nat) (choice : α)

/-- One step of the pool. A thread may start in the states that `fresh` allows. -/
def step (fresh : τ → Bool) (advance : σ → τ → α → Option (σ × τ)) (pool : Pool σ τ) :
    Event τ α → Option (Pool σ τ)
  | .spawn thread =>
    if fresh thread then some { pool with threads := pool.threads ++ [thread] } else none
  | .move i choice => do
    let thread ← pool.threads[i]?
    let (shared, thread) ← advance pool.shared thread choice
    return ⟨shared, pool.threads.set i thread⟩

variable {fresh : τ → Bool} {advance : σ → τ → α → Option (σ × τ)}

theorem step_spawn_eq_some {pool next : Pool σ τ} {thread : τ} :
    step fresh advance pool (.spawn thread) = some next ↔
      fresh thread ∧ next = { pool with threads := pool.threads ++ [thread] } := by
  rw [step, Option.ite_none_right_eq_some, Option.some_inj]
  exact and_congr_right fun _ => eq_comm

theorem step_move_eq_some {pool next : Pool σ τ} {i : Nat} {choice : α} :
    step fresh advance pool (.move i choice) = some next ↔
      ∃ thread shared thread', pool.threads[i]? = some thread ∧
        advance pool.shared thread choice = some (shared, thread') ∧
        next = ⟨shared, pool.threads.set i thread'⟩ := by
  simp only [step, Option.bind_eq_bind, Option.bind_eq_some_iff]
  constructor
  · rintro ⟨thread, at_i, ⟨shared, thread'⟩, moved, same⟩
    exact ⟨thread, shared, thread', at_i, moved, (Option.some.inj same).symm⟩
  · rintro ⟨thread, shared, thread', at_i, moved, rfl⟩
    exact ⟨thread, at_i, ⟨shared, thread'⟩, moved, rfl⟩

/-- The thread that was started last moves. -/
theorem step_move_last {shared shared' : σ} {threads : List τ} {thread thread' : τ} {choice : α}
    {i : Nat} (last : threads.length = i)
    (moved : advance shared thread choice = some (shared', thread')) :
    step fresh advance ⟨shared, threads ++ [thread]⟩ (.move i choice) =
      some ⟨shared', threads ++ [thread']⟩ := by
  subst last
  refine step_move_eq_some.mpr ⟨thread, shared', thread', ?_, moved, ?_⟩
  · exact List.getElem?_concat_length
  · rw [List.set_append_right _ _ (Nat.le_refl _), Nat.sub_self]
    rfl

/-- A thread that runs alone. -/
theorem run_alone_succ {shared shared' : σ} {thread thread' : τ} {choice : α}
    (moved : advance shared thread choice = some (shared', thread')) (n : Nat) :
    run (step fresh advance) ⟨shared, [thread]⟩ (List.replicate (n + 1) (.move 0 choice)) =
      run (step fresh advance) ⟨shared', [thread']⟩ (List.replicate n (.move 0 choice)) := by
  have first : step fresh advance ⟨shared, [thread]⟩ (.move 0 choice) = some ⟨shared', [thread']⟩ :=
    step_move_eq_some.mpr ⟨thread, shared', thread', rfl, moved, rfl⟩
  rw [List.replicate_succ, run, first, Option.bind_some]

/-- A step of one thread, with the shared state before and after. -/
def Advances (advance : σ → τ → α → Option (σ × τ)) (a b : σ × τ) : Prop :=
  ∃ choice, advance a.1 a.2 choice = some b

/-- What a thread can do without the others is a run of the pool. -/
theorem run_of_advances {pool : Pool σ τ} {i : Nat} {thread : τ} {last : σ × τ}
    (at_i : pool.threads[i]? = some thread)
    (goes : Relation.ReflTransGen (Advances advance) (pool.shared, thread) last) :
    ∃ events, run (step fresh advance) pool events =
      some ⟨last.1, pool.threads.set i last.2⟩ := by
  -- over what the thread does alone, from its last step back
  induction goes with
  | refl =>
    obtain ⟨inRange, rfl⟩ := List.getElem?_eq_some_iff.mp at_i
    refine ⟨[], ?_⟩
    rw [List.set_getElem_self]
    rfl
  | @tail before after _ last ih =>
    obtain ⟨events, ran⟩ := ih
    obtain ⟨choice, moved⟩ := last
    have here : (pool.threads.set i before.2)[i]? = some before.2 :=
      List.getElem?_set_self (List.getElem?_eq_some_iff.mp at_i).1
    have final : step fresh advance ⟨before.1, pool.threads.set i before.2⟩ (.move i choice) =
        some ⟨after.1, pool.threads.set i after.2⟩ := by
      refine step_move_eq_some.mpr ⟨before.2, after.1, after.2, here, moved, ?_⟩
      rw [List.set_set]
    exact ⟨events ++ [.move i choice], run_concat_eq_some.mpr ⟨_, ran, final⟩⟩

/-- A thread of the pool after a move is the one that moved or one that was there. -/
theorem mem_set_cases {threads : List τ} {i : Nat} {thread' other : τ}
    (member : other ∈ threads.set i thread') : other = thread' ∨ other ∈ threads :=
  (List.mem_or_eq_of_mem_set member).symm

theorem forall_getElem?_set {p : Nat → τ → Prop} {threads : List τ} {i : Nat} {thread' : τ}
    (here : p i thread') (others : ∀ j other, j ≠ i → threads[j]? = some other → p j other) :
    ∀ j other, (threads.set i thread')[j]? = some other → p j other := by
  intro j other at_j
  rw [List.getElem?_set] at at_j
  split at at_j
  next same =>
    subst same
    split at at_j
    · cases at_j
      exact here
    · cases at_j
  next apart => exact others j other (Ne.symm apart) at_j

/-- What holds of a thread before and after its move holds of all threads before the move
exactly when it does after. -/
theorem forall_mem_set_iff {p : τ → Prop} {threads : List τ} {i : Nat} {thread thread' : τ}
    (at_i : threads[i]? = some thread) (before : p thread) (after : p thread') :
    (∀ other ∈ threads.set i thread', p other) ↔ ∀ other ∈ threads, p other := by
  constructor
  · intro all other member
    obtain ⟨j, at_j⟩ := List.mem_iff_getElem?.mp member
    by_cases same : i = j
    · subst same
      rw [at_i] at at_j
      exact Option.some.inj at_j ▸ before
    · have kept : (threads.set i thread')[j]? = some other := by
        rw [List.getElem?_set_ne same, at_j]
      exact all other (List.mem_of_getElem? kept)
  · intro all other member
    rcases mem_set_cases member with rfl | old
    · exact after
    · exact all other old

theorem mem_set_of_ne {threads : List τ} {i : Nat} {thread thread' other : τ}
    (at_i : threads[i]? = some thread) (member : other ∈ threads) (apart : other ≠ thread) :
    other ∈ threads.set i thread' := by
  obtain ⟨j, at_j⟩ := List.mem_iff_getElem?.mp member
  -- the place that changes held another thread
  have elsewhere : i ≠ j := by
    rintro rfl
    exact apart (Option.some.inj (at_j.symm.trans at_i))
  apply List.mem_of_getElem?
  rw [List.getElem?_set_ne elsewhere, at_j]

section Marks

variable {β : Type} {mark : τ → Option β} {threads : List τ} {i : Nat} {thread thread' : τ}

/-- A move that keeps the mark of its thread keeps all marks. -/
theorem filterMap_set_of_eq (at_i : threads[i]? = some thread)
    (same : mark thread' = mark thread) :
    (threads.set i thread').filterMap mark = threads.filterMap mark := by
  induction threads generalizing i with
  | nil => rfl
  | cons first threads ih =>
    cases i with
    | zero =>
      obtain rfl : first = thread := Option.some.inj at_i
      rw [List.set_cons_zero, List.filterMap_cons, List.filterMap_cons, same]
    | succ i => rw [List.set_cons_succ, List.filterMap_cons, List.filterMap_cons, ih at_i]

theorem map_set_of_eq {label : τ → β} (at_i : threads[i]? = some thread)
    (same : label thread' = label thread) :
    (threads.set i thread').map label = threads.map label := by
  induction threads generalizing i with
  | nil => rfl
  | cons first threads ih =>
    cases i with
    | zero =>
      obtain rfl : first = thread := Option.some.inj at_i
      rw [List.set_cons_zero, List.map_cons, List.map_cons, same]
    | succ i => rw [List.set_cons_succ, List.map_cons, List.map_cons, ih at_i]

/-- A move that marks its thread adds one mark. -/
theorem filterMap_set_of_new {b : β} (at_i : threads[i]? = some thread)
    (unmarked : mark thread = none) (marked : mark thread' = some b) :
    ((threads.set i thread').filterMap mark).Perm (b :: threads.filterMap mark) := by
  induction threads generalizing i with
  | nil => cases at_i
  | cons first threads ih =>
    cases i with
    | zero =>
      obtain rfl : first = thread := Option.some.inj at_i
      rw [List.set_cons_zero, List.filterMap_cons_some marked, List.filterMap_cons_none unmarked]
    | succ i =>
      rw [List.set_cons_succ]
      cases other : mark first with
      | none =>
        rw [List.filterMap_cons_none other, List.filterMap_cons_none other]
        exact ih at_i
      | some c =>
        rw [List.filterMap_cons_some other, List.filterMap_cons_some other]
        exact ((ih at_i).cons c).trans (List.Perm.swap b c _)

/-- A move that unmarks its thread takes one mark away. -/
theorem filterMap_set_of_gone {b : β} (at_i : threads[i]? = some thread)
    (marked : mark thread = some b) (unmarked : mark thread' = none) :
    (threads.filterMap mark).Perm (b :: (threads.set i thread').filterMap mark) := by
  obtain ⟨inRange, rfl⟩ := List.getElem?_eq_some_iff.mp at_i
  -- putting the thread back is a move that marks it
  have back : (((threads.set i thread').set i threads[i]).filterMap mark).Perm
      (b :: (threads.set i thread').filterMap mark) :=
    filterMap_set_of_new (List.getElem?_set_self inRange) unmarked marked
  rwa [List.set_set, List.set_getElem_self] at back

end Marks

section Stable

/-- What holds of the shared state and, of each thread, given the shared state. -/
def Holds (inv : σ → Prop) (assertion : σ → τ → Prop) (pool : Pool σ τ) : Prop :=
  inv pool.shared ∧ ∀ thread ∈ pool.threads, assertion pool.shared thread

variable {inv : σ → Prop} {assertion : σ → τ → Prop} {cond : σ → τ → α → Prop}

theorem step_stable
    (start : ∀ shared thread, inv shared → fresh thread → assertion shared thread)
    (own : ∀ shared thread choice shared' thread', inv shared → assertion shared thread →
      cond shared thread choice → advance shared thread choice = some (shared', thread') →
      inv shared' ∧ assertion shared' thread')
    (others : ∀ shared thread choice shared' thread' other, inv shared →
      assertion shared thread → cond shared thread choice →
      advance shared thread choice = some (shared', thread') →
      assertion shared other → assertion shared' other)
    {pool next : Pool σ τ} {event : Event τ α} (holds : Holds inv assertion pool)
    (allowed : ∀ i choice thread, event = .move i choice → pool.threads[i]? = some thread →
      cond pool.shared thread choice)
    (stepped : step fresh advance pool event = some next) : Holds inv assertion next := by
  obtain ⟨shared, each⟩ := holds
  cases event with
  | spawn thread =>
    obtain ⟨ready, rfl⟩ := step_spawn_eq_some.mp stepped
    refine ⟨shared, fun other member => ?_⟩
    rcases List.mem_append.mp member with old | new
    · exact each other old
    · rw [List.mem_singleton.mp new]
      exact start pool.shared thread shared ready
  | move i choice =>
    obtain ⟨thread, shared', thread', at_i, moved, rfl⟩ := step_move_eq_some.mp stepped
    have mine := each thread (List.mem_of_getElem? at_i)
    have may := allowed i choice thread rfl at_i
    obtain ⟨kept, done⟩ := own _ _ _ _ _ shared mine may moved
    refine ⟨kept, fun other member => ?_⟩
    rcases mem_set_cases member with same | old
    · rw [same]
      exact done
    · -- what another thread relies on, this move does not disturb
      exact others _ _ _ _ _ other shared mine may moved (each other old)

/-- The condition `cond` on the moves of a run, as a condition on its events. -/
def MoveCond (cond : σ → τ → α → Prop) (pool : Pool σ τ) : Event τ α → Prop
  | .spawn _ => True
  | .move i choice => ∀ thread, pool.threads[i]? = some thread → cond pool.shared thread choice

instance {cond : σ → τ → α → Prop} [∀ shared thread choice, Decidable (cond shared thread choice)]
    (pool : Pool σ τ) (event : Event τ α) : Decidable (MoveCond cond pool event) :=
  match event with
  | .spawn _ => isTrue trivial
  | .move i choice =>
    match at_i : pool.threads[i]? with
    | none => isTrue (by simp [MoveCond, at_i])
    | some thread =>
      decidable_of_iff (cond pool.shared thread choice) (by simp [MoveCond, at_i])

/-- Assertions that own steps keep and others' steps do not disturb hold in every state of
a run whose moves all meet `cond`. -/
theorem always_stable (inv : σ → Prop) (assertion : σ → τ → Prop)
    (start : ∀ shared thread, inv shared → fresh thread → assertion shared thread)
    (own : ∀ shared thread choice shared' thread', inv shared → assertion shared thread →
      cond shared thread choice → advance shared thread choice = some (shared', thread') →
      inv shared' ∧ assertion shared' thread')
    (others : ∀ shared thread choice shared' thread' other, inv shared →
      assertion shared thread → cond shared thread choice →
      advance shared thread choice = some (shared', thread') →
      assertion shared other → assertion shared' other)
    {pool : Pool σ τ} {events : List (Event τ α)} (holds : Holds inv assertion pool)
    (guarded : Guarded (step fresh advance) (MoveCond cond) pool events) :
    Always (step fresh advance) (Holds inv assertion) pool events := by
  refine always_of_guarded (fun pool event next holds allowed stepped => ?_) holds guarded
  refine step_stable start own others holds ?_ stepped
  rintro i choice thread rfl at_i
  exact allowed thread at_i

/-- The same for every run, where the moves need no condition. -/
theorem always_of_stable
    (start : ∀ shared thread, inv shared → fresh thread → assertion shared thread)
    (own : ∀ shared thread choice shared' thread', inv shared → assertion shared thread →
      advance shared thread choice = some (shared', thread') →
      inv shared' ∧ assertion shared' thread')
    (others : ∀ shared thread choice shared' thread' other, inv shared →
      assertion shared thread → advance shared thread choice = some (shared', thread') →
      assertion shared other → assertion shared' other)
    {pool : Pool σ τ} (events : List (Event τ α)) (holds : Holds inv assertion pool) :
    Always (step fresh advance) (Holds inv assertion) pool events := by
  refine always_of_keep (fun pool event next holds stepped => ?_) events holds
  exact @step_stable σ τ α fresh advance inv assertion (fun _ _ _ => True) start
    (fun s t c s' t' sound before _ => own s t c s' t' sound before)
    (fun s t c s' t' other sound before _ => others s t c s' t' other sound before) _ _ _ holds
    (fun _ _ _ _ _ => trivial) stepped

end Stable

section Bag

variable {inv : σ → Multiset τ → Prop} {cond : σ → τ → Multiset τ → Prop}

/-- One thread moves and the others stay. -/
theorem coe_set {threads : List τ} {i : Nat} {thread thread' : τ}
    (at_i : threads[i]? = some thread) :
    ∃ others : Multiset τ, (threads : Multiset τ) = thread ::ₘ others ∧
      ((threads.set i thread' : List τ) : Multiset τ) = thread' ::ₘ others := by
  -- over the place of the thread that moves
  induction threads generalizing i with
  | nil => cases at_i
  | cons first rest ih =>
    cases i with
    | zero =>
      cases at_i
      exact ⟨rest, rfl, rfl⟩
    | succ i =>
      obtain ⟨others, before, after⟩ := ih at_i
      refine ⟨first ::ₘ others, ?_, ?_⟩
      · rw [← Multiset.cons_coe, before, Multiset.cons_swap]
      · rw [List.set_cons_succ, ← Multiset.cons_coe, after, Multiset.cons_swap]

/-- The condition `cond` on the thread that moves, which sees all threads. -/
def AmongCond (cond : σ → τ → Multiset τ → Prop) (pool : Pool σ τ) : Event τ α → Prop
  | .spawn _ => True
  | .move i _ => ∀ thread, pool.threads[i]? = some thread →
      cond pool.shared thread pool.threads

instance [∀ shared thread threads, Decidable (cond shared thread threads)] (pool : Pool σ τ)
    (event : Event τ α) : Decidable (AmongCond cond pool event) :=
  match event with
  | .spawn _ => isTrue trivial
  | .move i _ =>
    match at_i : pool.threads[i]? with
    | none => isTrue (by simp [AmongCond, at_i])
    | some thread =>
      decidable_of_iff (cond pool.shared thread pool.threads) (by simp [AmongCond, at_i])

theorem amongCond_of_forall (all : ∀ shared thread threads, cond shared thread threads)
    {pool : Pool σ τ} {event : Event τ α} : AmongCond cond pool event := by
  cases event with
  | spawn thread => trivial
  | move i choice => exact fun _ _ => all _ _ _

/-- What holds of the shared state and the threads, in whatever order, is kept by a step if
it is kept by each move that meets `cond`. -/
theorem step_bag (spawned : ∀ shared threads thread, inv shared threads → fresh thread →
      inv shared (thread ::ₘ threads))
    (moved : ∀ shared thread others choice shared' thread', inv shared (thread ::ₘ others) →
      cond shared thread (thread ::ₘ others) →
      advance shared thread choice = some (shared', thread') → inv shared' (thread' ::ₘ others))
    {pool next : Pool σ τ} {event : Event τ α} (holds : inv pool.shared pool.threads)
    (allowed : AmongCond cond pool event)
    (stepped : step fresh advance pool event = some next) : inv next.shared next.threads := by
  cases event with
  | spawn thread =>
    obtain ⟨ready, rfl⟩ := step_spawn_eq_some.mp stepped
    have more : ((pool.threads ++ [thread] : List τ) : Multiset τ) = thread ::ₘ pool.threads :=
      Multiset.coe_eq_coe.mpr (List.perm_append_singleton thread pool.threads)
    dsimp only
    rw [more]
    exact spawned _ _ _ holds ready
  | move i choice =>
    obtain ⟨thread, shared', thread', at_i, taken, rfl⟩ := step_move_eq_some.mp stepped
    obtain ⟨others, before, after⟩ := @coe_set _ _ _ _ thread' at_i
    have may := allowed thread at_i
    dsimp only
    rw [before] at holds may
    rw [after]
    exact moved _ _ _ _ _ _ holds may taken

end Bag

section Lock

variable {holds : τ → Bool} {locked locked' : Bool} {thread thread' : τ}
  {threads others : Multiset τ}

/-- One thread holds the lock if it is locked, and none if it is not. -/
def OneHolder (holds : τ → Bool) (locked : Bool) (threads : Multiset τ) : Prop :=
  threads.countP (fun thread => holds thread) = locked.toNat

/-- A step leaves the lock alone, takes it while it is free, or gives it back. -/
inductive Locking (holds : τ → Bool) (locked : Bool) (thread : τ) : Bool → τ → Prop
  | keeps {thread' : τ} (same : holds thread' = holds thread) :
    Locking holds locked thread locked thread'
  | takes {thread' : τ} (before : holds thread = false) (after : holds thread')
    (free : locked = false) : Locking holds locked thread true thread'
  | gives {thread' : τ} (before : holds thread) (after : holds thread' = false) :
    Locking holds locked thread false thread'

/-- While a thread holds the lock, the others do not. -/
theorem OneHolder.others_free (one : OneHolder holds locked (thread ::ₘ others))
    (mine : holds thread) : ∀ other ∈ others, holds other = false := by
  rw [OneHolder, Multiset.countP_cons, if_pos mine] at one
  have none : others.countP (fun thread => holds thread) = 0 := by
    have bound := Bool.toNat_le locked
    omega
  intro other member
  exact Bool.eq_false_iff.mpr (Multiset.countP_eq_zero.mp none other member)

theorem OneHolder.spawn (one : OneHolder holds locked threads) (free : holds thread = false) :
    OneHolder holds locked (thread ::ₘ threads) := by
  rw [OneHolder, Multiset.countP_cons_of_neg _ (by simp [free])]
  exact one

theorem OneHolder.move (one : OneHolder holds locked (thread ::ₘ others))
    (locking : Locking holds locked thread locked' thread') :
    OneHolder holds locked' (thread' ::ₘ others) := by
  rw [OneHolder, Multiset.countP_cons] at one ⊢
  cases locking with
  | keeps same => rw [same, one]
  | takes before after free =>
    simp only [before, after, free] at one ⊢
    exact congrArg (· + 1) one
  | gives before after =>
    have bound := Bool.toNat_le locked
    simp only [before, after] at one ⊢
    exact Nat.le_zero.mp (Nat.le_of_succ_le_succ (one.trans_le bound))

end Lock

end MCGate.Threads
