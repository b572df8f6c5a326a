import MCGate.Lib.Threads

/-!
# Turns

A thread of a pool that gets a turn makes a step, if it can. Where each step of a thread brings
it nearer to a goal, measured by a rank that only its own steps change, it reaches the goal
after as many turns as its rank at the start, however many steps the other threads make in
between (`run_turns`).
-/
namespace MCGate.Threads

open Machine

variable {σ τ α : Type}

/-- The number of moves of the thread at position `i`. -/
def turns (i : Nat) (events : List (Event τ α)) : Nat :=
  events.countP fun
    | .spawn _ => false
    | .move j _ => j = i

variable {fresh : τ → Bool} {advance : σ → τ → α → Option (σ × τ)} {i : Nat}
  {pool next : Pool σ τ} {event : Event τ α} {thread : τ}

theorem turns_cons (event : Event τ α) (events : List (Event τ α)) :
    turns i (event :: events) = turns i [event] + turns i events := by
  unfold turns
  rw [← List.countP_append, List.singleton_append]

theorem turns_move (choice : α) : turns i ([.move i choice] : List (Event τ α)) = 1 := by
  simp [turns]

/-- Where another thread starts or moves, the thread stays. -/
theorem step_turns (at_i : pool.threads[i]? = some thread)
    (stepped : step fresh advance pool event = some next) :
    (turns i [event] = 0 ∧ next.threads[i]? = some thread) ∨
      (turns i [event] = 1 ∧ ∃ choice thread', event = .move i choice ∧
        advance pool.shared thread choice = some (next.shared, thread') ∧
        next.threads[i]? = some thread') := by
  cases event with
  | spawn other =>
    obtain ⟨-, rfl⟩ := step_spawn_eq_some.mp stepped
    refine .inl ⟨rfl, ?_⟩
    exact List.getElem?_append_left (List.getElem?_eq_some_iff.mp at_i).1 ▸ at_i
  | move j choice =>
    obtain ⟨other, shared, other', at_j, moved, rfl⟩ := step_move_eq_some.mp stepped
    by_cases same : j = i
    · subst same
      cases at_i.symm.trans at_j
      refine .inr ⟨turns_move choice, choice, other', rfl, moved, ?_⟩
      exact List.getElem?_set_self (List.getElem?_eq_some_iff.mp at_j).1
    · refine .inl ⟨by simp [turns, same], ?_⟩
      rw [List.getElem?_set_ne same]
      exact at_i

/-- Where the thread's own steps keep `p`, it holds of the thread at the end of a run. -/
theorem run_own {p : τ → Prop}
    (own : ∀ shared thread choice shared' thread', p thread →
      advance shared thread choice = some (shared', thread') → p thread')
    {events : List (Event τ α)} (at_i : pool.threads[i]? = some thread) (holds : p thread)
    (ran : run (step fresh advance) pool events = some next) :
    ∃ thread', next.threads[i]? = some thread' ∧ p thread' := by
  induction events generalizing pool thread with
  | nil =>
    cases ran
    exact ⟨thread, at_i, holds⟩
  | cons event events ih =>
    obtain ⟨mid, stepped, rest⟩ := run_cons_eq_some.mp ran
    rcases step_turns at_i stepped with ⟨-, stays⟩ | ⟨-, choice, thread', -, moved, goes⟩
    · exact ih stays holds rest
    · exact ih goes (own _ _ _ _ _ holds moved) rest

/-- A thread that is not `done` comes nearer with each turn: after as many turns as its rank it
is, and it stays so. -/
theorem run_turns {rank : τ → Nat} {done : τ → Prop}
    (nearer : ∀ shared thread choice shared' thread', ¬ done thread →
      advance shared thread choice = some (shared', thread') →
      done thread' ∨ rank thread' < rank thread)
    (stays : ∀ shared thread choice shared' thread', done thread →
      advance shared thread choice = some (shared', thread') → done thread')
    {events : List (Event τ α)} (at_i : pool.threads[i]? = some thread)
    (ran : run (step fresh advance) pool events = some next) :
    ∃ thread', next.threads[i]? = some thread' ∧
      (done thread' ∨ turns i events + rank thread' ≤ rank thread) := by
  induction events generalizing pool thread with
  | nil =>
    cases ran
    exact ⟨thread, at_i, .inr (by simp [turns])⟩
  | cons event events ih =>
    obtain ⟨mid, stepped, rest⟩ := run_cons_eq_some.mp ran
    rw [turns_cons]
    rcases step_turns at_i stepped with ⟨none_own, kept⟩ | ⟨one, choice, thread', -, moved, goes⟩
    · obtain ⟨last, at_last, reached⟩ := ih kept rest
      exact ⟨last, at_last, reached.imp_right (by omega)⟩
    · by_cases already : done thread
      · obtain ⟨last, at_last, reached⟩ :=
          run_own stays goes (stays _ _ _ _ _ already moved) rest
        exact ⟨last, at_last, .inl reached⟩
      · rcases nearer _ _ _ _ _ already moved with there | less
        · obtain ⟨last, at_last, reached⟩ := run_own stays goes there rest
          exact ⟨last, at_last, .inl reached⟩
        · obtain ⟨last, at_last, reached⟩ := ih goes rest
          exact ⟨last, at_last, reached.imp_right (by omega)⟩

end MCGate.Threads
