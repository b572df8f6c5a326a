import MCGate.Udp.RelayView

/-!
# The readers of closed sessions

A session's reader waits for its backend and does not see that the session is closed, so that
`close_session` aborts it through its handle. The handle is stored last: a session is in the map
before its reader runs and before the handle of the reader is there. Whoever closes it in between
finds no handle, and the reader that is spawned afterwards is left to itself. As long as no
session is closed before its handle is stored, every closed session's reader is aborted and every
running reader has its session.
-/
namespace MCGate.UdpRelay

open Config Machine Threads
open VoiceRelay (Index Packet Session Shared)

/-- Every closed session has had its reader aborted, and every running reader's session is
still in the map. -/
def Relay.ReadersMatch (s : Relay) : Prop :=
  ∀ arc session life, s.opened[arc]? = some session → s.lives[arc]? = some life →
    (session.dead → life.aborted) ∧
      (life.reader = .running → ∃ addr, s.sessions.lookup addr = some arc)

private theorem Relay.readersMatch_iff (s : Relay) :
    (∀ entry ∈ (s.opened.zip s.lives).zipIdx, (entry.1.1.dead → entry.1.2.aborted) ∧
      (entry.1.2.reader = .running → ∃ place ∈ s.sessions.entries, place.2 = entry.2)) ↔
      s.ReadersMatch := by
  have mapped (arc : Nat) : (∃ place ∈ s.sessions.entries, place.2 = arc) ↔
      ∃ addr, s.sessions.lookup addr = some arc := by
    constructor
    · rintro ⟨⟨addr, other⟩, member, rfl⟩
      exact ⟨addr, HashMap.mem_entries_iff.mp member⟩
    · rintro ⟨addr, found⟩
      exact ⟨⟨addr, arc⟩, HashMap.mem_entries_iff.mpr found, rfl⟩
  constructor
  · intro all arc session life at_arc lives
    have member : ((session, life), arc) ∈ (s.opened.zip s.lives).zipIdx :=
      List.mem_zipIdx_iff_getElem?.mpr (List.getElem?_zip_eq_some.mpr ⟨at_arc, lives⟩)
    rw [← mapped]
    exact all _ member
  · intro readers entry member
    obtain ⟨at_arc, lives⟩ := List.getElem?_zip_eq_some.mp (List.mem_zipIdx_iff_getElem?.mp member)
    rw [mapped]
    exact readers entry.2 entry.1.1 entry.1.2 at_arc lives

instance (s : Relay) : Decidable s.ReadersMatch := decidable_of_iff _ s.readersMatch_iff

/-- Of the tasks, one has yet to store the handle of this session's reader. -/
def Owed (tasks : Multiset Task) (arc : Nat) : Prop := ∃ task ∈ tasks, task.owes = some arc

/-- One is about to close this session. -/
def Closing (tasks : Multiset Task) (arc : Nat) : Prop := ∃ task ∈ tasks, task.closes = some arc

/-- A session whose handle is looked for has been given it, if it will be at all. -/
def HandleStored (_ : Relay) (task : Task) (tasks : Multiset Task) : Prop :=
  match task with
  | .released arc _ => ∀ other ∈ tasks, other.owes ≠ some arc
  | _ => True

instance (s : Relay) (task : Task) (tasks : Multiset Task) :
    Decidable (HandleStored s task tasks) := by
  unfold HandleStored
  split <;> infer_instance

section Bag

variable {task task' : Task} {others : Multiset Task} {arc : Nat}

private theorem owed_cons :
    Owed (task ::ₘ others) arc ↔ task.owes = some arc ∨ Owed others arc := by
  simp [Owed]

private theorem closing_cons :
    Closing (task ::ₘ others) arc ↔ task.closes = some arc ∨ Closing others arc := by
  simp [Closing]

end Bag

/-- What is known of a session, from whether it is in the map, whether its handle is yet to be
stored and whether it is being closed. -/
structure Facts.Kept (facts : Facts) (mapped owed closing : Prop) : Prop where
  stored : facts.readerHandle = false → facts.aborted ∨ owed
  dead : facts.dead → facts.aborted ∨ closing
  unmapped : ¬ mapped → facts.aborted ∨ closing
  aborted : facts.aborted → ¬ owed ∧ facts.reader ≠ .running

def View.Mapped (v : View) (arc : Nat) : Prop := ∃ addr, v.sessions.lookup addr = some arc

def View.Kept (v : View) (tasks : Multiset Task) : Prop :=
  ∀ (arc : Nat) (facts : Facts), v.facts[arc]? = some facts →
    facts.Kept (v.Mapped arc) (Owed tasks arc) (Closing tasks arc)

namespace View

variable {v v' : View} {t t' : Task} {others : Multiset Task}

theorem Kept.of_same (kept : v.Kept (t ::ₘ others)) (facts : v'.facts = v.facts)
    (mapped : ∀ arc, v.Mapped arc → v'.Mapped arc) (owes : t'.owes = t.owes)
    (closes : t'.closes = t.closes) : v'.Kept (t' ::ₘ others) := by
  intro arc facts' at_arc
  rw [facts] at at_arc
  have before := kept arc facts' at_arc
  simp only [owed_cons, closing_cons, owes, closes] at before ⊢
  exact ⟨before.stored, before.dead, fun gone => before.unmapped (gone ∘ mapped arc),
    before.aborted⟩

/-- A change to one session, whatever it is. -/
theorem Kept.modify (kept : v.Kept (t ::ₘ others)) {arc : Nat} {f : Facts → Facts}
    (here : ∀ facts, v.facts[arc]? = some facts →
      facts.Kept (v.Mapped arc) (t.owes = some arc ∨ Owed others arc)
        (t.closes = some arc ∨ Closing others arc) →
      (f facts).Kept (v.Mapped arc) (t'.owes = some arc ∨ Owed others arc)
        (t'.closes = some arc ∨ Closing others arc))
    (owes : ∀ other, other ≠ arc → (t'.owes = some other ↔ t.owes = some other))
    (closes : ∀ other, other ≠ arc → (t'.closes = some other ↔ t.closes = some other)) :
    (v.modify arc f).Kept (t' ::ₘ others) := by
  intro other facts' at_other
  rw [View.modify, List.getElem?_modify] at at_other
  obtain ⟨facts, at_before, rfl⟩ := Option.map_eq_some_iff.mp at_other
  have before := kept other facts at_before
  simp only [owed_cons, closing_cons] at before ⊢
  by_cases same : arc = other
  · subst same
    rw [if_pos rfl]
    exact here facts at_before before
  · have apart : other ≠ arc := fun eq => same eq.symm
    rw [if_neg same]
    simp only [← owes other apart, ← closes other apart] at before
    exact before

theorem Kept.insert (kept : v.Kept (t ::ₘ others)) {addr : SocketAddr} {facts : Facts}
    (vacant : v.sessions.lookup addr = none) (alive : facts.dead = false)
    (unaborted : facts.aborted = false) (owes : t.owes = none)
    (owes' : t'.owes = some v.facts.length)
    (closes : t.closes = none) (closes' : t'.closes = none) :
    ({ v with
      sessions := v.sessions.insert addr v.facts.length
      facts := v.facts ++ [facts] } : View).Kept (t' ::ₘ others) := by
  intro arc facts' at_arc
  have lookup (other : SocketAddr) :=
    HashMap.lookup_insert_eq v.sessions addr other v.facts.length
  rcases Nat.lt_trichotomy arc v.facts.length with old | rfl | beyond
  · rw [List.getElem?_append_left old] at at_arc
    have before := kept arc facts' at_arc
    -- the address was vacant, so that no other session lost its place in the map
    have mapped : v.Mapped arc →
        ({ v with sessions := v.sessions.insert addr v.facts.length } : View).Mapped arc := by
      rintro ⟨other, found⟩
      refine ⟨other, ?_⟩
      rw [lookup, if_neg, found]
      rintro rfl
      rw [vacant] at found
      cases found
    have apart : v.facts.length ≠ arc := Nat.ne_of_gt old
    simp only [owed_cons, closing_cons, owes, owes', closes, closes', Option.some.injEq, apart,
      reduceCtorEq, false_or] at before ⊢
    exact ⟨before.stored, before.dead, fun gone => before.unmapped (gone ∘ mapped), before.aborted⟩
  · rw [List.getElem?_concat_length] at at_arc
    cases at_arc
    constructor
    · exact fun _ => .inr (owed_cons.mpr (.inl owes'))
    · simp [alive]
    · intro unmapped
      exact absurd ⟨addr, by rw [lookup, if_pos rfl]⟩ unmapped
    · simp [unaborted]
  · rw [List.getElem?_eq_none (by simpa using Nat.succ_le_of_lt beyond)] at at_arc
    cases at_arc

theorem Kept.remove (kept : v.Kept (t ::ₘ others)) {addr : SocketAddr} {arc : Nat}
    (found : v.sessions.lookup addr = some arc) (owes : t'.owes = t.owes)
    (closes : t.closes = none) (closes' : t'.closes = some arc) :
    ({ v with sessions := v.sessions.erase addr } : View).Kept (t' ::ₘ others) := by
  intro other facts at_other
  have before := kept other facts at_other
  have mapped : v.Mapped other → other = arc ∨
      ({ v with sessions := v.sessions.erase addr } : View).Mapped other := by
    rintro ⟨place, at_place⟩
    by_cases same : place = addr
    · rw [same, found] at at_place
      exact .inl (Option.some.inj at_place).symm
    · exact .inr ⟨place, by rw [HashMap.lookup_erase_eq, if_neg same, at_place]⟩
  simp only [owed_cons, closing_cons, owes, closes, closes', Option.some.injEq, reduceCtorEq,
    false_or] at before ⊢
  refine ⟨before.stored, fun dead => (before.dead dead).imp_right .inr, ?_, before.aborted⟩
  intro gone
  by_cases same : arc = other
  · exact .inr (.inl same)
  · have unmapped : ¬ v.Mapped other := fun was =>
      (mapped was).elim (fun eq => same eq.symm) gone
    exact (before.unmapped unmapped).imp_right .inr

/-- A step keeps all this, unless it is a close before the handle is stored. -/
theorem Kept.move (kept : v.Kept (t ::ₘ others)) (exclusive : Exclusive v (t ::ₘ others))
    (stored : ∀ arc rest, t = .released arc rest → ¬ Owed (t ::ₘ others) arc)
    (moves : Moves v t v' t') : v'.Kept (t' ::ₘ others) := by
  cases moves with
  | quiet lock same => exact kept.of_same rfl (fun _ => id) same.owes same.closes
  | lock free => exact kept.of_same rfl (fun _ => id) rfl rfl
  | unlock held given same => exact kept.of_same rfl (fun _ => id) same.owes same.closes
  | acquire => exact kept.of_same rfl (fun _ => id) (by split <;> rfl) (by split <;> rfl)
  | fail => exact kept.of_same rfl (fun _ => id) rfl rfl
  | insert =>
    exact kept.insert (exclusive.vacant _ (Multiset.mem_cons_self ..) _ rfl) rfl rfl rfl rfl rfl rfl
  | spawn =>
    refine kept.modify (fun facts _ before => ?_) (fun _ _ => Iff.rfl) (fun _ _ => Iff.rfl)
    refine ⟨before.stored, before.dead, before.unmapped, fun aborted => ?_⟩
    exact absurd (.inl rfl) (before.aborted aborted).1
  | store =>
    refine kept.modify (fun facts _ before => ?_) ?_ (fun _ _ => Iff.rfl)
    · refine ⟨fun missing => Bool.noConfusion missing, before.dead, before.unmapped, ?_⟩
      exact fun aborted => absurd (.inl rfl) (before.aborted aborted).1
    · intro other apart
      simp [Task.owes, apart.symm]
  | remove found next =>
    rcases next with rfl | rfl <;> exact kept.remove found rfl rfl rfl
  | kill =>
    refine kept.modify (fun facts _ before => ?_) (fun _ _ => Iff.rfl) (fun _ _ => Iff.rfl)
    exact ⟨before.stored, fun _ => .inr (.inl rfl), before.unmapped, before.aborted⟩
  | release at_arc => exact kept.of_same rfl (fun _ => id) rfl rfl
  | @take arc rest =>
    have unowed : ¬ ((none : Option Nat) = some arc ∨ Owed others arc) := fun owed =>
      stored arc rest rfl (owed_cons.mpr owed)
    refine kept.modify (fun facts _ before => ?_) (fun _ _ => Iff.rfl) ?_
    · -- the handle is there, or the session was aborted before
      have taken : facts.taken.aborted ∧ facts.taken.reader ≠ .running := by
        unfold Facts.taken
        split
        · refine ⟨rfl, ?_⟩
          dsimp only
          split
          · simp
          · assumption
        next missing =>
          have aborted := (before.stored (Bool.eq_false_iff.mpr missing)).resolve_right unowed
          exact ⟨aborted, (before.aborted aborted).2⟩
      exact ⟨fun _ => .inl taken.1, fun _ => .inl taken.1, fun _ => .inl taken.1,
        fun _ => ⟨unowed, taken.2⟩⟩
    · intro other apart
      simp [Task.closes, apart.symm]
  | readerEnds reader =>
    rcases reader with ⟨content, rfl⟩ | rfl
    all_goals
      refine kept.modify (fun facts _ before => ?_) (fun _ _ => Iff.rfl) (fun _ _ => Iff.rfl)
      exact ⟨before.stored, before.dead, before.unmapped, fun aborted =>
        ⟨(before.aborted aborted).1, by simp⟩⟩

end View

/-! ### Whole runs -/

/-- What a relay keeps, with its tasks. -/
structure ReadersInv (s : Relay) (tasks : Multiset Task) : Prop where
  parallel : s.Parallel
  exclusive : Exclusive s.view tasks
  kept : s.view.Kept tasks

namespace ReadersInv

variable {s : Relay} {tasks : Multiset Task}

theorem new (kind : Kind) : ReadersInv (.new kind) 0 := by
  cases kind <;> exact ⟨rfl, ⟨rfl, by simp⟩, by simp [View.Kept, Relay.view, Relay.new, Shared.new]⟩

theorem spawn {task : Task} (inv : ReadersInv s tasks) (ready : task.fresh) :
    ReadersInv s (task ::ₘ tasks) := by
  have rest : task.atRest := by simp [Task.atRest, ready]
  obtain ⟨owes, closes, -⟩ := Task.holds_nothing_of_atRest rest
  refine ⟨inv.parallel, inv.exclusive.spawn ready, fun arc facts at_arc => ?_⟩
  simpa [owed_cons, closing_cons, owes, closes] using inv.kept arc facts at_arc

theorem move {throttle : UdpThrottleConfig} {s' : Relay} {task task' : Task} {choice : Choice}
    {others : Multiset Task} (inv : ReadersInv s (task ::ₘ others))
    (stored : HandleStored s task (task ::ₘ others))
    (moved : Task.advance throttle s task choice = some (s', task')) :
    ReadersInv s' (task' ::ₘ others) := by
  refine ⟨Task.parallel_of_advance inv.parallel moved, inv.exclusive.move inv.parallel moved,
    inv.kept.move inv.exclusive ?_ (Task.moves_of_advance inv.parallel moved)⟩
  rintro arc rest rfl ⟨other, member, owes⟩
  exact stored other member owes

/-- Between operations, what is kept is that the readers match. -/
theorem readersMatch (inv : ReadersInv s tasks) (rest : ∀ task ∈ tasks, task.atRest) :
    s.ReadersMatch := by
  intro arc session life at_arc lives
  have facts : s.view.facts[arc]? = some (Relay.factsOf session life) := by
    rw [Relay.getElem?_facts, at_arc, lives]
    rfl
  have kept := inv.kept arc _ facts
  have unclosed : ¬ Closing tasks arc := by
    rintro ⟨task, member, closes⟩
    rw [(Task.holds_nothing_of_atRest (rest task member)).2.1] at closes
    cases closes
  constructor
  · intro dead
    exact (kept.dead dead).resolve_right unclosed
  · intro running
    by_contra unmapped
    have aborted := (kept.unmapped unmapped).resolve_right unclosed
    exact (kept.aborted aborted).2 running

end ReadersInv

/-- For every interleaving of datagrams, evictions, disconnects, readers and changes of the
limits, in any relays. -/
theorem readers_match_if_handles_stored (throttle : UdpThrottleConfig) (kinds : List Kind)
    (events : List PathEvent)
    (stored : Guarded Paths.step (Paths.RelayCond (AmongCond HandleStored))
      (Paths.start throttle kinds) events) :
    Always Paths.step (fun s => ∀ pool ∈ s.relays, AtRest pool → pool.shared.ReadersMatch)
      (Paths.start throttle kinds) events := by
  have keep : ∀ throttle (pool : Pool Relay Task) event next,
      ReadersInv pool.shared pool.threads → AmongCond HandleStored pool event →
      Threads.step Task.fresh (Task.advance throttle) pool event = some next →
      ReadersInv next.shared next.threads := by
    intro throttle pool event next inv allowed stepped
    refine step_bag ?_ ?_ inv allowed stepped
    · exact fun _ _ _ inv ready => inv.spawn ready
    · exact fun _ _ _ _ _ _ inv stored moved => inv.move stored moved
  have along := @Paths.always_relays throttle kinds
    (fun pool => ReadersInv pool.shared pool.threads) _ ReadersInv.new keep events stored
  exact along.imp fun s inv pool member rest => (inv pool member).readersMatch rest

/-- A player's first voice datagram, and the environment when it is handled. -/
def firstVoice : Packet :=
  ⟨VoiceRelay.Flows.player, VoiceRelay.Flows.player, literal "voice"⟩

def admitting : Choice := ⟨0, true, VoiceRelay.Flows.admitted.route⟩

/-- The player is disconnected after the session's handle is stored. -/
def lateDisconnect : List PathEvent :=
  .relay 0 (.spawn (.arrived firstVoice)) :: PathEvent.moves 0 0 15 admitting ++
    .relay 0 (.spawn (.disconnect firstVoice.clientIp)) :: PathEvent.moves 0 1 7 admitting

theorem readers_match_lateDisconnect :
    Always Paths.step (fun s => ∀ pool ∈ s.relays, AtRest pool → pool.shared.ReadersMatch)
      (Paths.start {} [.voice false]) lateDisconnect :=
  readers_match_if_handles_stored {} [.voice false] lateDisconnect (by decide)

/-- The player is disconnected when the session is in the map and its reader is not spawned. -/
def earlyDisconnect : List PathEvent :=
  .relay 0 (.spawn (.arrived firstVoice)) :: PathEvent.moves 0 0 12 admitting ++
    .relay 0 (.spawn (.disconnect firstVoice.clientIp)) :: PathEvent.moves 0 1 7 admitting ++
      PathEvent.moves 0 0 3 admitting

/-- The session is closed, its reader runs and nothing will ever abort it. -/
theorem reader_outlives_early_disconnect :
    ¬ Always Paths.step (fun s => ∀ pool ∈ s.relays, AtRest pool → pool.shared.ReadersMatch)
      (Paths.start {} [.voice false]) earlyDisconnect := by
  decide

end MCGate.UdpRelay
