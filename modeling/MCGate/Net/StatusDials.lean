import MCGate.Lib.Tally
import MCGate.Net.Status

/-!
# Dials in flight

A request that begins a status dial takes a slot of its backend in the runtime of its route, and
gives it back when the dial is over, whether or not it brought an answer. Requests that find all
slots taken are answered from the cache, wait for a slot, or go on with the next backend, and
hold none meanwhile. So the slots are those of the requests that are dialing, however the
requests of all routes interleave, and no backend is dialed more often at once than a route
allows.
-/
namespace MCGate

open Machine Threads Tally HashMap

/-- Where the request has begun a dial that it has not ended yet. -/
def StatusStage.dials : StatusStage → Option SocketAddr
  | .starting addr _ | .dialing addr _ _ | .ending addr _ _ _ => some addr
  | _ => none

/-- The slot a thread holds: its runtime, and the backend it dials. -/
def StatusThread.slot : StatusThread → Option (Nat × SocketAddr)
  | .request req stage => stage.dials.map (Prod.mk req.runtime)
  | _ => none

/-- No answer and no further backend is to come. -/
def StatusThread.ended : StatusThread → Bool
  | .request _ (.answered _ _ _) | .request _ .failed | .swept => true
  | _ => false

namespace StatusShared

variable {parse : Text → Option Api.Json} {s s' : StatusShared} {req : StatusRequest}
  {choice : StatusChoice} {stage stage' : StatusStage}

/-- What a step does to the slots, and to the one that the thread holds. -/
inductive SlotEffect (s : StatusShared) (held : Option (Nat × SocketAddr)) :
    StatusShared → Option (Nat × SocketAddr) → Prop
  | quiet (s' : StatusShared) (same : ∀ arc,
      (s'.runtimes arc).statusDialsInFlight = (s.runtimes arc).statusDialsInFlight) :
    SlotEffect s held s' held
  | ask (req : StatusRequest) (addr : SocketAddr) (free : held = none) :
    SlotEffect s held (s.tryBegin req addr).1
      ((if (s.tryBegin req addr).2 then some addr else none).map (Prod.mk req.runtime))
  | giveBack (arc : Nat) (addr : SocketAddr) (mine : held = some (arc, addr)) :
    SlotEffect s held (s.setRuntime arc ((s.runtimes arc).endStatusDial addr)) none

/-- Everything but the runtimes may change. -/
theorem SlotEffect.other {held : Option (Nat × SocketAddr)} (same : s'.runtimes = s.runtimes) :
    SlotEffect s held s' held := .quiet s' fun arc => by rw [same]

/-- A request that holds no slot asks for one. -/
theorem SlotEffect.asked {addr : SocketAddr} {one two : StatusStage} (yes : one.dials = some addr)
    (no : two.dials = none) :
    SlotEffect s none (s.tryBegin req addr).1
      (StatusThread.request req (if (s.tryBegin req addr).2 then one else two)).slot := by
  have ask : SlotEffect s none _ _ := .ask req addr rfl
  have slot (p : Prop) [Decidable p] : (StatusThread.request req (if p then one else two)).slot =
      (if p then some addr else none).map (Prod.mk req.runtime) := by
    rw [StatusThread.slot, apply_ite StatusStage.dials, yes, no]
  rw [slot]
  exact ask

private theorem request_slotEffect
    (stepped : requestStep parse s req choice stage = some (s', stage')) :
    SlotEffect s (StatusThread.request req stage).slot s'
      (StatusThread.request req stage').slot := by
  cases stage with
  | trying backends =>
    cases backends with
    | nil =>
      cases stepped
      exact .other rfl
    | cons addr rest =>
      simp only [requestStep] at stepped
      split at stepped <;> cases stepped <;> exact .other rfl
  | checkingDown addr rest =>
    simp only [requestStep, Option.some.injEq, Prod.mk.injEq] at stepped
    obtain ⟨rfl, rfl⟩ := stepped
    split <;> exact .other rfl
  | beginning addr rest =>
    simp only [requestStep, Option.some.injEq, Prod.mk.injEq] at stepped
    obtain ⟨rfl, rfl⟩ := stepped
    exact .asked rfl rfl
  | overCap addr rest inFlight =>
    simp only [requestStep] at stepped
    split at stepped <;> cases stepped <;> exact .other rfl
  | polling addr rest deadline =>
    cases stepped
    split <;> exact .other rfl
  | slept addr rest deadline =>
    simp only [requestStep] at stepped
    split at stepped <;> cases stepped <;> exact .other rfl
  | retrying addr rest deadline =>
    simp only [requestStep, Option.some.injEq, Prod.mk.injEq] at stepped
    obtain ⟨rfl, rfl⟩ := stepped
    exact .asked rfl rfl
  | ending addr rest start result =>
    -- the slot is given back before the result is looked at
    cases result <;> cases stepped <;> exact .giveBack req.runtime addr rfl
  | recording addr start json =>
    cases stepped
    refine .quiet _ fun arc => ?_
    simp only [setRuntime, Function.update_apply]
    split
    next same => rw [same]; rfl
    next => rfl
  | waiting | starting | dialing | clearing | storing | clearingLast | storingLast | markingDown =>
    cases stepped
    exact .other rfl
  | answered addr json source => cases stepped
  | failed => cases stepped

private theorem advance_slotEffect {thread thread' : StatusThread}
    (moved : advance parse s thread choice = some (s', thread')) :
    SlotEffect s thread.slot s' thread'.slot := by
  cases thread with
  | request req stage =>
    obtain ⟨⟨next, stage'⟩, stepped, same⟩ := Option.map_eq_some_iff.mp moved
    cases same
    exact request_slotEffect stepped
  | sweepingEntries =>
    cases moved
    exact .other rfl
  | sweepingDown =>
    cases moved
    exact .other rfl
  | swept => cases moved

/-- Apart from the slot that one thread holds, each runtime counts `n`, and not too many. -/
structure SlotsWith (s : StatusShared) (held : Option (Nat × SocketAddr))
    (n : Nat × SocketAddr → Nat) : Prop where
  tallies : ∀ arc, Tallies (s.runtimes arc).statusDialsInFlight fun addr =>
    n (arc, addr) + share held (arc, addr)
  capped : ∀ arc addr,
    (s.runtimes arc).statusDialsInFlight.countOf addr ≤ RouteRuntime.maxConcurrentStatusDials

private theorem share_pair (arc other : Nat) (held : Option SocketAddr) (key : SocketAddr) :
    share (held.map (Prod.mk arc)) (other, key) = if other = arc then share held key else 0 := by
  cases held with
  | none => simp
  | some addr =>
    simp only [Option.map_some, share_some, Prod.mk.injEq]
    by_cases same : other = arc <;> simp [same]

theorem SlotsWith.effect {held held' : Option (Nat × SocketAddr)} {n : Nat × SocketAddr → Nat}
    (slots : SlotsWith s held n) (effect : SlotEffect s held s' held') : SlotsWith s' held' n := by
  cases effect with
  | quiet s' same =>
    refine ⟨fun arc => ?_, fun arc addr => ?_⟩
    · rw [same]
      exact slots.tallies arc
    · rw [same]
      exact slots.capped arc addr
  -- `try_begin_status_dial`: only the entry of this backend may change, and never beyond the cap
  | ask req addr free =>
    subst free
    have before := slots.tallies req.runtime
    have asked := before.tryCountUp addr RouteRuntime.maxConcurrentStatusDials
    refine ⟨fun arc => ?_, fun arc key => ?_⟩
    · simp only [tryBegin, setRuntime, Function.update_apply]
      split
      next same =>
        subst same
        refine asked.congr fun key => ?_
        rw [share_pair, if_pos rfl]
        rfl
      next apart =>
        refine (slots.tallies arc).congr fun key => ?_
        rw [share_pair, if_neg apart, share_none]
    · simp only [tryBegin, setRuntime, Function.update_apply]
      split
      next same =>
        subst same
        exact countOf_tryCountUp_le before.positive (slots.capped _) key
      next => exact slots.capped arc key
  | giveBack arc addr mine =>
    subst mine
    have held (other : Nat) (key : SocketAddr) := share_pair arc other (some addr) key
    -- the thread's own dial is one of those that are counted there
    have before : Tallies (s.runtimes arc).statusDialsInFlight fun key =>
        n (arc, key) + share (some addr) key := (slots.tallies arc).congr fun key => by
      rw [← Option.map_some, held, if_pos rfl]
    refine ⟨fun other => ?_, fun other key => ?_⟩
    · simp only [setRuntime, Function.update_apply]
      split
      next same =>
        subst same
        exact before.countDown
      next apart =>
        refine (slots.tallies other).congr fun key => ?_
        rw [← Option.map_some, held, if_neg apart, share_none]
    · simp only [setRuntime, Function.update_apply]
      split
      next same =>
        subst same
        exact countOf_countDown_le before.positive (slots.capped _) key
      next => exact slots.capped other key

/-- The runtimes count the threads that dial. -/
def DialsCounted (s : StatusShared) (threads : Multiset StatusThread) : Prop :=
  SlotsWith s none (tally StatusThread.slot threads)

private theorem slotsWith_cons {thread : StatusThread} {others : Multiset StatusThread} :
    DialsCounted s (thread ::ₘ others) ↔
      SlotsWith s thread.slot (tally StatusThread.slot others) := by
  have same (key : Nat × SocketAddr) :
      tally StatusThread.slot (thread ::ₘ others) key + share none key =
        tally StatusThread.slot others key + share thread.slot key := by
    rw [tally_cons, share_none, Nat.add_zero]
  constructor
  · exact fun slots => ⟨fun arc => (slots.tallies arc).congr fun _ => (same _).symm, slots.capped⟩
  · exact fun slots => ⟨fun arc => (slots.tallies arc).congr fun _ => same _, slots.capped⟩

private theorem dialsCounted_step {pool next : Pool StatusShared StatusThread}
    {event : Event StatusThread StatusChoice} (counted : DialsCounted pool.shared pool.threads)
    (stepped : Threads.step fresh (advance parse) pool event = some next) :
    DialsCounted next.shared next.threads := by
  refine @step_bag _ _ _ fresh (advance parse) DialsCounted (fun _ _ _ => True) ?_ ?_ _ _ _
    counted (amongCond_of_forall fun _ _ _ => trivial) stepped
  · intro s threads thread before ready
    have idle : thread.slot = none := by
      cases thread with
      | request req stage => cases stage <;> first | rfl | cases ready
      | _ => rfl
    exact slotsWith_cons.mpr (idle ▸ before)
  · intro s thread others choice s' thread' before _ moved
    exact slotsWith_cons.mpr ((slotsWith_cons.mp before).effect (advance_slotEffect moved))

private theorem dialsCounted_start : DialsCounted start 0 where
  tallies _ := .empty
  capped _ _ := (by decide : (0 : Int) ≤ RouteRuntime.maxConcurrentStatusDials)

/-- What the runtimes say about the requests. -/
structure DialsBounded (pool : Pool StatusShared StatusThread) : Prop where
  /-- the slots of a backend are those of the requests of the route that dial it -/
  exact : ∀ arc addr, (pool.shared.runtimes arc).statusDialsInFlight.countOf addr =
    (pool.threads : Multiset StatusThread).countP fun thread => thread.slot = some (arc, addr)
  capped : ∀ arc addr, ((pool.threads : Multiset StatusThread).countP fun thread =>
    thread.slot = some (arc, addr) : Int) ≤ RouteRuntime.maxConcurrentStatusDials
  /-- no slot outlives its request -/
  idle : (∀ thread ∈ pool.threads, thread.ended) →
    ∀ arc, (pool.shared.runtimes arc).statusDialsInFlight.entries = []

private theorem slot_of_ended {thread : StatusThread} (ended : thread.ended) :
    thread.slot = none := by
  cases thread with
  | request req stage => cases stage <;> first | rfl | cases ended
  | _ => rfl

variable (parse)

/-- However the requests of all routes and the sweeps interleave, a route has no more than
`maxConcurrentStatusDials` dials to one backend in flight, its count of them is right, and
when all requests have ended nothing is counted. -/
theorem dials_bounded_always (events : List (Event StatusThread StatusChoice)) :
    Always (Threads.step fresh (advance parse)) DialsBounded ⟨start, []⟩ events := by
  have counted : Always (Threads.step fresh (advance parse))
      (fun pool => DialsCounted pool.shared pool.threads) ⟨start, []⟩ events :=
    always_of_keep (fun _ _ _ before stepped => dialsCounted_step before stepped) events
      dialsCounted_start
  refine counted.imp fun pool slots => ?_
  have exact (arc : Nat) (addr : SocketAddr) :
      (pool.shared.runtimes arc).statusDialsInFlight.countOf addr =
        (pool.threads : Multiset StatusThread).countP fun thread =>
          thread.slot = some (arc, addr) :=
    (slots.tallies arc).counts addr
  refine ⟨exact, fun arc addr => ?_, fun ended arc => ?_⟩
  · rw [← exact]
    exact slots.capped arc addr
  · refine ((slots.tallies arc).congr fun addr => ?_).eq_nil
    rw [share_none, Nat.add_zero]
    exact (tally_eq_zero fun thread member => slot_of_ended (ended thread member)).symm

end StatusShared

end MCGate
