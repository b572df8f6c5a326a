import MCGate.Net.Relay

/-!
# Packets written into a relayed stream

The relay forwards whatever chunk a read returns, so it may be in the middle of a
packet when a kick or a transfer wins the `select!`. The packet it then writes starts
at a frame boundary exactly if the bytes read from the backend so far are as many as
the first frames of its stream are long.
-/
namespace MCGate.Relay

open Reader

variable {zlib : Zlib} {toLowercase : Text → Text} {frames : List Bytes}

/-- If a packet was injected, the bytes written to the client before it are a whole
number of frames. -/
def InjectsAtBoundary (r : Relay) : Prop :=
  r.injected.isSome → WholeFrames r.splice.toClient.delivered

/-- When an action with a packet wins, the bytes still to be read from the backend are
all of its frames but the first few. -/
def AtBoundary (zlib : Zlib) (toLowercase : Text → Text) (frames : List Bytes) (r : Relay) :
    RelayEvent → Prop
  | .poll first client backend =>
    ∀ session packet, r.session = some session → r.ActionWins first client backend →
      actionPacket zlib toLowercase session r.pendingAction = some packet →
      ∃ k ≤ frames.length, r.splice.backend.remainder.length =
        frames.flatten.length - (frames.take k).flatten.length
  | _ => True

/-- Of a stream of frames, a front is a whole number of frames if it is as long as some
of the first ones. -/
theorem wholeFrames_iff (isFrame : ∀ f ∈ frames, IsFrame f) {sent rest : Bytes}
    (split : sent ++ rest = frames.flatten) :
    WholeFrames sent ↔ ∃ k ≤ frames.length,
      rest.length = frames.flatten.length - (frames.take k).flatten.length := by
  have pieces : ∀ k, (frames.take k).flatten ++ (frames.drop k).flatten = frames.flatten := by
    intro k
    rw [← List.flatten_append, List.take_append_drop]
  constructor
  · rintro ⟨fs, whole, rfl⟩
    obtain ⟨k, inside, -, left⟩ := flatten_prefix prefixFree_isFrame whole isFrame
      (fun f member => (whole f member).nonempty) split
    refine ⟨k, inside, ?_⟩
    have total := congrArg List.length (pieces k)
    rw [List.length_append] at total
    rw [left]
    omega
  -- equally long fronts of one list are equal
  · rintro ⟨k, -, size⟩
    refine ⟨frames.take k, fun f member => isFrame f (List.mem_of_mem_take member), ?_⟩
    have total := congrArg List.length split
    have total' := congrArg List.length (pieces k)
    rw [List.length_append] at total total'
    rw [← pieces k] at split
    exact (List.append_inj split (by omega)).1

/-- What holds of every relay that started with a fresh writer. -/
structure Relaying (frames : List Bytes) (r : Relay) : Prop where
  down : r.splice.toClient.handed ++ r.splice.backend.remainder = frames.flatten
  flushed : (∃ n, r.phase = .selecting n) ∨ r.phase = .uploading → r.splice.toClient.pending = []
  final : r.Final

private theorem relaying_step {r r' : Relay} {e : RelayEvent} (relaying : r.Relaying frames)
    (stepped : r.step zlib toLowercase e = some r') : r'.Relaying frames := by
  have faithful : r.splice.Faithful (r.splice.toBackend.handed ++ r.splice.client.remainder)
      frames.flatten := ⟨rfl, relaying.down⟩
  refine ⟨((step_moves stepped).faithful faithful).down, ?_, final_step relaying.final stepped⟩
  -- only a download makes bytes pending, and it is left once they are written
  intro phase
  have before := relaying.flushed
  cases step_effect stepped with
  | wait _ created =>
    refine before (Or.inl ?_)
    rcases created with same | ⟨fresh, -⟩
    · exact ⟨_, same⟩
    · exact ⟨_, fresh⟩
  | upload selecting => exact before (Or.inl selecting)
  | download => simp at phase
  | clientEnds => simp at phase
  | backendEnds => simp at phase
  | act => simp [acted] at phase
  | uploaded writing => exact before (Or.inr writing)
  | downloaded _ goesOn =>
    rcases goesOn with same | ⟨-, done⟩
    · simp [same] at phase
    · exact done
  | uploadFails => simp at phase
  | downloadFails => simp at phase
  | store => exact before phase
  | wake waiting =>
    obtain ⟨n, waiting⟩ := waiting
    exact before (Or.inl ⟨_, waiting⟩)
  | missed => exact before phase

/-- A step in which no action wins injects nothing. -/
theorem step_notActing {r r' : Relay} {e : RelayEvent}
    (stepped : r.step zlib toLowercase e = some r')
    (loses : ∀ first client backend, e = .poll first client backend →
      ¬ r.ActionWins first client backend) : r'.injected = r.injected := by
  cases step_effect stepped with
  | act wins => exact absurd wins (loses _ _ _ rfl)
  | _ => rfl

private theorem injectsAtBoundary_step (isFrame : ∀ f ∈ frames, IsFrame f) {r r' : Relay}
    {e : RelayEvent} (relaying : r.Relaying frames) (good : r.InjectsAtBoundary)
    (stepped : r.step zlib toLowercase e = some r') :
    r'.InjectsAtBoundary ↔ r.AtBoundary zlib toLowercase frames e := by
  by_cases wins : ∃ first client backend, e = .poll first client backend ∧
      r.ActionWins first client backend
  · obtain ⟨first, client, backend, rfl, wins⟩ := wins
    obtain ⟨session, owned, acts⟩ := @poll_acts zlib toLowercase _ _ _ _ wins
    rw [acts] at stepped
    cases stepped
    -- in the `select!` no write is under way: what was handed over has been written
    have flushed := relaying.flushed (Or.inl ⟨_, wins.1.2⟩)
    have written : r.splice.toClient.delivered = r.splice.toClient.handed := by
      rw [Writer.handed, flushed, List.append_nil]
    have boundary := wholeFrames_iff isFrame relaying.down
    rw [← written] at boundary
    constructor
    · intro whole session' packet owned' wins' built
      rw [owned] at owned'
      cases owned'
      exact boundary.mp (whole (by simp [acted, built]))
    · intro atBoundary injected
      obtain ⟨packet, built⟩ := Option.isSome_iff_exists.mp injected
      exact boundary.mpr (atBoundary session packet owned wins built)
  · have same := step_notActing stepped
      fun first client backend event win => wins ⟨first, client, backend, event, win⟩
    constructor
    · intro _
      cases e with
      | poll first client backend =>
        intro session packet _ win
        exact absurd ⟨first, client, backend, rfl, win⟩ wins
      | _ => trivial
    · intro _ injected
      rw [same] at injected
      -- injected before: the relay has ended, and nothing is written any more
      obtain ⟨action, rfl⟩ := step_ended (relaying.final (Or.inr injected)) stepped
      exact good injected

/-- Along a run over a backend stream made of frames, injected packets start at frame
boundaries exactly if every step that injects one finds the backend's stream cut there. -/
theorem injectsAtBoundary_iff (zlib : Zlib) (toLowercase : Text → Text) {frames : List Bytes}
    (isFrame : ∀ f ∈ frames, IsFrame f) {client backend : BufferedStream} {toBackend : Writer}
    {session : Option PlayerSession} (stream : backend.remainder = frames.flatten)
    {events : List RelayEvent} {r : Relay}
    (ran : Machine.run (step zlib toLowercase) (start ⟨client, backend, .new, toBackend⟩ session)
      events = some r) :
    Machine.Always (step zlib toLowercase) InjectsAtBoundary
        (start ⟨client, backend, .new, toBackend⟩ session) events ↔
      Machine.Guarded (step zlib toLowercase) (AtBoundary zlib toLowercase frames)
        (start ⟨client, backend, .new, toBackend⟩ session) events := by
  refine Machine.always_iff_guarded (fun _ _ _ => relaying_step)
    (fun _ _ _ => injectsAtBoundary_step isFrame) ⟨?_, ?_, ?_⟩ ?_ ran
  · exact stream
  · exact fun _ => rfl
  · exact final_start _ _
  · simp [InjectsAtBoundary, start]

/-- An unencrypted session of a supported version. -/
def steveSession : PlayerSession :=
  { name := "Steve".toList, uuid := Logins.steveUuid, host := "mc.example".toList
    protocolVersion := 776, compressionThreshold := -1, encrypted := false }

/-- Two packets of the backend. -/
def twoFrames : List Bytes := [[0x02, 0x24, 0x00], [0x01, 0x25]]

def idleRelay : Relay :=
  start ⟨.new [], .new twoFrames.flatten, .new, .new⟩ (some steveSession)

/-- The backend's next chunk is relayed, and then the player is kicked. -/
def kickAfter (chunk : Nat) : List RelayEvent :=
  [.poll .client none (some (.ready chunk)), .wrote chunk, .poll .client none none,
    .store (.kickWithMessage "bye".toList), .notify (.kickWithMessage "bye".toList),
    .poll .client none none]

private theorem twoFrames_isFrame : ∀ f ∈ twoFrames, IsFrame f := by
  intro f member
  simp only [twoFrames, List.mem_cons, List.not_mem_nil, or_false] at member
  rcases member with rfl | rfl
  · exact ⟨2, 1, by decide⟩
  · exact ⟨1, 1, by decide⟩

theorem kick_after_whole_frame :
    ((Machine.run (step Sniff.uncompressed id) idleRelay (kickAfter 3)).bind
        Relay.injected).isSome ∧
      Machine.Always (step Sniff.uncompressed id) InjectsAtBoundary idleRelay (kickAfter 3) := by
  refine ⟨by decide, ?_⟩
  apply (injectsAtBoundary_iff Sniff.uncompressed id twoFrames_isFrame rfl rfl).mpr
  refine (Machine.guarded_cons_iff rfl).mpr ⟨fun _ _ _ wins => ?_, ?_⟩
  · exact absurd wins.1.2 (by decide)
  refine (Machine.guarded_cons_iff rfl).mpr ⟨trivial, ?_⟩
  refine (Machine.guarded_cons_iff rfl).mpr ⟨fun _ _ _ wins => ?_, ?_⟩
  · exact absurd wins.1.2 (by decide)
  refine (Machine.guarded_cons_iff rfl).mpr ⟨trivial, ?_⟩
  refine (Machine.guarded_cons_iff rfl).mpr ⟨trivial, ?_⟩
  refine (Machine.guarded_cons_iff rfl).mpr ⟨fun _ _ _ _ _ => ?_, trivial⟩
  exact ⟨1, by decide⟩

/-- A chunk that ends inside a packet is followed by the kick. -/
theorem kick_inside_frame :
    ¬ Machine.Always (step Sniff.uncompressed id) InjectsAtBoundary idleRelay (kickAfter 2) := by
  intro always
  have polled := ((Machine.always_cons_iff rfl).mp always).2
  have wrote := ((Machine.always_cons_iff rfl).mp polled).2
  have waits := ((Machine.always_cons_iff rfl).mp wrote).2
  have stored := ((Machine.always_cons_iff rfl).mp waits).2
  have notified := ((Machine.always_cons_iff rfl).mp stored).2
  have kicked := ((Machine.always_cons_iff rfl).mp notified).2
  have whole : WholeFrames [0x02, 0x24] := kicked rfl
  have split : [0x02, 0x24] ++ [0x00, 0x01, 0x25] = twoFrames.flatten := rfl
  obtain ⟨k, few, size⟩ := (wholeFrames_iff twoFrames_isFrame split).mp whole
  revert k
  decide

end MCGate.Relay
