import Mathlib.Data.List.AList
import Mathlib.Data.List.Dedup
import MCGate.Lib.Machine
import MCGate.Protocol.MinecraftProtocol

/-!
# The registry of connected players

`PlayerSessions` maps a UUID to the session of the player who is connected under it.
A login puts its session before the relay starts and removes the UUID after the relay
has ended, so connections that share a UUID meet in one entry. A player is looked up by name,
and then any entry with that name will do. `KeepsEntries` is exactly what a step must meet to
keep the entry of every live UUID on its newest session, and its name with nobody else.
-/
namespace MCGate

/-- What a `disconnect` wake-up should do. -/
inductive SessionAction where
  | disconnect
  | kickWithMessage (message : Text)
  | transfer (host : Text) (port : UInt16)
  deriving DecidableEq, Repr

structure PlayerSession where
  name : Text
  uuid : Uuid
  host : Text
  protocolVersion : Int32
  compressionThreshold : Int32
  encrypted : Bool
  deriving DecidableEq, Repr

/-- `Arc<PlayerSession>`: two logins of one player are two allocations. -/
structure SessionArc where
  ptr : Nat
  session : PlayerSession
  deriving DecidableEq, Repr

structure PlayerSessions where
  sessions : AList fun _ : Uuid => SessionArc

namespace PlayerSessions

def empty : PlayerSessions := ⟨∅⟩

def put (p : PlayerSessions) (s : SessionArc) : PlayerSessions :=
  ⟨p.sessions.insert s.session.uuid s⟩

def remove (p : PlayerSessions) (uuid : Uuid) : PlayerSessions := ⟨p.sessions.erase uuid⟩

/-- `values()`, in the order of the model. A hash map's own order is any permutation
of it, so what is proved about an iteration is proved for all of them. -/
def values (p : PlayerSessions) : List SessionArc := p.sessions.entries.map Sigma.snd

/-- `find_by_name`, when the map iterates in the given order. -/
def findByName (order : List SessionArc) (name : Text) : Option SessionArc :=
  order.find? fun s => eqIgnoreAsciiCase s.session.name name

def len (p : PlayerSessions) : Nat := p.sessions.entries.length

def get (p : PlayerSessions) (uuid : Uuid) : Option SessionArc := p.sessions.lookup uuid

/-- Every session stands under its own UUID. -/
def Keyed (p : PlayerSessions) : Prop := ∀ e ∈ p.sessions.entries, e.2.session.uuid = e.1

@[simp] theorem get_put_self (p : PlayerSessions) (s : SessionArc) :
    (p.put s).get s.session.uuid = some s :=
  AList.lookup_insert _

theorem get_put_ne (p : PlayerSessions) {s : SessionArc} {uuid : Uuid}
    (other : uuid ≠ s.session.uuid) : (p.put s).get uuid = p.get uuid :=
  AList.lookup_insert_ne other

@[simp] theorem get_remove_self (p : PlayerSessions) (uuid : Uuid) :
    (p.remove uuid).get uuid = none :=
  AList.lookup_erase _ _

private theorem get_remove_ne (p : PlayerSessions) {uuid other : Uuid} (ne : other ≠ uuid) :
    (p.remove uuid).get other = p.get other :=
  AList.lookup_erase_ne ne

theorem Keyed.put {p : PlayerSessions} (keyed : p.Keyed) (s : SessionArc) : (p.put s).Keyed := by
  intro e member
  rcases List.mem_cons.mp member with rfl | old
  · rfl
  · exact keyed e ((List.kerase_sublist _ _).subset old)

theorem Keyed.remove {p : PlayerSessions} (keyed : p.Keyed) (uuid : Uuid) :
    (p.remove uuid).Keyed :=
  fun e member => keyed e ((List.kerase_sublist _ _).subset member)

private theorem filter_eq_lookupAll {entries : List (Σ _ : Uuid, SessionArc)}
    (keyed : ∀ e ∈ entries, e.2.session.uuid = e.1) (uuid : Uuid) :
    (entries.map Sigma.snd).filter (fun t => t.session.uuid = uuid) =
      entries.lookupAll uuid := by
  induction entries with
  | nil => rfl
  | cons e entries ih =>
    have rest := ih fun e member => keyed e (List.mem_cons_of_mem _ member)
    have key := keyed e List.mem_cons_self
    by_cases here : uuid = e.1
    · subst here
      rw [List.map_cons, List.filter_cons_of_pos (by simpa using key), rest,
        List.lookupAll_cons_eq]
    · rw [List.map_cons, List.filter_cons_of_neg (by simp [key, Ne.symm here]), rest,
        List.lookupAll_cons_ne _ _ here]

/-- In a keyed registry the entries of a UUID are the one that `get` returns. -/
theorem values_filter {p : PlayerSessions} (keyed : p.Keyed) (uuid : Uuid) (s : SessionArc) :
    p.values.filter (fun t => t.session.uuid = uuid) = [s] ↔ p.get uuid = some s := by
  rw [values, filter_eq_lookupAll keyed, List.lookupAll_eq_dlookup _ p.sessions.nodupKeys, get,
    AList.lookup]
  cases p.sessions.entries.dlookup uuid <;> simp

/-- In a keyed registry a session is listed exactly if it is the entry of its UUID. -/
theorem mem_values_iff {p : PlayerSessions} (keyed : p.Keyed) {s : SessionArc} :
    s ∈ p.values ↔ p.get s.session.uuid = some s := by
  have entry : p.get s.session.uuid = some s ↔ ⟨s.session.uuid, s⟩ ∈ p.sessions.entries :=
    AList.mem_lookup_iff
  rw [entry, values, List.mem_map]
  constructor
  · rintro ⟨e, member, rfl⟩
    rw [keyed e member]
    exact member
  · exact fun member => ⟨_, member, rfl⟩

private theorem findByName_eq_some {order : List SessionArc} {name : Text} {s : SessionArc}
    (found : findByName order name = some s) :
    s ∈ order ∧ eqIgnoreAsciiCase s.session.name name :=
  ⟨List.mem_of_find?_eq_some found, (List.find?_eq_some_iff_append.mp found).1⟩

end PlayerSessions

/-! ### Logins and logouts -/

/-- The registry, with the sessions whose relay runs (the last one put first) and those
whose relay has ended but that have not removed their UUID yet. -/
structure Logins where
  registry : PlayerSessions
  live : List SessionArc
  closing : List SessionArc

inductive LoginEvent where
  | put (s : SessionArc)
  | relayEnds (s : SessionArc)
  | remove (s : SessionArc)
  deriving DecidableEq, Repr

namespace Logins

def start : Logins := ⟨.empty, [], []⟩

def step (l : Logins) : LoginEvent → Option Logins
  | .put s =>
    -- every login allocates its own session
    if s.ptr ∈ (l.live ++ l.closing).map SessionArc.ptr then none
    else some { l with registry := l.registry.put s, live := s :: l.live }
  | .relayEnds s =>
    if s ∈ l.live then some { l with live := l.live.erase s, closing := s :: l.closing } else none
  | .remove s =>
    if s ∈ l.closing then
      -- keyed by the UUID alone: whose entry it is does not matter
      some { l with registry := l.registry.remove s.session.uuid, closing := l.closing.erase s }
    else none

/-- The session put last among those of the UUID whose relay still runs. -/
def newest (l : Logins) (uuid : Uuid) : Option SessionArc :=
  l.live.find? fun s => s.session.uuid = uuid

/-- Each UUID with a live relay has exactly one entry, its newest live session, which is the
one that is found under its name, and is counted. -/
structure Registered (l : Logins) : Prop where
  entry : ∀ uuid s, l.newest uuid = some s →
    l.registry.values.filter (fun t => t.session.uuid = uuid) = [s]
  found : ∀ uuid s, l.newest uuid = some s → ∀ order, order.Perm l.registry.values →
    PlayerSessions.findByName order s.session.name = some s
  counted : (l.live.map fun s => s.session.uuid).dedup.length ≤ l.registry.len

/-- What a step must not do: put a session whose name stands in the registry under another
UUID, end the newest relay of a UUID while an older one runs, or remove a UUID under which a
relay runs. -/
def KeepsEntries (l : Logins) : LoginEvent → Prop
  | .put s => ∀ t ∈ l.registry.values, t.session.uuid ≠ s.session.uuid →
      ¬ eqIgnoreAsciiCase t.session.name s.session.name
  | .relayEnds s =>
    ¬ (l.newest s.session.uuid = some s ∧ ∃ t ∈ l.live, t ≠ s ∧ t.session.uuid = s.session.uuid)
  | .remove s => ∀ t ∈ l.live, t.session.uuid ≠ s.session.uuid

/-- What every step keeps. -/
structure Wellformed (l : Logins) : Prop where
  keyed : l.registry.Keyed
  nodup : l.live.Nodup

private theorem wellformed_start : start.Wellformed := ⟨by simp [start, PlayerSessions.empty,
  PlayerSessions.Keyed], List.nodup_nil⟩

private theorem step_cases {l l' : Logins} {e : LoginEvent} (stepped : l.step e = some l') :
    (∃ s, e = .put s ∧ s ∉ l.live ∧
      l' = { l with registry := l.registry.put s, live := s :: l.live }) ∨
    (∃ s, e = .relayEnds s ∧ s ∈ l.live ∧
      l' = { l with live := l.live.erase s, closing := s :: l.closing }) ∨
    (∃ s, e = .remove s ∧ s ∈ l.closing ∧
      l' = { l with
        registry := l.registry.remove s.session.uuid, closing := l.closing.erase s }) := by
  cases e with
  | put s =>
    simp only [step] at stepped
    split at stepped
    · cases stepped
    next fresh =>
      refine Or.inl ⟨s, rfl, fun live => fresh ?_, (Option.some.inj stepped).symm⟩
      exact List.mem_map_of_mem (List.mem_append_left _ live)
  | relayEnds s =>
    simp only [step] at stepped
    split at stepped
    next live => exact Or.inr (Or.inl ⟨s, rfl, live, (Option.some.inj stepped).symm⟩)
    · cases stepped
  | remove s =>
    simp only [step] at stepped
    split at stepped
    next closing => exact Or.inr (Or.inr ⟨s, rfl, closing, (Option.some.inj stepped).symm⟩)
    · cases stepped

private theorem wellformed_step {l l' : Logins} {e : LoginEvent} (wellformed : l.Wellformed)
    (stepped : l.step e = some l') : l'.Wellformed := by
  obtain ⟨keyed, nodup⟩ := wellformed
  obtain ⟨s, -, fresh, rfl⟩ | ⟨s, -, -, rfl⟩ | ⟨s, -, -, rfl⟩ := step_cases stepped
  · exact ⟨keyed.put s, List.nodup_cons.mpr ⟨fresh, nodup⟩⟩
  · exact ⟨keyed, nodup.erase s⟩
  · exact ⟨keyed.remove _, nodup⟩

private theorem exists_newest {l : Logins} {uuid : Uuid}
    (live : uuid ∈ l.live.map fun s => s.session.uuid) : ∃ s, l.newest uuid = some s := by
  obtain ⟨s, member, same⟩ := List.mem_map.mp live
  rw [← Option.isSome_iff_exists, newest, List.find?_isSome]
  exact ⟨s, member, by simpa using same⟩

/-- The newest session of a live UUID is its entry. -/
def Entered (l : Logins) : Prop := ∀ uuid s, l.newest uuid = some s → l.registry.get uuid = some s

/-- No other entry has its name. -/
def NameIsOwn (l : Logins) : Prop :=
  ∀ uuid s, l.newest uuid = some s → ∀ t ∈ l.registry.values,
    eqIgnoreAsciiCase t.session.name s.session.name → t = s

private theorem Entered.mem_values {l : Logins} (entered : l.Entered) (wellformed : l.Wellformed)
    {uuid : Uuid} {s : SessionArc} (newest : l.newest uuid = some s) : s ∈ l.registry.values := by
  have same : s.session.uuid = uuid := by simpa using List.find?_some newest
  rw [PlayerSessions.mem_values_iff wellformed.keyed, same]
  exact entered uuid s newest

theorem Entered.counted {l : Logins} (entered : l.Entered) :
    (l.live.map fun s => s.session.uuid).dedup.length ≤ l.registry.len := by
  have subset : (l.live.map fun s => s.session.uuid).dedup ⊆ l.registry.sessions.keys := by
    intro uuid here
    obtain ⟨s, newest⟩ := exists_newest (List.mem_dedup.mp here)
    have found : l.registry.sessions.lookup uuid = some s := entered uuid s newest
    exact AList.mem_keys.mp (AList.lookup_isSome.mp (by rw [found]; rfl))
  calc (l.live.map fun s => s.session.uuid).dedup.length
      ≤ l.registry.sessions.keys.length :=
        (List.subperm_of_subset (List.nodup_dedup _) subset).length_le
    _ = l.registry.len := List.length_map ..

/-- Being registered is a matter of what `get` returns and of the names. -/
theorem registered_iff_entered {l : Logins} (wellformed : l.Wellformed) :
    l.Registered ↔ l.Entered ∧ l.NameIsOwn := by
  constructor
  · intro registered
    refine ⟨fun uuid s newest => ?_, fun uuid s newest t listed sameName => ?_⟩
    · exact (PlayerSessions.values_filter wellformed.keyed uuid s).mp
        (registered.entry uuid s newest)
    · -- a map may iterate over `t` first
      have found := registered.found uuid s newest _ (List.perm_cons_erase listed).symm
      have first := List.find?_cons_of_pos
        (p := fun u : SessionArc => eqIgnoreAsciiCase u.session.name s.session.name)
        (l := l.registry.values.erase t) sameName
      exact Option.some.inj (first.symm.trans found)
  · rintro ⟨entered, own⟩
    refine ⟨fun uuid s newest => ?_, fun uuid s newest order perm => ?_, entered.counted⟩
    · exact (PlayerSessions.values_filter wellformed.keyed uuid s).mpr (entered uuid s newest)
    · cases found : PlayerSessions.findByName order s.session.name with
      | none =>
        have there := perm.mem_iff.mpr (entered.mem_values wellformed newest)
        have differs := List.find?_eq_none.mp found s there
        simp [eqIgnoreAsciiCase] at differs
      | some t =>
        obtain ⟨listed, sameName⟩ := PlayerSessions.findByName_eq_some found
        rw [own uuid s newest t (perm.mem_iff.mp listed) sameName]

/-! ### Which steps keep the entries -/

/-- The end of another relay does not change which one is newest. -/
theorem find?_erase {live : List SessionArc} {p : SessionArc → Bool} {s t : SessionArc}
    (found : live.find? p = some t) (other : t ≠ s) : (live.erase s).find? p = some t := by
  induction live with
  | nil => cases found
  | cons a live ih =>
    by_cases here : a = s
    · subst here
      rw [List.erase_cons_head]
      rw [List.find?_cons] at found
      split at found
      · exact absurd (Option.some.inj found).symm other
      · exact found
    · rw [List.erase_cons_tail (by simpa using here)]
      rw [List.find?_cons] at found ⊢
      split at found
      · exact found
      · exact ih found

private theorem registered_put {l : Logins} (wellformed : l.Wellformed) (registered : l.Registered)
    {s : SessionArc} {l' : Logins}
    (after : l' = { l with registry := l.registry.put s, live := s :: l.live })
    (wellformed' : l'.Wellformed) : l'.Registered ↔ l.KeepsEntries (.put s) := by
  obtain ⟨entered, own⟩ := (registered_iff_entered wellformed).mp registered
  rw [registered_iff_entered wellformed']
  subst after
  have others (t : SessionArc) (other : t.session.uuid ≠ s.session.uuid) :
      t ∈ (l.registry.put s).values ↔ t ∈ l.registry.values := by
    rw [PlayerSessions.mem_values_iff (wellformed.keyed.put s),
      PlayerSessions.mem_values_iff wellformed.keyed, PlayerSessions.get_put_ne _ other]
  have mine (t : SessionArc) (same : t.session.uuid = s.session.uuid)
      (listed : t ∈ (l.registry.put s).values) : t = s := by
    rw [PlayerSessions.mem_values_iff (wellformed.keyed.put s), same,
      PlayerSessions.get_put_self] at listed
    exact (Option.some.inj listed).symm
  constructor
  · rintro ⟨-, own'⟩ t listed other sameName
    have isNewest : newest { l with registry := l.registry.put s, live := s :: l.live }
        s.session.uuid = some s := List.find?_cons_of_pos (decide_eq_true rfl)
    exact other (own' _ s isNewest t ((others t other).mpr listed) sameName ▸ rfl)
  · intro keeps
    refine ⟨fun uuid t isNewest => ?_, fun uuid t isNewest u listed sameName => ?_⟩
    all_goals simp only [newest, List.find?_cons] at isNewest
    all_goals by_cases here : s.session.uuid = uuid
    all_goals simp only [here, decide_true, decide_false, Option.some.injEq] at isNewest
    · subst isNewest here
      exact PlayerSessions.get_put_self _ _
    · rw [PlayerSessions.get_put_ne _ (Ne.symm here)]
      exact entered uuid t isNewest
    · -- the new session's name is in no other entry
      subst isNewest
      by_contra differs
      have other : u.session.uuid ≠ s.session.uuid := fun same => differs (mine u same listed)
      exact keeps u ((others u other).mp listed) other sameName
    · -- and an older one's name is not the new session's
      have same : t.session.uuid = uuid := by simpa using List.find?_some isNewest
      by_cases other : u.session.uuid = s.session.uuid
      · obtain rfl := mine u other listed
        have there := entered.mem_values wellformed isNewest
        refine absurd ?_ (keeps t there (same ▸ Ne.symm here))
        simpa [eqIgnoreAsciiCase, eq_comm] using sameName
      · exact own uuid t isNewest u ((others u other).mp listed) sameName

private theorem registered_relayEnds {l : Logins} (wellformed : l.Wellformed)
    (registered : l.Registered) {s : SessionArc} (live : s ∈ l.live) {l' : Logins}
    (after : l' = { l with live := l.live.erase s, closing := s :: l.closing })
    (wellformed' : l'.Wellformed) : l'.Registered ↔ l.KeepsEntries (.relayEnds s) := by
  obtain ⟨entered, own⟩ := (registered_iff_entered wellformed).mp registered
  rw [registered_iff_entered wellformed']
  subst after
  have gone : s ∉ l.live.erase s := wellformed.nodup.not_mem_erase
  constructor
  · rintro ⟨kept, -⟩ ⟨isNewest, t, tLive, other, same⟩
    -- an older session takes over, but the entry still is the one that ended
    have remains : t ∈ l.live.erase s := (List.mem_erase_of_ne other).mpr tLive
    obtain ⟨u, takesOver⟩ := exists_newest
      (l := { l with live := l.live.erase s, closing := s :: l.closing })
      (List.mem_map.mpr ⟨t, remains, same⟩)
    have entry := kept _ u takesOver
    rw [entered _ s isNewest, Option.some.injEq] at entry
    subst entry
    exact gone (List.mem_of_find?_eq_some takesOver)
  · intro keeps
    -- either the session that ended was the newest, or the newest is still the same
    have before (uuid : Uuid) (t : SessionArc)
        (isNewest : (l.live.erase s).find? (fun s => s.session.uuid = uuid) = some t) :
        l.newest uuid = some t := by
      have remains := List.mem_of_find?_eq_some isNewest
      have same : t.session.uuid = uuid := by simpa using List.find?_some isNewest
      have tLive : t ∈ l.live := List.mem_of_mem_erase remains
      obtain ⟨u, newest⟩ := exists_newest (l := l) (List.mem_map.mpr ⟨t, tLive, same⟩)
      by_cases ended : u = s
      · subst ended
        have mine : u.session.uuid = uuid := by simpa using List.find?_some newest
        refine absurd ⟨by rw [mine, newest], t, tLive, ?_, by rw [same, mine]⟩ keeps
        rintro rfl
        exact gone remains
      · have unchanged := find?_erase newest ended
        rw [isNewest] at unchanged
        rw [newest, unchanged]
    exact ⟨fun uuid t isNewest => entered uuid t (before uuid t isNewest),
      fun uuid t isNewest => own uuid t (before uuid t isNewest)⟩

private theorem registered_remove {l : Logins} (wellformed : l.Wellformed)
    (registered : l.Registered) {s : SessionArc} {l' : Logins}
    (after : l' = { l with
      registry := l.registry.remove s.session.uuid, closing := l.closing.erase s })
    (wellformed' : l'.Wellformed) : l'.Registered ↔ l.KeepsEntries (.remove s) := by
  obtain ⟨entered, own⟩ := (registered_iff_entered wellformed).mp registered
  rw [registered_iff_entered wellformed']
  subst after
  constructor
  · rintro ⟨kept, -⟩ t tLive same
    -- a live session of that UUID would have lost its entry
    obtain ⟨u, isNewest⟩ := exists_newest (List.mem_map.mpr ⟨t, tLive, same⟩)
    have entry := kept _ u isNewest
    rw [PlayerSessions.get_remove_self] at entry
    cases entry
  · intro keeps
    refine ⟨fun uuid t isNewest => ?_, fun uuid t isNewest u listed sameName => ?_⟩
    · have same : t.session.uuid = uuid := by simpa using List.find?_some isNewest
      have other := keeps t (List.mem_of_find?_eq_some isNewest)
      rw [PlayerSessions.get_remove_ne _ (by rwa [← same])]
      exact entered uuid t isNewest
    · obtain ⟨e, member, rfl⟩ := List.mem_map.mp listed
      have before : e.2 ∈ l.registry.values :=
        List.mem_map_of_mem ((List.kerase_sublist _ _).subset member)
      exact own uuid t isNewest _ before sameName

private theorem registered_step {l l' : Logins} {e : LoginEvent} (wellformed : l.Wellformed)
    (registered : l.Registered) (stepped : l.step e = some l') :
    l'.Registered ↔ l.KeepsEntries e := by
  have wellformed' := wellformed_step wellformed stepped
  obtain ⟨s, rfl, -, after⟩ | ⟨s, rfl, live, after⟩ | ⟨s, rfl, -, after⟩ := step_cases stepped
  · exact registered_put wellformed registered after wellformed'
  · exact registered_relayEnds wellformed registered live after wellformed'
  · exact registered_remove wellformed registered after wellformed'

private theorem registered_start : start.Registered := by
  rw [registered_iff_entered wellformed_start]
  constructor
  · intro uuid s isNewest
    cases isNewest
  · intro uuid s isNewest
    cases isNewest

/-- Every live UUID keeps its entry, and its session is found by name, throughout a run exactly
if no step of the run puts a name that stands under another UUID, ends the newest relay of a
UUID over an older one, or removes a UUID that is live. -/
theorem registered_iff {events : List LoginEvent} {l : Logins}
    (ran : Machine.run step start events = some l) :
    Machine.Always step Registered start events ↔
      Machine.Guarded step KeepsEntries start events :=
  Machine.always_iff_guarded (fun _ _ _ => wellformed_step) (fun _ _ _ => registered_step)
    wellformed_start registered_start ran

def steveUuid : Uuid := ⟨List.replicate 16 7, rfl⟩

/-- A login of one and the same player. -/
def steve (ptr : Nat) : SessionArc where
  ptr := ptr
  session :=
    { name := "Steve".toList, uuid := steveUuid, host := "mc.example".toList
      protocolVersion := 776, compressionThreshold := 256, encrypted := false }

theorem relogin_registered :
    Machine.Always step Registered start
      [.put (steve 0), .relayEnds (steve 0), .remove (steve 0), .put (steve 1)] := by
  have one : start.step (.put (steve 0)) =
    some ⟨PlayerSessions.empty.put (steve 0), [steve 0], []⟩ := rfl
  have two : step ⟨PlayerSessions.empty.put (steve 0), [steve 0], []⟩ (.relayEnds (steve 0)) =
    some ⟨PlayerSessions.empty.put (steve 0), [], [steve 0]⟩ := rfl
  have three : step ⟨PlayerSessions.empty.put (steve 0), [], [steve 0]⟩ (.remove (steve 0)) =
    some start := rfl
  apply (registered_iff (l := ⟨PlayerSessions.empty.put (steve 1), [steve 1], []⟩) rfl).mpr
  rw [Machine.guarded_cons_iff one, Machine.guarded_cons_iff two, Machine.guarded_cons_iff three]
  simp [KeepsEntries, Machine.Guarded, start, PlayerSessions.empty, PlayerSessions.values]

/-- Somebody else who logs in under the name. -/
def namesake : SessionArc :=
  ⟨1, { (steve 1).session with name := "STEVE".toList, uuid := ⟨List.replicate 16 8, rfl⟩ }⟩

/-- The old connection of a player who logged in again takes the new one's entry along, and a
player whose name somebody else logs in under is not found any more. -/
theorem second_login_unregistered :
    (¬ Machine.Always step Registered start
      [.put (steve 0), .put (steve 1), .relayEnds (steve 0), .remove (steve 0)]) ∧
    ¬ Machine.Always step Registered start [.put (steve 0), .put namesake] := by
  constructor
  · intro always
    have last := Machine.always_iff_prefixes.mp always
      [.put (steve 0), .put (steve 1), .relayEnds (steve 0), .remove (steve 0)] []
      ⟨.empty, [steve 1], []⟩ rfl rfl
    have entry := last.entry (steve 1).session.uuid (steve 1) (by decide)
    cases entry
  · intro always
    have last := Machine.always_iff_prefixes.mp always [.put (steve 0), .put namesake] []
      ⟨(PlayerSessions.empty.put (steve 0)).put namesake, [namesake, steve 0], []⟩ rfl rfl
    have found := last.found (steve 0).session.uuid (steve 0) (by decide) _ (.refl _)
    exact absurd found (by decide)

end Logins

end MCGate
