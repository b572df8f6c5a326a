import MCGate.Std.Net

/-!
# Numbers and addresses as text

Different numbers and different addresses are shown differently, in texts without most
separators. An IPv6 address is read back from its groups: where an empty one stands, the
groups that are missing are zero.
-/
namespace MCGate

/-- The decimal digits of an integer. -/
def displayInt (n : Int) : Text := (toString n).toList

section Separators

variable {α : Type} {a : α} {before before' after after' : List α}

/-- A text is split at the first separator in one way only. -/
theorem append_cons_inj_of_notMem_left (here : a ∉ before) (there : a ∉ before') :
    before ++ a :: after = before' ++ a :: after' ↔ before = before' ∧ after = after' := by
  induction before generalizing before' with
  | nil =>
    cases before' with
    | nil => simp
    | cons b rest =>
      have apart : a ≠ b := fun same => there (same ▸ List.mem_cons_self)
      simp [apart]
  | cons b rest ih =>
    cases before' with
    | nil =>
      have apart : b ≠ a := fun same => here (same ▸ List.mem_cons_self)
      simp [apart]
    | cons b' rest' =>
      have tails := ih (mt (List.mem_cons_of_mem _) here) (mt (List.mem_cons_of_mem _) there)
      simp only [List.cons_append, List.cons.injEq, tails, and_assoc]

/-- The same at the last separator. -/
theorem append_cons_inj_of_notMem_right (here : a ∉ after) (there : a ∉ after') :
    before ++ a :: after = before' ++ a :: after' ↔ before = before' ∧ after = after' := by
  have reversed := @append_cons_inj_of_notMem_left α a after.reverse after'.reverse
    before.reverse before'.reverse (by simpa using here) (by simpa using there)
  rw [← List.reverse_inj]
  simp only [List.reverse_append, List.reverse_cons, List.append_assoc, List.singleton_append]
  rw [reversed, List.reverse_inj, List.reverse_inj, and_comm]

end Separators

/-! ### Digits -/

theorem digitChar_injective {m n : Nat} (hm : m < 16) (hn : n < 16)
    (same : Nat.digitChar m = Nat.digitChar n) : m = n := by
  have all : ∀ m n : Fin 16, Nat.digitChar m = Nat.digitChar n → m = n := by decide
  exact congrArg Fin.val (all ⟨m, hm⟩ ⟨n, hn⟩ same)

variable {base : Nat}

theorem toDigits_injective (more : 1 < base) (most : base ≤ 16) :
    Function.Injective (Nat.toDigits base) := by
  intro m n same
  induction m using Nat.strong_induction_on generalizing n with
  | _ m ih =>
    rw [Nat.toDigits_eq_if (n := m) more, Nat.toDigits_eq_if (n := n) more] at same
    split at same
    next small =>
      split at same
      next small' =>
        exact digitChar_injective (by omega) (by omega) (List.singleton_inj.mp same)
      next =>
        have lengths := congrArg List.length same
        simp [Nat.toDigits_ne_nil] at lengths
    next large =>
      split at same
      next =>
        have lengths := congrArg List.length same
        simp [Nat.toDigits_ne_nil] at lengths
      next =>
        obtain ⟨front, last⟩ := List.append_inj' same rfl
        have quotients := ih (m / base) (Nat.div_lt_self (by omega) more) front
        have remainders := digitChar_injective
          (Nat.lt_of_lt_of_le (Nat.mod_lt m (by omega)) most)
          (Nat.lt_of_lt_of_le (Nat.mod_lt n (by omega)) most) (List.singleton_inj.mp last)
        rw [← Nat.div_add_mod m base, ← Nat.div_add_mod n base, quotients, remainders]

/-- What is no digit does not stand in a number. -/
theorem notMem_toDigits (more : 1 < base) (most : base ≤ 16) {c : Char}
    (other : ∀ d < 16, c ≠ Nat.digitChar d) (n : Nat) : c ∉ Nat.toDigits base n := by
  induction n using Nat.strong_induction_on with
  | _ n ih =>
    rw [Nat.toDigits_eq_if more]
    split
    next small => simpa using other n (by omega)
    next =>
      have front := ih (n / base) (Nat.div_lt_self (by omega) more)
      have last := other (n % base) (Nat.lt_of_lt_of_le (Nat.mod_lt n (by omega)) most)
      simpa using ⟨front, last⟩

theorem notMem_decimal {c : Char} (other : ∀ d < 16, c ≠ Nat.digitChar d) (n : Nat) :
    c ∉ Nat.toDigits 10 n :=
  notMem_toDigits (by decide) (by decide) other n

theorem displayInt_eq (n : Int) :
    displayInt n =
      if 0 ≤ n then Nat.toDigits 10 n.toNat else '-' :: Nat.toDigits 10 (-n).toNat := by
  rw [displayInt, Int.toString_eq_repr, Int.repr_eq_if]
  split
  · rw [Nat.toList_repr]
  · rw [String.toList_append, Nat.toList_repr]
    rfl

theorem displayInt_injective : Function.Injective displayInt := by
  intro m n same
  have decimal := @toDigits_injective 10 (by decide) (by decide)
  -- only a negative number starts with a sign
  have unsigned (k : Nat) (digits : Text) : Nat.toDigits 10 k ≠ '-' :: digits := by
    intro same
    exact notMem_decimal (c := '-') (by decide) k (same ▸ List.mem_cons_self)
  rw [displayInt_eq, displayInt_eq] at same
  split at same
  · split at same
    · have := decimal same
      omega
    · exact absurd same (unsigned _ _)
  · split at same
    · exact absurd same.symm (unsigned _ _)
    · have := decimal (List.cons.inj same).2
      omega

theorem notMem_displayInt {c : Char} (other : ∀ d < 16, c ≠ Nat.digitChar d) (sign : c ≠ '-')
    (n : Int) : c ∉ displayInt n := by
  rw [displayInt_eq]
  split
  · exact notMem_decimal other _
  · simp only [List.mem_cons, sign, false_or]
    exact notMem_decimal other _

/-! ### IPv4 -/

theorem displayIpv4_injective : Function.Injective displayIpv4 := by
  intro ip ip' same
  have dot (n : Nat) : '.' ∉ Nat.toDigits 10 n := notMem_decimal (by decide) n
  have decimal := @toDigits_injective 10 (by decide) (by decide)
  simp only [displayIpv4, List.append_assoc, List.cons_append] at same
  obtain ⟨a, same⟩ := (append_cons_inj_of_notMem_left (dot _) (dot _)).mp same
  obtain ⟨b, same⟩ := (append_cons_inj_of_notMem_left (dot _) (dot _)).mp same
  obtain ⟨c, d⟩ := (append_cons_inj_of_notMem_left (dot _) (dot _)).mp same
  cases ip
  cases ip'
  simp only [Ipv4Addr.mk.injEq, ← UInt8.toNat_inj]
  exact ⟨decimal a, decimal b, decimal c, decimal d⟩

theorem notMem_displayIpv4 {c : Char} (other : ∀ d < 16, c ≠ Nat.digitChar d) (point : c ≠ '.')
    (ip : Ipv4Addr) : c ∉ displayIpv4 ip := by
  have digits := notMem_decimal other
  simp only [displayIpv4, List.mem_append, List.mem_cons, digits, point, or_self, not_false_iff]

/-! ### IPv6 -/

/-- What `longestZeroes` knows after some segments: their number, the run of zeros at their
end, if there is one, and another run. -/
structure ZeroRuns (segments : List UInt16) (state : Nat × (Nat × Nat) × (Nat × Nat)) : Prop where
  count : state.1 = segments.length
  current : state.2.1.2 ≠ 0 → state.2.1.1 + state.2.1.2 = segments.length ∧
    segments.drop state.2.1.1 = List.replicate state.2.1.2 0
  within : state.2.2.1 + state.2.2.2 ≤ segments.length
  zeros : (segments.drop state.2.2.1).take state.2.2.2 = List.replicate state.2.2.2 0

/-- The function that `longestZeroes` folds with. -/
def zeroesStep (state : Nat × (Nat × Nat) × (Nat × Nat)) (s : UInt16) :
    Nat × (Nat × Nat) × (Nat × Nat) :=
  if s = 0 then
    let cur := if state.2.1.2 = 0 then (state.1, 1) else (state.2.1.1, state.2.1.2 + 1)
    (state.1 + 1, cur, if state.2.2.2 < cur.2 then cur else state.2.2)
  else (state.1 + 1, (0, 0), state.2.2)

theorem longestZeroes_eq (segments : List UInt16) :
    longestZeroes segments = (segments.foldl zeroesStep (0, (0, 0), (0, 0))).2.2 := rfl

theorem zeroRuns_step {segments : List UInt16} {state : Nat × (Nat × Nat) × (Nat × Nat)}
    (runs : ZeroRuns segments state) (s : UInt16) :
    ZeroRuns (segments ++ [s]) (zeroesStep state s) := by
  obtain ⟨i, ⟨start, len⟩, ⟨best, most⟩⟩ := state
  obtain ⟨count, current, within, zeros⟩ := runs
  dsimp only at count current within zeros
  subst count
  have longer : best + most ≤ (segments ++ [s]).length := by
    rw [List.length_append]
    omega
  have kept : ((segments ++ [s]).drop best).take most = List.replicate most 0 := by
    rw [List.drop_append_of_le_length (by omega), List.take_append_of_le_length, zeros]
    rw [List.length_drop]
    omega
  unfold zeroesStep
  split
  next zero =>
    subst zero
    -- the run at the end is now one longer
    obtain ⟨start', len', same, ends, run⟩ : ∃ start' len',
        (if len = 0 then (segments.length, 1) else (start, len + 1)) = (start', len') ∧
          start' + len' = segments.length + 1 ∧
          (segments ++ [0]).drop start' = List.replicate len' 0 := by
      split
      · exact ⟨segments.length, 1, rfl, rfl, List.drop_left⟩
      next some =>
        obtain ⟨ends, run⟩ := current some
        refine ⟨start, len + 1, rfl, by omega, ?_⟩
        rw [List.drop_append_of_le_length (by omega), run, List.replicate_succ']
    dsimp only
    rw [same]
    refine ⟨by simp, fun _ => ⟨by simpa using ends, run⟩, ?_, ?_⟩
    · dsimp only
      split
      · simp [ends]
      · exact longer
    · dsimp only
      split
      · rw [run, List.take_replicate, Nat.min_self]
      · exact kept
  next => exact ⟨by simp, by simp, longer, kept⟩

theorem zeroRuns_foldl {before : List UInt16} {state : Nat × (Nat × Nat) × (Nat × Nat)}
    (segments : List UInt16) (runs : ZeroRuns before state) :
    ZeroRuns (before ++ segments) (segments.foldl zeroesStep state) := by
  induction segments generalizing before state with
  | nil => simpa using runs
  | cons s rest ih =>
    have first := ih (zeroRuns_step runs s)
    rwa [List.append_assoc] at first

/-- What `longestZeroes` finds is a run of zeros. -/
theorem longestZeroes_spec {segments : List UInt16} {start len : Nat}
    (found : longestZeroes segments = (start, len)) :
    start + len ≤ segments.length ∧
      segments.take start ++ List.replicate len 0 ++ segments.drop (start + len) = segments := by
  have initial : ZeroRuns [] (0, (0, 0), (0, 0)) := ⟨rfl, by simp, by simp, by simp⟩
  obtain ⟨-, -, within, zeros⟩ := zeroRuns_foldl segments initial
  rw [List.nil_append, ← longestZeroes_eq, found] at within zeros
  refine ⟨within, ?_⟩
  dsimp only at zeros
  rw [← zeros, List.append_assoc, ← List.drop_drop, List.take_append_drop, List.take_append_drop]

/-- The run that `longestZeroes` keeps is the one at the end, or a segment that is not zero
follows it. -/
def RunStops (segments : List UInt16) (state : Nat × (Nat × Nat) × (Nat × Nat)) : Prop :=
  state.2.2.2 = 0 ∨ state.2.2 = state.2.1 ∨
    ∃ s, s ≠ 0 ∧ segments[state.2.2.1 + state.2.2.2]? = some s

theorem runStops_step {segments : List UInt16} {state : Nat × (Nat × Nat) × (Nat × Nat)}
    (runs : ZeroRuns segments state) (stops : RunStops segments state) (s : UInt16) :
    RunStops (segments ++ [s]) (zeroesStep state s) := by
  obtain ⟨i, ⟨start, len⟩, ⟨best, most⟩⟩ := state
  have ends := runs.current
  simp only [RunStops, Prod.mk.injEq] at stops ends ⊢
  have later (followed : ∃ s, s ≠ 0 ∧ segments[best + most]? = some s) :
      ∃ s', s' ≠ 0 ∧ (segments ++ [s])[best + most]? = some s' := by
    obtain ⟨s', other, next⟩ := followed
    exact ⟨s', other, List.getElem?_append_left (List.getElem?_eq_some_iff.mp next).1 ▸ next⟩
  unfold zeroesStep
  split
  next zero =>
    obtain ⟨cur, same, grows⟩ : ∃ cur : Nat × Nat,
        (if len = 0 then (i, 1) else (start, len + 1)) = cur ∧ len < cur.2 := by
      split
      next none => exact ⟨_, rfl, none ▸ Nat.zero_lt_one⟩
      next => exact ⟨_, rfl, Nat.lt_succ_self len⟩
    dsimp only
    rw [same]
    by_cases longer : most < cur.2
    · rw [if_pos longer]
      exact .inr (.inl rfl)
    · rw [if_neg longer]
      -- the run that is kept is not shorter, and so another one than that at the end
      rcases stops with none | ⟨-, rfl⟩ | followed
      · exact .inl none
      · exact absurd grows longer
      · exact .inr (.inr (later followed))
  next other =>
    rcases stops with none | ⟨rfl, rfl⟩ | followed
    · exact .inl none
    · by_cases none : most = 0
      · exact .inl none
      · refine .inr (.inr ⟨s, other, ?_⟩)
        rw [(ends none).1, List.getElem?_concat_length]
    · exact .inr (.inr (later followed))

theorem runStops_foldl {before : List UInt16} {state : Nat × (Nat × Nat) × (Nat × Nat)}
    (segments : List UInt16) (runs : ZeroRuns before state) (stops : RunStops before state) :
    RunStops (before ++ segments) (segments.foldl zeroesStep state) := by
  induction segments generalizing before state with
  | nil => simpa using stops
  | cons s rest ih =>
    have first := ih (zeroRuns_step runs s) (runStops_step runs stops s)
    rwa [List.append_assoc] at first

/-- No zero follows the run that `longestZeroes` finds. -/
theorem longestZeroes_stops {segments : List UInt16} {start len : Nat}
    (found : longestZeroes segments = (start, len)) (some_ : len ≠ 0) :
    segments[start + len]? ≠ some 0 := by
  have initial : ZeroRuns [] (0, (0, 0), (0, 0)) := ⟨rfl, by simp, by simp, by simp⟩
  have runs := zeroRuns_foldl segments initial
  have stops := runStops_foldl segments initial (.inl rfl)
  have ends := runs.current
  rw [List.nil_append] at stops ends
  rw [longestZeroes_eq] at found
  rw [RunStops, found] at stops
  rcases stops with none | last | ⟨s, other, next⟩
  · exact absurd none some_
  · rw [← last] at ends
    rw [List.getElem?_eq_none (Nat.le_of_eq (ends some_).1.symm)]
    exact nofun
  · rw [next, Ne, Option.some.injEq]
    exact other

def hexGroup (segment : UInt16) : Text := Nat.toDigits 16 segment.toNat

theorem hexGroup_injective : Function.Injective hexGroup := by
  intro one two same
  exact UInt16.toNat_inj.mp (toDigits_injective (by decide) (by decide) same)

theorem hexGroup_ne_nil (segment : UInt16) : hexGroup segment ≠ [] := Nat.toDigits_ne_nil

theorem notMem_hexGroup {c : Char} (other : ∀ d < 16, c ≠ Nat.digitChar d) (segment : UInt16) :
    c ∉ hexGroup segment :=
  notMem_toDigits (by decide) (by decide) other segment.toNat

/-- No groups at all are one empty group between the separators. -/
def padded (groups : List Text) : List Text := if groups = [] then [[]] else groups

theorem padded_ne_nil (groups : List Text) : padded groups ≠ [] := by
  unfold padded
  split
  · simp
  next some => exact some

theorem displaySegments_eq (segments : List UInt16) :
    displaySegments segments = List.intercalate [':'] (padded (segments.map hexGroup)) := by
  unfold padded
  split
  next none =>
    rw [List.map_eq_nil_iff.mp none]
    rfl
  next => rfl

theorem intercalate_append {sep : Text} {left right : List Text} (some : left ≠ [])
    (more : right ≠ []) :
    List.intercalate sep (left ++ right) =
      List.intercalate sep left ++ sep ++ List.intercalate sep right := by
  induction left with
  | nil => exact absurd rfl some
  | cons group rest ih =>
    cases rest with
    | nil => rw [List.singleton_append, List.intercalate_cons_of_ne_nil more,
        List.intercalate_singleton]
    | cons next rest =>
      rw [List.cons_append, List.cons_append, List.intercalate_cons_cons, ← List.cons_append,
        ih (by simp), List.intercalate_cons_cons]
      simp only [List.append_assoc]

/-- The text with `::` between its separators. -/
theorem displaySegments_gap (left right : List UInt16) :
    displaySegments left ++ ':' :: ':' :: displaySegments right =
      List.intercalate [':']
        (padded (left.map hexGroup) ++ [] :: padded (right.map hexGroup)) := by
  rw [displaySegments_eq, displaySegments_eq,
    intercalate_append (padded_ne_nil _) (List.cons_ne_nil _ _),
    List.intercalate_cons_of_ne_nil (padded_ne_nil _)]
  simp only [List.append_assoc, List.singleton_append, List.nil_append]

/-- Puts zeros where an empty group stands. -/
def expand (groups : List Text) : List Text :=
  let left := groups.takeWhile (· ≠ [])
  let right := (groups.dropWhile (· ≠ [])).filter (· ≠ [])
  left ++ List.replicate (8 - (left.length + right.length)) (hexGroup 0) ++ right

theorem filter_padded {groups : List Text} (proper : ∀ group ∈ groups, group ≠ []) :
    (padded groups).filter (· ≠ []) = groups := by
  unfold padded
  split
  next none =>
    rw [none]
    rfl
  next => exact List.filter_eq_self.mpr (by simpa using proper)

theorem expand_gap {left right : List Text} (proper : ∀ group ∈ left, group ≠ [])
    (proper' : ∀ group ∈ right, group ≠ []) :
    expand (padded left ++ [] :: padded right) =
      left ++ List.replicate (8 - (left.length + right.length)) (hexGroup 0) ++ right := by
  have rest := filter_padded proper'
  cases left with
  | nil =>
    have taken : (padded [] ++ [] :: padded right).takeWhile (· ≠ []) = [] := rfl
    have dropped : (padded [] ++ [] :: padded right).dropWhile (· ≠ []) =
        [] :: [] :: padded right := rfl
    rw [expand, taken, dropped, List.filter_cons_of_neg (by simp),
      List.filter_cons_of_neg (by simp), rest]
  | cons group groups =>
    have whole : padded (group :: groups) = group :: groups := if_neg (List.cons_ne_nil _ _)
    have taken : ((group :: groups) ++ [] :: padded right).takeWhile (· ≠ []) =
        group :: groups := by
      rw [List.takeWhile_append_of_pos (by simpa using proper)]
      simp
    have dropped : ((group :: groups) ++ [] :: padded right).dropWhile (· ≠ []) =
        [] :: padded right := by
      rw [List.dropWhile_append_of_pos (by simpa using proper)]
      simp
    rw [whole, expand, taken, dropped, List.filter_cons_of_neg (by simp), rest]

theorem expand_full {groups : List Text} (proper : ∀ group ∈ groups, group ≠ [])
    (eight : groups.length = 8) : expand groups = groups := by
  have taken : groups.takeWhile (· ≠ []) = groups :=
    List.takeWhile_eq_self_iff.mpr (by simpa using proper)
  have dropped : groups.dropWhile (· ≠ []) = [] :=
    List.dropWhile_eq_nil_iff.mpr (by simpa using proper)
  rw [expand, taken, dropped, eight]
  simp

namespace Ipv6Addr

/-- The groups of the text between its separators, for an address that is not an IPv4 one. -/
def groups (ip : Ipv6Addr) : List Text :=
  if 1 < (longestZeroes ip.segments).2 then
    padded ((ip.segments.take (longestZeroes ip.segments).1).map hexGroup) ++
      [] :: padded ((ip.segments.drop ((longestZeroes ip.segments).1 +
        (longestZeroes ip.segments).2)).map hexGroup)
  else ip.segments.map hexGroup

theorem segments_injective : Function.Injective segments := by
  rintro ⟨⟩ ⟨⟩ same
  simpa [segments] using same

theorem mem_groups {ip : Ipv6Addr} {group : Text} (member : group ∈ ip.groups) :
    group = [] ∨ ∃ segment, group = hexGroup segment := by
  have shown {segments : List UInt16} {group : Text} (member : group ∈ segments.map hexGroup) :
      ∃ segment, group = hexGroup segment := by
    obtain ⟨segment, -, rfl⟩ := List.mem_map.mp member
    exact ⟨segment, rfl⟩
  have padding {segments : List UInt16} {group : Text}
      (member : group ∈ padded (segments.map hexGroup)) :
      group = [] ∨ ∃ segment, group = hexGroup segment := by
    unfold padded at member
    split at member
    · exact .inl (List.mem_singleton.mp member)
    · exact .inr (shown member)
  unfold groups at member
  split at member
  · rcases List.mem_append.mp member with member | member
    · exact padding member
    · rcases List.mem_cons.mp member with empty | member
      · exact .inl empty
      · exact padding member
  · exact .inr (shown member)

theorem groups_ne_nil (ip : Ipv6Addr) : ip.groups ≠ [] := by
  unfold groups
  split
  · simp
  · simp [segments]

/-- The segments are read back from the groups. -/
theorem expand_groups (ip : Ipv6Addr) : expand ip.groups = ip.segments.map hexGroup := by
  have proper (segments : List UInt16) : ∀ group ∈ segments.map hexGroup, group ≠ [] := by
    simpa using fun segment _ => hexGroup_ne_nil segment
  cases found : longestZeroes ip.segments with
  | mk start len =>
    obtain ⟨within, whole⟩ := longestZeroes_spec found
    have eight : ip.segments.length = 8 := rfl
    rw [groups, found]
    split
    · rw [expand_gap (proper _) (proper _), List.length_map, List.length_map, List.length_take,
        List.length_drop, eight]
      have missing : 8 - (min start 8 + (8 - (start + len))) = len := by omega
      rw [missing, ← List.map_replicate, ← List.map_append, ← List.map_append, whole]
    · exact expand_full (proper _) (by rw [List.length_map, eight])

theorem groups_injective : Function.Injective groups := by
  intro ip ip' same
  have segments := congrArg expand same
  rw [expand_groups, expand_groups] at segments
  exact segments_injective (List.map_injective_iff.mpr hexGroup_injective segments)

/-- The address stands for an IPv4 one, `::ffff:a.b.c.d`. -/
def Mapped (ip : Ipv6Addr) : Prop := ip.segments.take 6 = [0, 0, 0, 0, 0, 0xFFFF]

theorem displayIpv6_of_not_mapped {ip : Ipv6Addr} (plain : ¬ ip.Mapped) :
    displayIpv6 ip = List.intercalate [':'] ip.groups := by
  unfold Mapped at plain
  rw [displayIpv6, if_neg plain, groups]
  dsimp only
  split
  · exact displaySegments_gap _ _
  · rfl

theorem displayIpv6_of_mapped {ip : Ipv6Addr} (mapped : ip.Mapped) :
    displayIpv6 ip = "::ffff:".toList ++ displayIpv4 ⟨(ip.s6 >>> 8).toUInt8, ip.s6.toUInt8,
      (ip.s7 >>> 8).toUInt8, ip.s7.toUInt8⟩ := by
  unfold Mapped at mapped
  rw [displayIpv6, if_pos mapped]

theorem bytes_injective {s t : UInt16} (hi : (s >>> 8).toUInt8 = (t >>> 8).toUInt8)
    (lo : s.toUInt8 = t.toUInt8) : s = t := by
  rw [← fromBeBytes_toBeBytes s, hi, lo, fromBeBytes_toBeBytes]

theorem eq_of_mapped {ip ip' : Ipv6Addr} (mapped : ip.Mapped) (mapped' : ip'.Mapped)
    (same : displayIpv6 ip = displayIpv6 ip') : ip = ip' := by
  rw [displayIpv6_of_mapped mapped, displayIpv6_of_mapped mapped'] at same
  have v4 := displayIpv4_injective (List.append_cancel_left same)
  rw [Ipv4Addr.mk.injEq] at v4
  have s6 := bytes_injective v4.1 v4.2.1
  have s7 := bytes_injective v4.2.2.1 v4.2.2.2
  cases ip
  cases ip'
  simp_all [Mapped, segments]

end Ipv6Addr

theorem notMem_intercalate {c sep : Char} (apart : c ≠ sep) {groups : List Text}
    (free : ∀ group ∈ groups, c ∉ group) : c ∉ List.intercalate [sep] groups := by
  induction groups with
  | nil => simp
  | cons group rest ih =>
    obtain ⟨here, later⟩ := List.forall_mem_cons.mp free
    cases rest with
    | nil => simpa using here
    | cons next rest =>
      rw [List.intercalate_cons_cons]
      simp only [List.mem_append, List.mem_singleton, not_or]
      exact ⟨⟨here, apart⟩, ih later⟩

/-- An address that is not an IPv4 one has only digits and colons. -/
theorem notMem_displayIpv6 {c : Char} (other : ∀ d < 16, c ≠ Nat.digitChar d) (colon : c ≠ ':')
    {ip : Ipv6Addr} (plain : ¬ ip.Mapped) : c ∉ displayIpv6 ip := by
  rw [Ipv6Addr.displayIpv6_of_not_mapped plain]
  apply notMem_intercalate colon
  intro group member
  rcases Ipv6Addr.mem_groups member with rfl | ⟨segment, rfl⟩
  · exact List.not_mem_nil
  · exact notMem_hexGroup other segment

theorem point_mem_displayIpv4 (ip : Ipv4Addr) : '.' ∈ displayIpv4 ip := by
  simp [displayIpv4]

theorem point_mem_displayIpv6_iff (ip : Ipv6Addr) : '.' ∈ displayIpv6 ip ↔ ip.Mapped := by
  constructor
  · intro point
    by_contra plain
    exact notMem_displayIpv6 (by decide) (by decide) plain point
  · intro mapped
    rw [Ipv6Addr.displayIpv6_of_mapped mapped]
    exact List.mem_append_right _ (point_mem_displayIpv4 _)

theorem displayIpv6_injective : Function.Injective displayIpv6 := by
  intro ip ip' same
  by_cases mapped : ip.Mapped
  · have mapped' : ip'.Mapped := by
      rw [← point_mem_displayIpv6_iff, ← same, point_mem_displayIpv6_iff]
      exact mapped
    exact Ipv6Addr.eq_of_mapped mapped mapped' same
  · have plain' : ¬ ip'.Mapped := by
      rw [← point_mem_displayIpv6_iff, ← same, point_mem_displayIpv6_iff]
      exact mapped
    have colons (ip : Ipv6Addr) : ∀ group ∈ ip.groups, ':' ∉ group := by
      intro group member
      rcases Ipv6Addr.mem_groups member with rfl | ⟨segment, rfl⟩
      · exact List.not_mem_nil
      · exact notMem_hexGroup (by decide) segment
    rw [Ipv6Addr.displayIpv6_of_not_mapped mapped,
      Ipv6Addr.displayIpv6_of_not_mapped plain'] at same
    have groups := congrArg (List.splitOn ':') same
    rw [List.splitOn_intercalate ':' (colons ip) ip.groups_ne_nil,
      List.splitOn_intercalate ':' (colons ip') ip'.groups_ne_nil] at groups
    exact Ipv6Addr.groups_injective groups

/-- An IPv4 address has a point and no colon; an IPv6 address that has a point has colons. -/
theorem displayIpv4_ne_displayIpv6 (ip : Ipv4Addr) (ip' : Ipv6Addr) :
    displayIpv4 ip ≠ displayIpv6 ip' := by
  intro same
  have point := point_mem_displayIpv4 ip
  rw [same, point_mem_displayIpv6_iff] at point
  have colon : ':' ∈ displayIpv6 ip' := by
    rw [Ipv6Addr.displayIpv6_of_mapped point]
    exact List.mem_append_left _ (by decide)
  rw [← same] at colon
  exact notMem_displayIpv4 (by decide) (by decide) ip colon

/-- Different addresses are shown differently. -/
theorem displayIp_injective : Function.Injective displayIp := by
  rintro (ip | ip) (ip' | ip') same
  · exact congrArg IpAddr.v4 (displayIpv4_injective same)
  · exact absurd same (displayIpv4_ne_displayIpv6 ip ip')
  · exact absurd same.symm (displayIpv4_ne_displayIpv6 ip' ip)
  · exact congrArg IpAddr.v6 (displayIpv6_injective same)

theorem notMem_displayIp {c : Char} (other : ∀ d < 16, c ≠ Nat.digitChar d) (point : c ≠ '.')
    (colon : c ≠ ':') (ip : IpAddr) : c ∉ displayIp ip := by
  cases ip with
  | v4 ip => exact notMem_displayIpv4 other point ip
  | v6 ip =>
    by_cases mapped : ip.Mapped
    · rw [displayIp, Ipv6Addr.displayIpv6_of_mapped mapped]
      have front : c ∉ "::ffff:".toList := by
        have letter : c ≠ 'f' := other 15 (by decide)
        simpa [colon] using letter
      exact mt List.mem_append.mp (not_or.mpr ⟨front, notMem_displayIpv4 other point _⟩)
    · exact notMem_displayIpv6 other colon mapped

end MCGate
