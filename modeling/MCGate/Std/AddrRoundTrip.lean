import MCGate.Std.Display

/-!
# Numbers and addresses read back

What is shown of a number or of an address, the parser reads back. A number ends where no
further digit follows, so a reader that is given more text stops where the shown one stopped.
-/
namespace MCGate

/-! ### Numbers -/

section Numbers

variable {radix : Nat}

/-- No digit of the radix stands in front. -/
def NoDigit (radix : Nat) (text : Text) : Prop := ∀ c, text.head? = some c → toDigit radix c = none

theorem noDigit_nil (radix : Nat) : NoDigit radix [] := by
  rintro c ⟨⟩

theorem noDigit_cons {c : Char} {text : Text} (none : toDigit radix c = none) :
    NoDigit radix (c :: text) := by
  rintro d ⟨⟩
  exact none

theorem toDigit_digitChar {d : Nat} (most : radix ≤ 16) (small : d < radix) :
    toDigit radix (Nat.digitChar d) = some d := by
  have table : ∀ n : Fin 16, toDigit 16 (Nat.digitChar n) = some n.val := by decide
  have sixteen := table ⟨d, by omega⟩
  simp only [toDigit, Option.filter_eq_some_iff, decide_eq_true_eq] at sixteen ⊢
  exact ⟨sixteen.1, small⟩

theorem readDigits_append {text rest : Text} {digits : List Nat}
    (shown : text.map (toDigit radix) = digits.map some) (stop : NoDigit radix rest) :
    readDigits radix (text ++ rest) = (digits, rest) := by
  induction text generalizing digits with
  | nil =>
    obtain rfl := List.map_eq_nil_iff.mp shown.symm
    cases rest with
    | nil => rfl
    | cons c rest => rw [List.nil_append, readDigits, stop c rfl]
  | cons c text ih =>
    obtain ⟨d, later, rfl, first, shown⟩ := List.map_eq_cons_iff.mp shown.symm
    rw [List.cons_append, readDigits, ← first, ih shown.symm]

/-- The digits of a number spell it, without a zero in front of others. -/
theorem digits_toDigits (more : 1 < radix) (most : radix ≤ 16) (n : Nat) :
    ∃ digits, (Nat.toDigits radix n).map (toDigit radix) = digits.map some ∧
      digitsValue radix digits = n ∧ digits ≠ [] ∧
      (digits.head? = some 0 → digits.length ≤ 1) := by
  induction n using Nat.strong_induction_on with
  | _ n ih =>
    rw [Nat.toDigits_eq_if more]
    -- one digit, or the digits of the quotient and one more
    by_cases small : n < radix
    · rw [if_pos small]
      refine ⟨[n], ?_, by simp [digitsValue], by simp, by simp⟩
      rw [List.map_singleton, toDigit_digitChar most small, List.map_singleton]
    · rw [if_neg small]
      obtain ⟨digits, shown, value, some, leading⟩ :=
        ih (n / radix) (Nat.div_lt_self (by omega) more)
      refine ⟨digits ++ [n % radix], ?_, ?_, by simp, ?_⟩
      · have last := toDigit_digitChar most (Nat.mod_lt n (by omega))
        rw [List.map_append, List.map_append, shown, List.map_singleton, last, List.map_singleton]
      · rw [digitsValue, List.foldl_append]
        rw [digitsValue] at value
        rw [value, List.foldl_cons, List.foldl_nil, Nat.mul_comm, Nat.div_add_mod]
      -- a zero in front would be all there is of a quotient that is not zero
      · intro zero
        obtain ⟨d, later, rfl⟩ := List.exists_cons_of_ne_nil some
        rw [List.cons_append, List.head?_cons, Option.some.injEq] at zero
        subst zero
        have alone : later = [] := List.length_eq_zero_iff.mp
          (Nat.le_zero.mp (Nat.le_of_succ_le_succ (leading rfl)))
        subst alone
        have quotient : 0 = n / radix := by simpa [digitsValue] using value
        have positive : 0 < n / radix := Nat.div_pos (by omega) (by omega)
        omega

theorem readNumber_toDigits {maxDigits max n : Nat} {allowZeroPrefix : Bool} {rest : Text}
    (more : 1 < radix) (most : radix ≤ 16) (few : (Nat.toDigits radix n).length ≤ maxDigits)
    (small : n ≤ max) (stop : NoDigit radix rest) :
    readNumber radix maxDigits allowZeroPrefix max (Nat.toDigits radix n ++ rest) =
      some (n, rest) := by
  obtain ⟨digits, shown, value, some, leading⟩ := digits_toDigits more most n
  have length := congrArg List.length shown
  rw [List.length_map, List.length_map] at length
  rw [readNumber, readDigits_append shown stop]
  obtain ⟨d, later, rfl⟩ := List.exists_cons_of_ne_nil some
  have noPrefix : ¬ (¬ allowZeroPrefix ∧ (d :: later).head? = Option.some 0 ∧
      1 < (d :: later).length) := by
    rintro ⟨-, zero, many⟩
    exact absurd (leading zero) (Nat.not_le_of_lt many)
  simp only [value]
  rw [if_neg (by omega), if_neg noPrefix, if_neg (by omega)]

/-- A port is read back. -/
theorem parseU16_toDigits (n : UInt16) : parseU16 (Nat.toDigits 10 n.toNat) = some n := by
  obtain ⟨digits, shown, value, some, -⟩ := @digits_toDigits 10 (by decide) (by decide) n.toNat
  have unsigned : (Nat.toDigits 10 n.toNat).head? ≠ Option.some '+' := by
    intro plus
    exact notMem_decimal (by decide) n.toNat (List.mem_of_head? plus)
  have below := n.toNat_lt
  have read := readDigits_append shown (noDigit_nil 10)
  rw [List.append_nil] at read
  obtain ⟨d, later, rfl⟩ := List.exists_cons_of_ne_nil some
  rw [parseU16, if_neg unsigned, read]
  simp only [value, UInt16.ofNat_toNat]
  exact if_pos (by omega)

end Numbers

/-! ### IPv4 -/

theorem readNumber_octet (octet : UInt8) {rest : Text} (stop : NoDigit 10 rest) :
    readNumber 10 3 false 255 (Nat.toDigits 10 octet.toNat ++ rest) = some (octet.toNat, rest) := by
  have below := octet.toNat_lt
  have few : (Nat.toDigits 10 octet.toNat).length ≤ 3 :=
    (Nat.length_toDigits_le_iff (by decide) (by decide)).mpr (Nat.lt_trans below (by decide))
  exact readNumber_toDigits (by decide) (by decide) few (by omega) stop

theorem readIpv4Group_first (octet : UInt8) {rest : Text} (stop : NoDigit 10 rest) :
    readIpv4Group true (Nat.toDigits 10 octet.toNat ++ rest) = some (octet, rest) := by
  simp [readIpv4Group, readSeparator, readNumber_octet octet stop]

theorem readIpv4Group_next (octet : UInt8) {rest : Text} (stop : NoDigit 10 rest) :
    readIpv4Group false ('.' :: (Nat.toDigits 10 octet.toNat ++ rest)) = some (octet, rest) := by
  simp [readIpv4Group, readSeparator, readNumber_octet octet stop]

theorem readIpv4Addr_displayIpv4 (ip : Ipv4Addr) {rest : Text} (stop : NoDigit 10 rest) :
    readIpv4Addr (displayIpv4 ip ++ rest) = some (ip, rest) := by
  have point (text : Text) : NoDigit 10 ('.' :: text) := noDigit_cons (by decide)
  have text : displayIpv4 ip ++ rest = Nat.toDigits 10 ip.a.toNat ++ '.' ::
      (Nat.toDigits 10 ip.b.toNat ++ '.' :: (Nat.toDigits 10 ip.c.toNat ++ '.' ::
      (Nat.toDigits 10 ip.d.toNat ++ rest))) := by
    simp only [displayIpv4, List.append_assoc, List.cons_append]
  -- each group ends at the point of the next one
  rw [text, readIpv4Addr, readIpv4Group_first ip.a (point _)]
  simp only [Option.bind_eq_bind, Option.bind_some, readIpv4Group_next ip.b (point _),
    readIpv4Group_next ip.c (point _), readIpv4Group_next ip.d stop]
  rfl

/-- What starts with no digit is no IPv4 address. -/
theorem readIpv4Addr_noDigit {text : Text} (none_ : NoDigit 10 text) :
    readIpv4Addr text = none := by
  have digits : readDigits 10 text = ([], text) := @readDigits_append _ [] text [] rfl none_
  simp [readIpv4Addr, readIpv4Group, readSeparator, readNumber, digits]

theorem readDigits_suffix (radix : Nat) (text : Text) : (readDigits radix text).2 <:+ text := by
  fun_induction readDigits radix text with
  | case1 => exact List.suffix_rfl
  | case2 => exact List.suffix_rfl
  | case3 c rest d digit ih => exact ih.trans (List.suffix_cons c rest)

theorem readNumber_suffix {radix maxDigits max n : Nat} {zero : Bool} {text rest : Text}
    (read : readNumber radix maxDigits zero max text = some (n, rest)) : rest <:+ text := by
  have suffix := readDigits_suffix radix text
  simp only [readNumber] at read
  split at read
  · cases read
  next digits left some cut =>
    rw [cut] at suffix
    split_ifs at read
    rw [← (Prod.mk.inj (Option.some.inj read)).2]
    exact suffix

/-- An IPv4 address has points. -/
theorem readIpv4Addr_noPoint {text : Text} (noPoint : '.' ∉ text) : readIpv4Addr text = none := by
  cases first : readIpv4Group true text with
  | none => rw [readIpv4Addr, first]; rfl
  | some read =>
    obtain ⟨a, rest⟩ := read
    obtain ⟨⟨n, left⟩, item, same⟩ := Option.map_eq_some_iff.mp first
    cases same
    -- the second group would start with one
    have second : readIpv4Group false rest = none := by
      cases rest with
      | nil => rfl
      | cons c more =>
        have apart : c ≠ '.' := by
          rintro rfl
          exact noPoint ((readNumber_suffix item).subset List.mem_cons_self)
        simp [readIpv4Group, readSeparator, apart]
    rw [readIpv4Addr, first]
    simp only [Option.bind_eq_bind, Option.bind_some, second]
    rfl

/-! ### IPv6 -/

/-- Nothing follows the groups, or `::` does. -/
def EndsGroups (text : Text) : Prop := text = [] ∨ ∃ rest, text = ':' :: ':' :: rest

theorem EndsGroups.noDigit {text : Text} (ends : EndsGroups text) (radix : Nat) :
    NoDigit radix text := by
  rcases ends with rfl | ⟨rest, rfl⟩
  · exact noDigit_nil radix
  · exact noDigit_cons (by simp [toDigit])

theorem readNumber_noDigit {radix maxDigits max : Nat} {zero : Bool} {text : Text}
    (none_ : NoDigit radix text) : readNumber radix maxDigits zero max text = none := by
  have digits : readDigits radix text = ([], text) := @readDigits_append _ [] text [] rfl none_
  rw [readNumber, digits]

theorem readGroups_end {limit : Nat} {first : Bool} {rest : Text} (ends : EndsGroups rest) :
    readGroups limit first rest = ([], false, rest) := by
  have separator {α : Type} {item : Text → Option (α × Text)}
      (fails : ∀ text, NoDigit 10 text → NoDigit 16 text → item text = none) :
      readSeparator ':' first item rest = none := by
    cases first with
    | true => exact fails rest (ends.noDigit 10) (ends.noDigit 16)
    | false =>
      rcases ends with rfl | ⟨tail, rfl⟩
      · rfl
      · exact fails (':' :: tail) (noDigit_cons (by decide)) (noDigit_cons (by decide))
  cases limit with
  | zero => rfl
  | succ limit =>
    have v4 := separator fun text none_ _ => readIpv4Addr_noDigit none_
    have group := @separator _ (readNumber 16 4 true 65535)
      fun text _ none_ => readNumber_noDigit none_
    rw [readGroups, v4, ite_self, group]

@[simp]
theorem readSeparator_first {α : Type} (sep : Char) (item : Text → Option (α × Text))
    (text : Text) : readSeparator sep true item text = item text := rfl

@[simp]
theorem readSeparator_next {α : Type} (sep : Char) (item : Text → Option (α × Text)) (text : Text) :
    readSeparator sep false item (sep :: text) = item text := by
  simp [readSeparator]

theorem length_hexGroup (segment : UInt16) : (hexGroup segment).length ≤ 4 :=
  (Nat.length_toDigits_le_iff (by decide) (by decide)).mpr segment.toNat_lt

theorem readNumber_hexGroup (segment : UInt16) {rest : Text} (stop : NoDigit 16 rest) :
    readNumber 16 4 true 65535 (hexGroup segment ++ rest) = some (segment.toNat, rest) := by
  have below := segment.toNat_lt
  exact readNumber_toDigits (by decide) (by decide) (length_hexGroup segment) (by omega) stop

/-- A group is read, unless it starts an embedded IPv4 address. -/
theorem readGroups_group {limit : Nat} {first : Bool} {segment : UInt16} {text rest : Text}
    (item : ∀ {α : Type} (f : Text → Option (α × Text)),
      readSeparator ':' first f text = f (hexGroup segment ++ rest))
    (noV4 : readIpv4Addr (hexGroup segment ++ rest) = none) (stop : NoDigit 16 rest) :
    readGroups (limit + 1) first text =
      (segment :: (readGroups limit false rest).1, (readGroups limit false rest).2) := by
  rw [readGroups, item, item, noV4, ite_self, readNumber_hexGroup segment stop]
  simp only [UInt16.ofNat_toNat]

theorem displaySegments_cons (segment : UInt16) (segments : List UInt16) :
    displaySegments (segment :: segments) =
      hexGroup segment ++ segments.flatMap fun s => ':' :: hexGroup s := by
  induction segments generalizing segment with
  | nil => simp [displaySegments, hexGroup]
  | cons next segments ih =>
    have later := ih next
    rw [displaySegments, List.map_cons] at later
    rw [displaySegments, List.map_cons, List.map_cons, List.intercalate_cons_cons, later,
      List.flatMap_cons]
    simp [hexGroup]

/-- No group is read from the text, and no digit continues one in front of it. -/
def StopsGroups (text : Text) : Prop :=
  NoDigit 16 text ∧ ∀ limit first, readGroups limit first text = ([], false, text)

theorem EndsGroups.stops {text : Text} (ends : EndsGroups text) : StopsGroups text :=
  ⟨ends.noDigit 16, fun _ _ => readGroups_end ends⟩

theorem stopsGroups_nil : StopsGroups [] := EndsGroups.stops (.inl rfl)

theorem stopsGroups_gap (rest : Text) : StopsGroups (':' :: ':' :: rest) :=
  EndsGroups.stops (.inr ⟨rest, rfl⟩)

/-- No group follows a single colon that is left over. -/
theorem stopsGroups_colon : StopsGroups [':'] := by
  refine ⟨noDigit_cons (by decide), fun limit first => ?_⟩
  cases limit with
  | zero => rfl
  | succ limit => cases limit <;> cases first <;> rfl

theorem noDigit_groups {rest : Text} (segments : List UInt16) (stop : NoDigit 16 rest) :
    NoDigit 16 ((segments.flatMap fun s => ':' :: hexGroup s) ++ rest) := by
  cases segments with
  | nil => exact stop
  | cons segment segments =>
    rw [List.flatMap_cons, List.cons_append, List.cons_append]
    exact noDigit_cons (by decide)

theorem noPoint_groups {rest : Text} (segment : UInt16) (segments : List UInt16)
    (noPoint : '.' ∉ rest) :
    '.' ∉ hexGroup segment ++ ((segments.flatMap fun s => ':' :: hexGroup s) ++ rest) := by
  have group (segment : UInt16) : '.' ∉ hexGroup segment := notMem_hexGroup (by decide) segment
  simp [noPoint, group]

theorem readGroups_next {limit : Nat} {segments : List UInt16} {rest : Text}
    (room : segments.length ≤ limit) (stops : StopsGroups rest) (noPoint : '.' ∉ rest) :
    readGroups limit false ((segments.flatMap fun s => ':' :: hexGroup s) ++ rest) =
      (segments, false, rest) := by
  -- each segment takes one group off the limit
  induction segments generalizing limit with
  | nil => exact stops.2 limit false
  | cons segment segments ih =>
    obtain ⟨limit, rfl⟩ := Nat.exists_eq_succ_of_ne_zero (Nat.ne_of_gt (Nat.lt_of_lt_of_le
      (Nat.succ_pos _) room))
    have noV4 := readIpv4Addr_noPoint (noPoint_groups segment segments noPoint)
    rw [List.flatMap_cons, List.cons_append, List.cons_append, List.append_assoc,
      readGroups_group (fun f => readSeparator_next ':' f _) noV4 (noDigit_groups segments stops.1),
      ih (Nat.le_of_succ_le_succ room)]

theorem readGroups_displaySegments {limit : Nat} {segments : List UInt16} {rest : Text}
    (room : segments.length ≤ limit) (stops : StopsGroups rest) (noPoint : '.' ∉ rest) :
    readGroups limit true (displaySegments segments ++ rest) = (segments, false, rest) := by
  cases segments with
  | nil => exact stops.2 limit true
  | cons segment segments =>
    obtain ⟨limit, rfl⟩ := Nat.exists_eq_succ_of_ne_zero (Nat.ne_of_gt (Nat.lt_of_lt_of_le
      (Nat.succ_pos _) room))
    have noV4 := readIpv4Addr_noPoint (noPoint_groups segment segments noPoint)
    rw [displaySegments_cons, List.append_assoc,
      readGroups_group (fun f => readSeparator_first ':' f _) noV4
        (noDigit_groups segments stops.1),
      readGroups_next (Nat.le_of_succ_le_succ room) stops noPoint]

theorem noPoint_displaySegments (segments : List UInt16) : '.' ∉ displaySegments segments := by
  apply notMem_intercalate (by decide)
  intro group member
  obtain ⟨segment, -, rfl⟩ := List.mem_map.mp member
  exact notMem_hexGroup (by decide) segment

namespace Ipv6Addr

theorem ofSegments_segments (ip : Ipv6Addr) : ofSegments ip.segments = ip := rfl

theorem segments_ofSegments {segments : List UInt16} (eight : segments.length = 8) :
    (ofSegments segments).segments = segments := by
  match segments, eight with
  | [_, _, _, _, _, _, _, _], _ => rfl

/-- Eight groups, all of them written. -/
theorem readIpv6Addr_full (ip : Ipv6Addr) :
    readIpv6Addr (displaySegments ip.segments) = some (ip, []) := by
  have groups := @readGroups_displaySegments 8 ip.segments [] (Nat.le_refl 8) stopsGroups_nil
    List.not_mem_nil
  rw [List.append_nil] at groups
  rw [readIpv6Addr, groups]
  exact if_pos rfl

/-- At `::` the groups that are missing are put back. -/
theorem readIpv6Addr_gap {left right : List UInt16} (room : left.length + right.length < 8) :
    readIpv6Addr (displaySegments left ++ ':' :: ':' :: displaySegments right) =
      some (ofSegments (left ++ List.replicate (8 - right.length - left.length) 0 ++ right),
        []) := by
  have noPoint : '.' ∉ ':' :: ':' :: displaySegments right := by
    simpa using noPoint_displaySegments right
  have head := @readGroups_displaySegments 8 left _ (by omega)
    (stopsGroups_gap (displaySegments right)) noPoint
  have tail := @readGroups_displaySegments (8 - (left.length + 1)) right [] (by omega)
    stopsGroups_nil List.not_mem_nil
  rw [List.append_nil] at tail
  -- the `::` stands for one group at least, so the head has not all eight
  have short : left.length ≠ 8 := by omega
  rw [readIpv6Addr, head]
  simp only [short, if_false, Bool.false_eq_true, tail]

theorem readIpv6Addr_ffff (v4 : Ipv4Addr) :
    readIpv6Addr ("::ffff:".toList ++ displayIpv4 v4) =
      some (⟨0, 0, 0, 0, 0, 0xFFFF, fromBeBytes v4.a v4.b, fromBeBytes v4.c v4.d⟩, []) := by
  have read := @readIpv4Addr_displayIpv4 v4 [] (noDigit_nil 10)
  rw [List.append_nil] at read
  have embedded : readGroups 6 false (':' :: displayIpv4 v4) =
      ([fromBeBytes v4.a v4.b, fromBeBytes v4.c v4.d], true, []) := by
    rw [readGroups, readSeparator_next, read, if_pos (by decide)]
  -- `ffff` is a group: no IPv4 address starts with a letter
  have letter : readIpv4Addr (hexGroup 0xFFFF ++ ':' :: displayIpv4 v4) = none :=
    readIpv4Addr_noDigit (noDigit_cons (by decide))
  have tail := @readGroups_group 6 true 0xFFFF _ _ (fun f => readSeparator_first ':' f _) letter
    (noDigit_cons (by decide))
  rw [embedded] at tail
  have head : readGroups 8 true (':' :: ':' :: (hexGroup 0xFFFF ++ ':' :: displayIpv4 v4)) =
      ([], false, ':' :: ':' :: (hexGroup 0xFFFF ++ ':' :: displayIpv4 v4)) :=
    readGroups_end (.inr ⟨_, rfl⟩)
  have text : "::ffff:".toList ++ displayIpv4 v4 =
      ':' :: ':' :: (hexGroup 0xFFFF ++ ':' :: displayIpv4 v4) := by
    have front : "::ffff:".toList = ':' :: ':' :: (hexGroup 0xFFFF ++ [':']) := by decide
    rw [front, List.cons_append, List.cons_append, List.append_assoc, List.singleton_append]
  rw [text, readIpv6Addr, head]
  simp only [List.length_nil, Nat.zero_add, Nat.reduceSub, tail]
  rfl

theorem readIpv6Addr_mapped {ip : Ipv6Addr} (mapped : ip.Mapped) :
    readIpv6Addr (displayIpv6 ip) = some (ip, []) := by
  rw [displayIpv6_of_mapped mapped, readIpv6Addr_ffff]
  simp only [fromBeBytes_toBeBytes]
  obtain ⟨s0, s1, s2, s3, s4, s5, s6, s7⟩ := ip
  simp only [Mapped, segments, List.take_succ_cons, List.take_zero, List.cons.injEq, and_true]
    at mapped
  obtain ⟨rfl, rfl, rfl, rfl, rfl, rfl⟩ := mapped
  rfl

theorem readIpv6Addr_displayIpv6 (ip : Ipv6Addr) :
    readIpv6Addr (displayIpv6 ip) = some (ip, []) := by
  by_cases mapped : ip.Mapped
  · exact readIpv6Addr_mapped mapped
  · unfold Mapped at mapped
    rw [displayIpv6, if_neg mapped]
    cases found : longestZeroes ip.segments with
    | mk start len =>
      obtain ⟨within, whole⟩ := longestZeroes_spec found
      have eight : ip.segments.length = 8 := rfl
      dsimp only
      split
      next gap =>
        -- as many groups are missing as the run of zeros has
        have missing : 8 - (ip.segments.drop (start + len)).length -
            (ip.segments.take start).length = len := by
          rw [List.length_drop, List.length_take]
          omega
        rw [readIpv6Addr_gap (by rw [List.length_drop, List.length_take]; omega), missing, whole,
          ofSegments_segments]
      next => exact readIpv6Addr_full ip

/-- Fewer than eight groups are no address without a gap. -/
theorem readIpv6Addr_few {segments : List UInt16} {rest : Text} (few : segments.length < 8)
    (stops : StopsGroups rest) (noPoint : '.' ∉ rest) (noGap : rest.take 2 ≠ [':', ':']) :
    readIpv6Addr (displaySegments segments ++ rest) = none := by
  rw [readIpv6Addr, readGroups_displaySegments (Nat.le_of_lt few) stops noPoint]
  have short : segments.length ≠ 8 := Nat.ne_of_lt few
  simp only [short, if_false, Bool.false_eq_true]
  split
  next => exact absurd rfl noGap
  next => rfl

theorem displaySegments_concat {segments : List UInt16} (some : segments ≠ []) (last : UInt16) :
    displaySegments (segments ++ [last]) = displaySegments segments ++ ':' :: hexGroup last := by
  obtain ⟨first, later, rfl⟩ := List.exists_cons_of_ne_nil some
  rw [List.cons_append, displaySegments_cons, displaySegments_cons, List.flatMap_append,
    List.flatMap_singleton, List.append_assoc]

/-- What stands in front of the last colon is no text of the same address. -/
def CutApart (ip : Ipv6Addr) (text : Text) : Prop :=
  ∃ host last, text = host ++ ':' :: last ∧ ':' ∉ last ∧ readIpv6Addr host ≠ some (ip, [])

theorem cutApart_full (ip : Ipv6Addr) : ip.CutApart (displaySegments ip.segments) := by
  have seven : ip.segments = [ip.s0, ip.s1, ip.s2, ip.s3, ip.s4, ip.s5, ip.s6] ++ [ip.s7] := rfl
  refine ⟨displaySegments [ip.s0, ip.s1, ip.s2, ip.s3, ip.s4, ip.s5, ip.s6], hexGroup ip.s7, ?_,
    notMem_hexGroup (by decide) ip.s7, ?_⟩
  · rw [seven, displaySegments_concat (List.cons_ne_nil _ _)]
  -- seven groups are left
  · have few := @readIpv6Addr_few [ip.s0, ip.s1, ip.s2, ip.s3, ip.s4, ip.s5, ip.s6] []
      (Nat.lt_succ_self 7) stopsGroups_nil List.not_mem_nil nofun
    rw [List.append_nil] at few
    rw [few]
    exact nofun

/-- Behind a gap the groups move up where the last one is cut off, and the first of them is not
zero. -/
theorem cutApart_gap {ip : Ipv6Addr} {left right : List UInt16} {len : Nat} (gap : 0 < len)
    (whole : left ++ List.replicate len 0 ++ right = ip.segments) (other : right.head? ≠ some 0) :
    ip.CutApart (displaySegments left ++ ':' :: ':' :: displaySegments right) := by
  have eight : left.length + len + right.length = 8 := by
    have length := congrArg List.length whole
    rwa [List.length_append, List.length_append, List.length_replicate] at length
  -- with one group at most behind the gap, a colon is left over in front
  have colon : readIpv6Addr (displaySegments left ++ [':']) ≠ some (ip, []) := by
    rw [readIpv6Addr_few (by omega) stopsGroups_colon (by decide) (by decide)]
    exact nofun
  rcases List.eq_nil_or_concat' right with rfl | ⟨front, last, rfl⟩
  · refine ⟨displaySegments left ++ [':'], [], ?_, List.not_mem_nil, colon⟩
    rw [List.append_assoc]
    rfl
  · have absent : ':' ∉ hexGroup last := notMem_hexGroup (by decide) last
    cases front with
    | nil =>
      refine ⟨displaySegments left ++ [':'], hexGroup last, ?_, absent, colon⟩
      rw [List.append_assoc, List.nil_append, displaySegments_cons, List.flatMap_nil,
        List.append_nil]
      rfl
    -- otherwise the gap takes one group more, and what is behind it starts with a zero
    | cons first middle =>
      refine ⟨displaySegments left ++ ':' :: ':' :: displaySegments (first :: middle),
        hexGroup last, ?_, absent, ?_⟩
      · rw [displaySegments_concat (List.cons_ne_nil _ _), List.append_assoc]
        rfl
      · rw [List.length_append, List.length_singleton] at eight
        rw [readIpv6Addr_gap (by omega)]
        intro same
        have missing : 8 - (first :: middle).length - left.length = len + 1 := by omega
        have segments := congrArg segments (Prod.mk.inj (Option.some.inj same)).1
        rw [missing, segments_ofSegments, ← whole, List.replicate_succ', List.append_assoc,
          List.append_assoc, List.append_assoc, List.append_cancel_left_eq,
          List.append_cancel_left_eq] at segments
        · exact other (congrArg some (List.cons.inj segments).1.symm)
        · simp only [List.length_append, List.length_replicate]
          omega

theorem cutApart_mapped {ip : Ipv6Addr} (mapped : ip.Mapped) : ip.CutApart (displayIpv6 ip) := by
  refine ⟨"::ffff".toList, displayIpv4 ⟨(ip.s6 >>> 8).toUInt8, ip.s6.toUInt8,
    (ip.s7 >>> 8).toUInt8, ip.s7.toUInt8⟩, ?_, notMem_displayIpv4 (by decide) (by decide) _, ?_⟩
  · have front : "::ffff:".toList = "::ffff".toList ++ [':'] := by decide
    rw [displayIpv6_of_mapped mapped, front, List.append_assoc, List.singleton_append]
  -- `::ffff` is an address, but one with its last group alone
  · have alone : readIpv6Addr "::ffff".toList = some (⟨0, 0, 0, 0, 0, 0, 0, 0xFFFF⟩, []) := by
      decide
    rw [alone]
    intro same
    cases (Prod.mk.inj (Option.some.inj same)).1
    exact absurd mapped (by unfold Mapped; decide)

/-- No address is read from its own text before the last colon. -/
theorem cutApart_displayIpv6 (ip : Ipv6Addr) : ip.CutApart (displayIpv6 ip) := by
  by_cases mapped : ip.Mapped
  · exact cutApart_mapped mapped
  · unfold Mapped at mapped
    rw [displayIpv6, if_neg mapped]
    cases found : longestZeroes ip.segments with
    | mk start len =>
      obtain ⟨-, whole⟩ := longestZeroes_spec found
      dsimp only
      split
      next gap =>
        have other := longestZeroes_stops found (by omega)
        rw [← List.head?_drop] at other
        exact cutApart_gap (Nat.lt_of_succ_lt gap) whole other
      next => exact cutApart_full ip

end Ipv6Addr

/-! ### Both kinds -/

/-- No IPv6 address starts with an IPv4 one. -/
theorem readIpv4Addr_displayIpv6 (ip : Ipv6Addr) : readIpv4Addr (displayIpv6 ip) = none := by
  by_cases mapped : ip.Mapped
  · rw [Ipv6Addr.displayIpv6_of_mapped mapped]
    exact readIpv4Addr_noDigit (noDigit_cons (by decide))
  · exact readIpv4Addr_noPoint (mt (point_mem_displayIpv6_iff ip).mp mapped)

/-- `FromStr` inverts `Display`. -/
theorem parseIpAddr_displayIp (ip : IpAddr) : parseIpAddr (displayIp ip) = some ip := by
  cases ip with
  | v4 ip =>
    have read := @readIpv4Addr_displayIpv4 ip [] (noDigit_nil 10)
    rw [List.append_nil] at read
    rw [displayIp, parseIpAddr, read]
  | v6 ip =>
    rw [displayIp, parseIpAddr, readIpv4Addr_displayIpv6, Ipv6Addr.readIpv6Addr_displayIpv6]
    rfl

/-! ### How long an address can be -/

theorem length_displayIpv4 (ip : Ipv4Addr) : (displayIpv4 ip).length ≤ 15 := by
  have octet (n : UInt8) : (Nat.toDigits 10 n.toNat).length ≤ 3 :=
    (Nat.length_toDigits_le_iff (by decide) (by decide)).mpr
      (Nat.lt_trans n.toNat_lt (by decide))
  have a := octet ip.a
  have b := octet ip.b
  have c := octet ip.c
  have d := octet ip.d
  simp only [displayIpv4, List.length_append, List.length_cons]
  omega

/-- Every group takes at most four digits and a separator. -/
theorem length_displaySegments (segments : List UInt16) :
    (displaySegments segments).length ≤ 5 * segments.length - 1 := by
  cases segments with
  | nil => exact Nat.le_refl 0
  | cons segment segments =>
    rw [displaySegments_cons, List.length_append, List.length_cons]
    have first := length_hexGroup segment
    have later : (segments.flatMap fun s => ':' :: hexGroup s).length ≤ 5 * segments.length := by
      induction segments with
      | nil => exact Nat.le_refl 0
      | cons next segments ih =>
        have group := length_hexGroup next
        simp only [List.flatMap_cons, List.length_append, List.length_cons]
        omega
    omega

theorem length_displayIp (ip : IpAddr) : (displayIp ip).length ≤ 39 := by
  cases ip with
  | v4 ip =>
    have short := length_displayIpv4 ip
    rw [displayIp]
    omega
  | v6 ip =>
    rw [displayIp]
    -- seven characters in front of an IPv4 address, or at most eight groups
    by_cases mapped : ip.Mapped
    · rw [Ipv6Addr.displayIpv6_of_mapped mapped, List.length_append]
      have front : "::ffff:".toList.length = 7 := by decide
      have short := length_displayIpv4 ⟨(ip.s6 >>> 8).toUInt8, ip.s6.toUInt8,
        (ip.s7 >>> 8).toUInt8, ip.s7.toUInt8⟩
      omega
    · unfold Ipv6Addr.Mapped at mapped
      rw [displayIpv6, if_neg mapped]
      have eight : ip.segments.length = 8 := rfl
      cases found : longestZeroes ip.segments with
      | mk start len =>
        obtain ⟨within, -⟩ := longestZeroes_spec found
        dsimp only
        split
        next gap =>
          have left := length_displaySegments (ip.segments.take start)
          have right := length_displaySegments (ip.segments.drop (start + len))
          rw [List.length_take] at left
          rw [List.length_drop] at right
          simp only [List.length_append, List.length_cons]
          omega
        next =>
          have whole := length_displaySegments ip.segments
          omega

end MCGate
