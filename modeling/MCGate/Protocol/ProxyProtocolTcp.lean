import MCGate.Protocol.ProxyProtocolDatagram
import MCGate.Std.Io

/-!
# PROXY protocol headers from a stream

`read_proxy_protocol_header` reads 16 bytes, then as many as a v2 header declares
or one at a time to the CRLF of a v1 line, and hands what it has to the parser of
whole buffers. Everything it does is described by how far into the stream it has
come: its buffer is `b.take m` and the socket still holds `b.drop m`. The 16 bytes
are read before anything is known about the header, so the two readers agree
exactly on streams that do not start with a shorter one.
-/
namespace MCGate.ProxyProtocol

/-- What an async reader leaves behind: its result, the rest of the stream, and the
arrivals it has not used. -/
abbrev Reading (α : Type) :=
  Poll (Except ProxyProtocolFormatError α) × Bytes × List Arrival

/-- `.await?` -/
def Reading.andThen {α β : Type} (r : Reading α) (f : α → Bytes → List Arrival → Reading β) :
    Reading β :=
  match r with
  | (.pending, stream, left) => (.pending, stream, left)
  | (.ready (.error e), stream, left) => (.ready (.error e), stream, left)
  | (.ready (.ok v), stream, left) => f v stream left

def readExactMore (stream buf : Bytes) (targetLen : Nat) (arrivals : List Arrival) :
    Reading Bytes :=
  if buf.length < targetLen then
    match arrivals with
    | [] => (.pending, stream, [])
    | a :: left =>
      match receive stream (targetLen - buf.length) a with
      | .error e => (.ready (err s!"io error reading PROXY header: {e.message}"), stream, left)
      | .ok ([], stream') =>
        (.ready (err "connection closed before PROXY header completed"), stream', left)
      | .ok (chunk, stream') => readExactMore stream' (buf ++ chunk) targetLen left
  else (.ready (.ok buf), stream, arrivals)

private theorem readExactMore_full {stream buf : Bytes} {targetLen : Nat}
    (full : targetLen ≤ buf.length) (arrivals : List Arrival) :
    readExactMore stream buf targetLen arrivals = (.ready (.ok buf), stream, arrivals) := by
  rw [readExactMore.eq_def, if_neg (Nat.not_lt.mpr full)]

/-- `buf.windows(2).any(|w| w == [0x0D, 0x0A])` -/
def hasCrlf (buf : Bytes) : Bool := (buf.zip buf.tail).any (· = (0x0D, 0x0A))

private theorem readExactMore_length {stream buf : Bytes} {targetLen : Nat}
    {arrivals : List Arrival} {buf' stream' : Bytes} {left : List Arrival}
    (read : readExactMore stream buf targetLen arrivals = (.ready (.ok buf'), stream', left)) :
    targetLen ≤ buf'.length := by
  fun_induction readExactMore stream buf targetLen arrivals with
  | case1 => cases read
  | case2 => cases read
  | case3 => cases read
  | case4 _ _ _ _ _ _ _ _ _ ih => exact ih read
  | case5 stream buf arrivals full =>
    cases read
    omega

/-- The loop of the v1 branch. -/
def readLine (stream buf : Bytes) (arrivals : List Arrival) : Reading Bytes :=
  if hasCrlf buf then (.ready (.ok buf), stream, arrivals)
  else if 108 ≤ buf.length then
    (.ready (err "PROXY v1 header has no CRLF within 107 bytes"), stream, arrivals)
  else match _ : readExactMore stream buf (buf.length + 1) arrivals with
    | (.ready (.ok buf'), stream', left) => readLine stream' buf' left
    | (.ready (.error e), stream', left) => (.ready (.error e), stream', left)
    | (.pending, stream', left) => (.pending, stream', left)
termination_by 108 - buf.length
decreasing_by
  have := readExactMore_length ‹_›
  omega

def readProxyProtocolHeader (stream : Bytes) (arrivals : List Arrival) :
    Reading (Option SocketAddr) :=
  -- sixteen bytes before anything is known about the header
  let start := readExactMore stream [] 16 arrivals
  let header := start.andThen fun buf stream left =>
    if startsWith buf V2_SIGNATURE then
      let addrLen := (fromBeBytes (buf.getD 14 0) (buf.getD 15 0)).toNat
      readExactMore stream buf (16 + addrLen) left
    else if startsWith buf V1_PREFIX then readLine stream buf left
    else (.ready (err "no PROXY protocol v1 or v2 signature"), stream, left)
  header.andThen fun buf stream left =>
    (.ready ((parseProxyProtocolHeader buf).map Prod.fst), stream, left)

/-! ### How far each reader comes -/

private theorem Reading.andThen_ok {α β : Type} {r : Reading α}
    {f : α → Bytes → List Arrival → Reading β} {w : β} {stream : Bytes} {left : List Arrival}
    (done : r.andThen f = (.ready (.ok w), stream, left)) :
    ∃ v stream' left', r = (.ready (.ok v), stream', left') ∧
      f v stream' left' = (.ready (.ok w), stream, left) := by
  simp only [andThen] at done
  split at done
  · cases done
  · cases done
  · exact ⟨_, _, _, rfl, done⟩

/-- Reading a chunk moves on by its length. -/
theorem receive_at {b chunk rest : Bytes} {m cap : Nat} {a : Arrival} (m_le : m ≤ b.length)
    (received : receive (b.drop m) cap a = .ok (chunk, rest)) :
    m + chunk.length ≤ b.length ∧ b.take m ++ chunk = b.take (m + chunk.length) ∧
      rest = b.drop (m + chunk.length) := by
  have split := receive_split received
  have size : (b.take m).length = m := by rw [List.length_take]; omega
  have whole : b = b.take m ++ (chunk ++ rest) := by rw [split, List.take_append_drop]
  have total := congrArg List.length whole
  simp only [List.length_append] at total
  refine ⟨by omega, ?_, ?_⟩
  · rw [List.take_add, ← split, List.take_append_length]
  · rw [← List.drop_drop, ← split, List.drop_append_length]

private theorem readExactMore_ok {b buf stream : Bytes} {m target : Nat}
    {arrivals left : List Arrival} (m_le : m ≤ b.length)
    (read : readExactMore (b.drop m) (b.take m) target arrivals =
      (.ready (.ok buf), stream, left)) :
    max m target ≤ b.length ∧ buf = b.take (max m target) ∧ stream = b.drop (max m target) := by
  have size : (b.take m).length = m := by rw [List.length_take]; omega
  induction arrivals generalizing m with
  | nil =>
    rw [readExactMore, size] at read
    split at read
    · cases read
    · cases read
      rw [Nat.max_eq_left (by omega)]
      exact ⟨m_le, rfl, rfl⟩
  | cons a arrivals ih =>
    rw [readExactMore, size] at read
    split at read
    next more =>
      split at read
      · cases read
      · cases read
      next chunk rest some received =>
        obtain ⟨inside, front, back⟩ := receive_at m_le received
        have fits := receive_length_le received
        rw [front, back] at read
        have later := ih inside read (by rw [List.length_take]; omega)
        rwa [show max (m + chunk.length) target = max m target by omega] at later
    · cases read
      rw [Nat.max_eq_left (by omega)]
      exact ⟨m_le, rfl, rfl⟩

/-- A stream that holds the bytes asked for delivers them, however it is cut. -/
theorem readExactMore_ready {b : Bytes} {m target : Nat} (m_le : m ≤ b.length)
    (there : target ≤ b.length) (sizes : List Nat) (enough : target - m ≤ sizes.length) :
    ∃ left : List Nat, readExactMore (b.drop m) (b.take m) target (sizes.map .ready) =
        (.ready (.ok (b.take (max m target))), b.drop (max m target), left.map .ready) ∧
      sizes.length ≤ left.length + (target - m) := by
  have size : (b.take m).length = m := by rw [List.length_take]; omega
  -- every arrival brings at least one byte, so as many as are missing suffice
  induction sizes generalizing m with
  | nil =>
    simp only [List.length_nil] at enough
    refine ⟨[], ?_, by simp⟩
    rw [readExactMore_full (by omega), Nat.max_eq_left (by omega)]
  | cons n sizes ih =>
    by_cases more : m < target
    · have left : b.drop m ≠ [] := by
        intro none
        have := List.drop_eq_nil_iff.mp none
        omega
      obtain ⟨c, chunk, rest, received⟩ := receive_ready (by omega : 1 ≤ target - m) left n
      obtain ⟨inside, front, back⟩ := receive_at m_le received
      have fits := receive_length_le received
      simp only [List.length_cons] at enough fits inside front back ⊢
      obtain ⟨left, read, used⟩ := ih inside (by omega) (by rw [List.length_take]; omega)
      refine ⟨left, ?_, by omega⟩
      rw [List.map_cons, readExactMore, size, if_pos more, received]
      simp only [front, back, read]
      rw [show max (m + (chunk.length + 1)) target = max m target by omega]
    · refine ⟨n :: sizes, ?_, by omega⟩
      rw [readExactMore_full (by omega), Nat.max_eq_left (by omega)]

private theorem hasCrlf_eq (buf : Bytes) : hasCrlf buf = (findCrlf buf).isSome := by
  fun_induction findCrlf buf with
  | case1 a b rest here => simp [hasCrlf, here]
  | case2 a b rest notHere ih =>
    rw [Option.isSome_map, ← ih]
    simp [hasCrlf, notHere]
  | case3 buf short =>
    rcases buf with _ | ⟨a, _ | ⟨b, rest⟩⟩
    · rfl
    · rfl
    · exact absurd rfl (short a b rest)

private theorem hasCrlf_take {b : Bytes} {m : Nat} :
    hasCrlf (b.take m) ↔ ∃ c, FirstCrlf b c ∧ c + 2 ≤ m := by
  rw [hasCrlf_eq, Option.isSome_iff_exists]
  simp only [findCrlf_eq_some_iff, firstCrlf_take]

theorem FirstCrlf.unique {b : Bytes} {c d : Nat} (left : FirstCrlf b c) (right : FirstCrlf b d) :
    c = d := by
  have := findCrlf_eq_some_iff.mpr left
  rw [findCrlf_eq_some_iff.mpr right] at this
  exact (Option.some.inj this).symm

/-- The line reader stops right after the CRLF, unless it was there from the start. -/
theorem readLine_ok {b buf stream : Bytes} {m : Nat} {arrivals left : List Arrival}
    (m_le : m ≤ b.length)
    (read : readLine (b.drop m) (b.take m) arrivals = (.ready (.ok buf), stream, left)) :
    ∃ c, FirstCrlf b c ∧ max m (c + 2) ≤ b.length ∧ buf = b.take (max m (c + 2)) ∧
      stream = b.drop (max m (c + 2)) := by
  have size : (b.take m).length = m := by rw [List.length_take]; omega
  -- on the room the line has left, which is what the loop itself runs down
  induction room : 108 - m using Nat.strongRecOn generalizing m arrivals with
  | ind room ih =>
    rw [readLine, size] at read
    split at read
    next found =>
      cases read
      obtain ⟨c, first, before⟩ := hasCrlf_take.mp found
      refine ⟨c, first, ?_⟩
      rw [Nat.max_eq_left before]
      exact ⟨m_le, rfl, rfl⟩
    next notFound =>
      split at read
      · cases read
      · split at read
        next buf' stream' left' more =>
          obtain ⟨inside, rfl, rfl⟩ := readExactMore_ok m_le more
          rw [show max m (m + 1) = m + 1 by omega] at inside read
          obtain ⟨c, first, later⟩ := ih (108 - (m + 1)) (by omega) inside read
            (by rw [List.length_take]; omega) rfl
          have ahead : ¬ c + 2 ≤ m := fun before => notFound (hasCrlf_take.mpr ⟨c, first, before⟩)
          rw [show max (m + 1) (c + 2) = max m (c + 2) by omega] at later
          exact ⟨c, first, later⟩
        · cases read
        · cases read

private theorem readLine_ready {b : Bytes} {m c : Nat} (m_le : m ≤ b.length) (first : FirstCrlf b c)
    (inside : c + 2 ≤ 108) (sizes : List Nat) (enough : c + 2 - m ≤ sizes.length) :
    ∃ left : List Nat, readLine (b.drop m) (b.take m) (sizes.map .ready) =
      (.ready (.ok (b.take (max m (c + 2)))), b.drop (max m (c + 2)), left.map .ready) := by
  have size : (b.take m).length = m := by rw [List.length_take]; omega
  have within := first.1.length
  -- on how far the end of the line is ahead of what has been read
  induction ahead : c + 2 - m generalizing m sizes with
  | zero =>
    have found : hasCrlf (b.take m) := hasCrlf_take.mpr ⟨c, first, by omega⟩
    refine ⟨sizes, ?_⟩
    rw [readLine, if_pos found, Nat.max_eq_left (by omega)]
  | succ ahead ih =>
    have notFound : ¬ hasCrlf (b.take m) := by
      rw [hasCrlf_take]
      rintro ⟨d, other, before⟩
      have := first.unique other
      omega
    obtain ⟨left, read, used⟩ := readExactMore_ready m_le (by omega : m + 1 ≤ b.length) sizes
      (by omega)
    rw [show max m (m + 1) = m + 1 by omega] at read
    obtain ⟨left', later⟩ := ih (by omega : m + 1 ≤ b.length) left (by omega)
      (by rw [List.length_take]; omega) (by omega)
    refine ⟨left', ?_⟩
    rw [readLine, if_neg notFound, if_neg (by omega), size, read]
    simp only
    rw [later, show max (m + 1) (c + 2) = max m (c + 2) by omega]

/-! ### The two readers -/

private theorem startsWith_take {b pre : Bytes} {m : Nat} (inside : pre.length ≤ m) :
    startsWith (b.take m) pre ↔ pre <+: b := by
  rw [startsWith_iff, List.prefix_take_iff]
  exact and_iff_left inside

/-- A finished read has taken the header, and at least 16 bytes. -/
theorem readHeader_ok {b rest : Bytes} {addr : Option SocketAddr} {arrivals left : List Arrival}
    (read : readProxyProtocolHeader b arrivals = (.ready (.ok addr), rest, left)) :
    ∃ n, parseProxyProtocolHeader b = .ok (addr, n) ∧ max 16 n ≤ b.length ∧
      rest = b.drop (max 16 n) := by
  obtain ⟨buf, stream, used, framed, parsed⟩ := Reading.andThen_ok read
  obtain ⟨start, stream', used', began, framed⟩ := Reading.andThen_ok framed
  obtain ⟨long, rfl, rfl⟩ := @readExactMore_ok b _ _ 0 _ _ _ (by omega) began
  rw [show max 0 16 = 16 from rfl] at long framed
  simp only [Prod.mk.injEq, Poll.ready.injEq] at parsed
  obtain ⟨found, rfl, -⟩ := parsed
  obtain ⟨n, accepted⟩ : ∃ n, parseProxyProtocolHeader buf = .ok (addr, n) := by
    cases result : parseProxyProtocolHeader buf with
    | error e =>
      rw [result] at found
      cases found
    | ok value =>
      rw [result] at found
      cases found
      exact ⟨value.2, rfl⟩
  -- what was read is cut behind the header, so all of `b` says the same
  split at framed
  next v2 =>
    obtain ⟨inside, rfl, rfl⟩ := readExactMore_ok long framed
    have whole := parse_local.of_take accepted
    rw [parse_v2 ((startsWith_take (by decide)).mp v2) long] at whole
    obtain ⟨size, -⟩ := parseV2_consumed whole
    rw [getD_take (by omega), getD_take (by omega), ← size] at inside ⊢
    exact ⟨n, parse_local.of_take accepted, inside, rfl⟩
  next notV2 =>
    split at framed
    next v1 =>
      obtain ⟨c, first, inside, rfl, rfl⟩ := readLine_ok long framed
      have whole := parse_local.of_take accepted
      rw [parse_v1 ((startsWith_take (by decide)).mp v1)] at whole
      obtain ⟨d, size, -, first', -⟩ := parseV1_crlf whole
      rw [first.unique first', ← size] at inside ⊢
      exact ⟨n, parse_local.of_take accepted, inside, rfl⟩
    · cases framed

/-- A header that the parser finds in a stream of 16 bytes or more is read, however the
stream is cut. -/
theorem readHeader_ready {b : Bytes} {addr : Option SocketAddr} {n : Nat}
    (parsed : parseProxyProtocolHeader b = .ok (addr, n)) (long : 16 ≤ b.length)
    (sizes : List Nat) (enough : b.length ≤ sizes.length) :
    ∃ left, readProxyProtocolHeader b (sizes.map .ready) =
      (.ready (.ok addr), b.drop (max 16 n), left) := by
  obtain ⟨left, start, used⟩ := readExactMore_ready (Nat.zero_le _) long sizes (by omega)
  rw [List.drop_zero, List.take_zero, show max 0 16 = 16 from rfl] at start
  have accepted := parse_local.take parsed (Nat.le_max_right 16 n)
  have within := parse_local.within parsed
  rcases parse_ok parsed with ⟨sig, -, v2⟩ | ⟨pre, v1⟩
  · obtain ⟨size, -⟩ := parseV2_consumed v2
    have isV2 : startsWith (b.take 16) V2_SIGNATURE := (startsWith_take (by decide)).mpr sig
    obtain ⟨left', header, -⟩ := readExactMore_ready long within left (by omega)
    refine ⟨left'.map .ready, ?_⟩
    simp only [readProxyProtocolHeader, start, Reading.andThen, isV2, if_true]
    rw [getD_take (by omega), getD_take (by omega), ← size, header]
    simp only [accepted, Except.map]
  · obtain ⟨c, rfl, inside, first, -⟩ := parseV1_crlf v1
    have isV1 : startsWith (b.take 16) V1_PREFIX := (startsWith_take (by decide)).mpr pre
    have notV2 : ¬ startsWith (b.take 16) V2_SIGNATURE := by
      rw [startsWith_take (by decide)]
      exact not_v2 pre
    obtain ⟨left', header⟩ := readLine_ready long first inside left (by omega)
    refine ⟨left'.map .ready, ?_⟩
    simp only [readProxyProtocolHeader, start, Reading.andThen, isV1, notV2, if_true]
    simp only [Bool.false_eq_true, if_false, header, accepted, Except.map]

/-- On the stream `b` the streaming reader returns what the parser of whole buffers
does, after the bytes that one counts, in whatever pieces the stream arrives. A reader
that is answered as often as the stream has bytes never runs out of answers. -/
structure ReadersAgree (b : Bytes) : Prop where
  parsed : ∀ addr n, parseProxyProtocolHeader b = .ok (addr, n) →
    ∀ sizes : List Nat, b.length ≤ sizes.length →
      ∃ left, readProxyProtocolHeader b (sizes.map .ready) = (.ready (.ok addr), b.drop n, left)
  read : ∀ arrivals addr rest left,
    readProxyProtocolHeader b arrivals = (.ready (.ok addr), rest, left) →
      parseProxyProtocolHeader b = .ok (addr, b.length - rest.length)

theorem readersAgree_iff (b : Bytes) : ReadersAgree b ↔ ¬ ShortHeader b := by
  constructor
  · intro agree short
    obtain ⟨addr, parsed⟩ := parse_shortHeader short
    obtain ⟨left, read⟩ := agree.parsed addr 15 parsed (List.replicate b.length 1) (by simp)
    -- the reader takes sixteen bytes of a header that has fifteen
    obtain ⟨n, -, inside, rest⟩ := readHeader_ok read
    have sizes := congrArg List.length rest
    rw [List.length_drop, List.length_drop] at sizes
    omega
  · intro notShort
    have long : ∀ {addr n}, parseProxyProtocolHeader b = .ok (addr, n) → 16 ≤ n := by
      intro addr n parsed
      by_contra short
      exact notShort (shortHeader_of_parse parsed (by omega))
    refine ⟨fun addr n parsed sizes enough => ?_, fun arrivals addr rest left read => ?_⟩
    · have size := long parsed
      have within := parse_local.within parsed
      have read := readHeader_ready parsed (by omega) sizes enough
      rwa [Nat.max_eq_right size] at read
    · obtain ⟨n, parsed, inside, rfl⟩ := readHeader_ok read
      have size := long parsed
      rw [parsed, List.length_drop]
      congr
      omega

/-- The health check that the parser's own test uses, followed by a first byte of the
handshake, loses that byte. -/
theorem unknown_header_readers_disagree :
    ¬ ReadersAgree (literal "PROXY UNKNOWN\r\n" ++ [0x10]) := by
  intro agree
  obtain ⟨left, read⟩ := agree.parsed none 15 (by decide) (List.replicate 16 16) (by decide)
  obtain ⟨n, -, -, rest⟩ := readHeader_ok read
  have lost := congrArg List.length rest
  rw [List.length_drop, List.length_drop] at lost
  simp only [List.length_append, show (literal "PROXY UNKNOWN\r\n").length = 15 from rfl,
    List.length_singleton] at lost
  omega

end MCGate.ProxyProtocol
