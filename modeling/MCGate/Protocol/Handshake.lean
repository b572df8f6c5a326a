import Mathlib.Data.List.DropRight
import MCGate.Protocol.VarInt
import MCGate.Std.Net

/-!
# The handshake parser

`tryParse` embeds `handshake::try_parse`. Its bounds are checked against the
whole buffer while the frame end is computed from the declared length, so the
wire layout that it accepts is stated on its own (`HandshakeFields`): a length
VarInt and five fields. `tryParse_complete_iff` connects the two. Whether the
fields end inside the declared frame is a separate question, and it decides
whether the frame alone decides the parse.
-/
namespace MCGate

open Reader

def MAX_HANDSHAKE_FRAME_BYTES : Int32 := 512

structure Handshake where
  protocolVersion : Int32
  host : Text
  port : UInt16
  nextState : Int32
  /-- The length prefix and the declared payload, exactly as received. -/
  rawFrame : Bytes
  deriving DecidableEq, Repr

inductive ParseOutcome where
  | complete (h : Handshake)
  | incomplete
  | malformed (reason : String)
  deriving DecidableEq, Repr

/-- What `try_parse` makes of the host bytes: cut at the first NUL (Forge markers),
then without trailing DNS root dots. -/
def handshakeHost (bytes : Bytes) : Text :=
  ((fromUtf8Lossy bytes).takeWhile (· ≠ '\x00')).rdropWhile (· = '.')

/-- The part of `try_parse` after the frame is known to be buffered. -/
def parseFields (buf : Bytes) (headerLen length : Nat) : ParseOutcome :=
  match readVarInt (buf.drop headerLen) with
  | .error _ => .malformed "bad packet id"
  | .ok (packetId, consumed) =>
    let pos := headerLen + consumed
    if packetId ≠ 0 then
      .malformed s!"first packet id was {packetId}, expected handshake (0)"
    else match readVarInt (buf.drop pos) with
    | .error _ => .malformed "bad protocol version"
    | .ok (protocolVersion, consumed) =>
      let pos := pos + consumed
      match readVarInt (buf.drop pos) with
      | .error _ => .malformed "bad host length"
      | .ok (hostLength, consumed) =>
        let pos := pos + consumed
        if ¬ (0 ≤ hostLength ∧ hostLength ≤ 255) then
          .malformed s!"bogus host length {hostLength}"
        else
          let hostLength := hostLength.toNatClampNeg
          -- the bound is the end of the buffer, not the end of the declared frame
          if buf.length < pos + hostLength + 2 then
            .malformed "host/port fields exceed declared frame length"
          else
            let host := handshakeHost ((buf.drop pos).take hostLength)
            let pos := pos + hostLength
            let port := fromBeBytes (buf.getD pos 0) (buf.getD (pos + 1) 0)
            let pos := pos + 2
            match readVarInt (buf.drop pos) with
            | .error _ => .malformed "bad next state"
            -- where the next state ends is not compared with the frame either
            | .ok (nextState, _) =>
              .complete ⟨protocolVersion, host, port, nextState, buf.take (headerLen + length)⟩

def tryParse (buf : Bytes) : ParseOutcome :=
  match readVarInt buf with
  | .error .incomplete => .incomplete
  | .error .tooBig => .malformed "bogus handshake length"
  | .ok (length, headerLen) =>
    if ¬ (0 ≤ length ∧ length ≤ MAX_HANDSHAKE_FRAME_BYTES) then
      .malformed s!"bogus handshake length {length}"
    else
      let length := length.toNatClampNeg
      if buf.length - headerLen < length then .incomplete
      else parseFields buf headerLen length

/-! ### The accepted layout -/

/-- The bytes of a handshake on the wire, field by field: a length, then packet id 0,
protocol version, host with its length, port and next state. -/
structure HandshakeFields where
  lengthEnc : Bytes
  idEnc : Bytes
  versionEnc : Bytes
  hostLengthEnc : Bytes
  host : Bytes
  portHi : UInt8
  portLo : UInt8
  nextEnc : Bytes
  length : Int32
  version : Int32
  hostLength : Int32
  next : Int32
  length_reads : Reads readVarInt lengthEnc length
  length_range : 0 ≤ length ∧ length ≤ MAX_HANDSHAKE_FRAME_BYTES
  id_reads : Reads readVarInt idEnc 0
  version_reads : Reads readVarInt versionEnc version
  hostLength_reads : Reads readVarInt hostLengthEnc hostLength
  hostLength_range : 0 ≤ hostLength ∧ hostLength ≤ 255
  host_length : host.length = hostLength.toNatClampNeg
  next_reads : Reads readVarInt nextEnc next

namespace HandshakeFields

/-- The five fields after the length. -/
def body (f : HandshakeFields) : Bytes :=
  f.idEnc ++ (f.versionEnc ++ (f.hostLengthEnc ++ (f.host ++ (f.portHi :: f.portLo :: f.nextEnc))))

def bytes (f : HandshakeFields) : Bytes := f.lengthEnc ++ f.body

/-- Where the declared frame ends. -/
def frameEnd (f : HandshakeFields) : Nat := f.lengthEnc.length + f.length.toNatClampNeg

def handshake (f : HandshakeFields) (rawFrame : Bytes) : Handshake :=
  ⟨f.version, handshakeHost f.host, fromBeBytes f.portHi f.portLo, f.next, rawFrame⟩

end HandshakeFields

/-- The buffer holds all of the declared frame and all of the fields. -/
structure HoldsHandshake (buf : Bytes) (f : HandshakeFields) : Prop where
  fields : f.bytes <+: buf
  frame : f.frameEnd ≤ buf.length

/-- What follows a field is what its length skips. -/
private theorem drop_field {buf : Bytes} {pos : Nat} (enc rest : Bytes)
    (at_pos : buf.drop pos = enc ++ rest) : buf.drop (pos + enc.length) = rest := by
  rw [← List.drop_drop, at_pos, List.drop_append_length]

private theorem getD_of_drop {buf rest : Bytes} {b : UInt8} {pos : Nat}
    (at_pos : buf.drop pos = b :: rest) : buf.getD pos 0 = b := by
  have first : (buf.drop pos).getD 0 0 = b := by rw [at_pos]; rfl
  simpa [List.getD_eq_getElem?_getD, List.getElem?_drop] using first

private theorem drop_two (buf : Bytes) (pos : Nat) (room : pos + 2 ≤ buf.length) :
    buf.drop pos = buf.getD pos 0 :: buf.getD (pos + 1) 0 :: buf.drop (pos + 2) := by
  rw [List.drop_eq_getElem_cons (by omega), List.drop_eq_getElem_cons (i := pos + 1) (by omega),
    List.getD_eq_getElem?_getD, List.getD_eq_getElem?_getD, List.getElem?_eq_getElem (by omega),
    List.getElem?_eq_getElem (by omega)]
  rfl

/-- On a buffer that starts with the fields, the parser reads them and nothing else. -/
theorem parseFields_of_fields (f : HandshakeFields) (tail : Bytes) (length : Nat) :
    parseFields (f.bytes ++ tail) f.lengthEnc.length length =
      .complete (f.handshake ((f.bytes ++ tail).take (f.lengthEnc.length + length))) := by
  generalize whole : f.bytes ++ tail = buf
  have at_id : buf.drop f.lengthEnc.length = f.idEnc ++ (f.versionEnc ++ (f.hostLengthEnc ++
      (f.host ++ (f.portHi :: f.portLo :: (f.nextEnc ++ tail))))) := by
    rw [← whole, HandshakeFields.bytes, List.append_assoc, List.drop_append_length]
    simp [HandshakeFields.body]
  -- each field is skipped by its own length, which brings the reader to the next one
  have at_version := drop_field _ _ at_id
  have at_hostLength := drop_field _ _ at_version
  have at_host := drop_field _ _ at_hostLength
  have at_port := drop_field _ _ at_host
  have at_portLo := drop_field [f.portHi] _ at_port
  have at_next := drop_field [f.portHi, f.portLo] (f.nextEnc ++ tail) at_port
  simp only [List.length_cons, List.length_nil, Nat.zero_add, Nat.reduceAdd] at at_portLo at_next
  have room : ¬ buf.length < f.lengthEnc.length + f.idEnc.length + f.versionEnc.length +
      f.hostLengthEnc.length + f.hostLength.toNatClampNeg + 2 := by
    have := congrArg List.length at_port
    simp only [List.length_drop, List.length_cons, ← f.host_length] at this ⊢
    omega
  simp only [parseFields, at_id, f.id_reads.append readVarInt_local, ne_eq, not_true_eq_false,
    if_false, at_version, f.version_reads.append readVarInt_local, at_hostLength,
    f.hostLength_reads.append readVarInt_local, f.hostLength_range, and_self, room]
  rw [at_host, ← f.host_length, getD_of_drop at_port, getD_of_drop at_portLo,
    List.take_append_length, at_next, f.next_reads.append readVarInt_local]
  rfl

/-- A VarInt read at a position splits the rest of the buffer there. -/
private theorem readVarInt_at {buf : Bytes} {pos n : Nat} {v : Int32}
    (read : readVarInt (buf.drop pos) = .ok (v, n)) :
    ∃ enc, Reads readVarInt enc v ∧ enc.length = n ∧ buf.drop pos = enc ++ buf.drop (pos + n) := by
  obtain ⟨enc, rest, split, len, reads⟩ := readVarInt_local.split read
  refine ⟨enc, reads, len, ?_⟩
  rw [← List.drop_drop, split, ← len, List.drop_append_length]

/-- Whatever the parser accepts is a handshake laid out field by field. -/
theorem fields_of_parseFields {buf enc : Bytes} {len : Int32} {h : Handshake}
    (reads : Reads readVarInt enc len) (range : 0 ≤ len ∧ len ≤ MAX_HANDSHAKE_FRAME_BYTES)
    (front : enc <+: buf)
    (parsed : parseFields buf enc.length len.toNatClampNeg = .complete h) :
    ∃ f : HandshakeFields, f.lengthEnc = enc ∧ f.length = len ∧ f.bytes <+: buf ∧
      h = f.handshake (buf.take f.frameEnd) := by
  simp only [parseFields] at parsed
  split at parsed
  · cases parsed
  next id idN idRead =>
  split at parsed
  · cases parsed
  next idZero =>
  split at parsed
  · cases parsed
  next version versionN versionRead =>
  split at parsed
  · cases parsed
  next hostLength hostLengthN hostLengthRead =>
  split at parsed
  · cases parsed
  next hostRange =>
  split at parsed
  · cases parsed
  next room =>
  split at parsed
  · cases parsed
  next next nextN nextRead =>
  -- every check passed: collect the bytes that each of the four VarInts was read from
  obtain ⟨idEnc, idReads, rfl, at_id⟩ := readVarInt_at idRead
  obtain ⟨versionEnc, versionReads, rfl, at_version⟩ := readVarInt_at versionRead
  obtain ⟨hostLengthEnc, hostLengthReads, rfl, at_hostLength⟩ := readVarInt_at hostLengthRead
  obtain ⟨nextEnc, nextReads, rfl, at_next⟩ := readVarInt_at nextRead
  generalize hostPos : enc.length + idEnc.length + versionEnc.length + hostLengthEnc.length = pos at *
  have at_host : buf.drop pos = (buf.drop pos).take hostLength.toNatClampNeg ++
      buf.drop (pos + hostLength.toNatClampNeg) := by
    rw [← List.drop_drop, List.take_append_drop]
  refine ⟨{
    lengthEnc := enc, idEnc, versionEnc, hostLengthEnc, nextEnc
    host := (buf.drop pos).take hostLength.toNatClampNeg
    portHi := buf.getD (pos + hostLength.toNatClampNeg) 0
    portLo := buf.getD (pos + hostLength.toNatClampNeg + 1) 0
    length := len, version, hostLength, next
    length_reads := reads, length_range := range
    id_reads := by simpa [Classical.not_not.mp idZero] using idReads
    version_reads := versionReads, hostLength_reads := hostLengthReads
    hostLength_range := Classical.not_not.mp hostRange
    host_length := by simp only [List.length_take, List.length_drop]; omega
    next_reads := nextReads }, rfl, rfl, ?_, ?_⟩
  · obtain ⟨rest, whole⟩ := front
    have at_start : buf = enc ++ buf.drop enc.length := by
      rw [← whole, List.drop_append_length]
    refine ⟨buf.drop (pos + hostLength.toNatClampNeg + 2 + nextEnc.length), ?_⟩
    have at_port := drop_two buf (pos + hostLength.toNatClampNeg) (by omega)
    conv_rhs => rw [at_start, at_id, at_version, at_hostLength, at_host, at_port, at_next]
    simp [HandshakeFields.bytes, HandshakeFields.body]
  · simp only [ParseOutcome.complete.injEq] at parsed
    exact parsed.symm

/-! ### The parser accepts exactly this layout -/

theorem tryParse_of_length {enc rest : Bytes} {len : Int32} (reads : Reads readVarInt enc len)
    (range : 0 ≤ len ∧ len ≤ MAX_HANDSHAKE_FRAME_BYTES) :
    tryParse (enc ++ rest) =
      if rest.length < len.toNatClampNeg then .incomplete
      else parseFields (enc ++ rest) enc.length len.toNatClampNeg := by
  have size : (enc ++ rest).length - enc.length = rest.length := by
    rw [List.length_append, Nat.add_sub_cancel_left]
  simp only [tryParse, reads.append readVarInt_local, range, and_self, not_true_eq_false, if_false,
    size]

/-- `try_parse` accepts a buffer exactly when it holds the declared frame and the fields. -/
theorem tryParse_complete_iff {buf : Bytes} {h : Handshake} :
    tryParse buf = .complete h ↔
      ∃ f, HoldsHandshake buf f ∧ h = f.handshake (buf.take f.frameEnd) := by
  constructor
  · intro parsed
    cases read : readVarInt buf with
    | error e => cases e <;> simp [tryParse, read] at parsed
    | ok x =>
      obtain ⟨len, n⟩ := x
      obtain ⟨enc, rest, rfl, rfl, reads⟩ := readVarInt_local.split read
      by_cases range : 0 ≤ len ∧ len ≤ MAX_HANDSHAKE_FRAME_BYTES
      · rw [tryParse_of_length reads range] at parsed
        split at parsed
        · cases parsed
        next frame =>
          obtain ⟨f, rfl, rfl, fields, rfl⟩ :=
            fields_of_parseFields reads range (List.prefix_append _ _) parsed
          refine ⟨f, ⟨fields, ?_⟩, rfl⟩
          simp only [HandshakeFields.frameEnd, List.length_append]
          omega
      · simp [tryParse, read, range] at parsed
  · rintro ⟨f, ⟨⟨tail, rfl⟩, frame⟩, rfl⟩
    have split : f.bytes ++ tail = f.lengthEnc ++ (f.body ++ tail) := by
      rw [HandshakeFields.bytes, List.append_assoc]
    have enough : ¬ (f.body ++ tail).length < f.length.toNatClampNeg := by
      rw [split, List.length_append, HandshakeFields.frameEnd] at frame
      omega
    rw [split, tryParse_of_length f.length_reads f.length_range, if_neg enough, ← split,
      parseFields_of_fields]
    rfl

/-- The layout of a buffer is determined: no bytes start with two handshakes. -/
theorem HandshakeFields.unique {f g : HandshakeFields} {r s : Bytes}
    (same : f.bytes ++ r = g.bytes ++ s) : f = g := by
  simp only [HandshakeFields.bytes, HandshakeFields.body, List.append_assoc] at same
  -- field by field: the same encoding stands in front, so the rests agree as well
  obtain ⟨lengthEnc, same, length⟩ := f.length_reads.unique readVarInt_local g.length_reads same
  obtain ⟨idEnc, same, -⟩ := f.id_reads.unique readVarInt_local g.id_reads same
  obtain ⟨versionEnc, same, version⟩ := f.version_reads.unique readVarInt_local g.version_reads same
  obtain ⟨hostLengthEnc, same, hostLength⟩ :=
    f.hostLength_reads.unique readVarInt_local g.hostLength_reads same
  obtain ⟨host, same⟩ := List.append_inj same (by rw [f.host_length, g.host_length, hostLength])
  simp only [List.cons_append, List.cons.injEq] at same
  obtain ⟨portHi, portLo, same⟩ := same
  obtain ⟨nextEnc, -, next⟩ := f.next_reads.unique readVarInt_local g.next_reads same
  cases f
  cases g
  simp_all

/-! ### When the declared frame decides the parse -/

/-- The fields of the handshake run past the end of the declared frame, into bytes
that belong to whatever follows it. -/
def Overruns (buf : Bytes) : Prop := ∃ f, HoldsHandshake buf f ∧ f.frameEnd < f.bytes.length

/-- The buffer starts with a declared frame that holds all the fields. -/
def StartsWithHandshake (buf : Bytes) : Prop :=
  ∃ f, HoldsHandshake buf f ∧ f.bytes.length ≤ f.frameEnd

/-- Everything but the raw frame agrees. -/
def SameFields (h h' : Handshake) : Prop :=
  h'.protocolVersion = h.protocolVersion ∧ h'.host = h.host ∧ h'.port = h.port ∧
    h'.nextState = h.nextState

/-- The parse is decided by the declared frame alone: the fields lie inside it, and
the frame is parsed to the same fields on its own and before any other bytes. -/
def FrameDecides (buf : Bytes) : Prop :=
  ∀ h, tryParse buf = .complete h →
    StartsWithHandshake buf ∧
    (∃ h', tryParse h.rawFrame = .complete h' ∧ SameFields h h') ∧
    ∀ rest, ∃ h', tryParse (h.rawFrame ++ rest) = .complete h' ∧ SameFields h h'

private theorem HandshakeFields.sameFields (f : HandshakeFields) (raw raw' : Bytes) :
    SameFields (f.handshake raw) (f.handshake raw') := ⟨rfl, rfl, rfl, rfl⟩

/-- Fields inside the frame are still there when the frame is followed by other bytes. -/
theorem HoldsHandshake.frame_alone {buf : Bytes} {f : HandshakeFields} (holds : HoldsHandshake buf f)
    (inside : f.bytes.length ≤ f.frameEnd) (rest : Bytes) :
    HoldsHandshake (buf.take f.frameEnd ++ rest) f where
  fields := by
    refine List.IsPrefix.trans ?_ (List.prefix_append _ _)
    exact List.prefix_of_prefix_length_le holds.fields (List.take_prefix _ _)
      (by rw [List.length_take, Nat.min_eq_left holds.frame]; exact inside)
  frame := by
    rw [List.length_append, List.length_take, Nat.min_eq_left holds.frame]
    omega

/-- Cut before the end of its fields, a handshake is not accepted. -/
theorem HoldsHandshake.cut {buf : Bytes} {f : HandshakeFields} (holds : HoldsHandshake buf f)
    {n : Nat} (short : n < f.bytes.length) (h : Handshake) : tryParse (buf.take n) ≠ .complete h := by
  intro parsed
  obtain ⟨g, ⟨fields, -⟩, -⟩ := tryParse_complete_iff.mp parsed
  -- an accepted cut would hold the same fields, but it is shorter than they are
  obtain ⟨r, hr⟩ := holds.fields
  obtain ⟨s, hs⟩ := fields.trans (List.take_prefix n buf)
  have same : f = g := HandshakeFields.unique (hr.trans hs.symm)
  subst same
  have := fields.length_le
  rw [List.length_take] at this
  omega

/-- The declared frame decides the parse exactly when the fields do not run past it. -/
theorem frameDecides_iff_not_overruns (buf : Bytes) : FrameDecides buf ↔ ¬ Overruns buf := by
  constructor
  -- the raw frame is cut inside the fields, so it is not accepted on its own
  · rintro decides ⟨f, holds, past⟩
    obtain ⟨-, ⟨h', again, -⟩, -⟩ := decides _ (tryParse_complete_iff.mpr ⟨f, holds, rfl⟩)
    exact holds.cut past h' again
  · intro within h parsed
    obtain ⟨f, holds, rfl⟩ := tryParse_complete_iff.mp parsed
    have inside : f.bytes.length ≤ f.frameEnd := by
      by_contra past
      exact within ⟨f, holds, by omega⟩
    have again : ∀ rest, ∃ h', tryParse (buf.take f.frameEnd ++ rest) = .complete h' ∧
        SameFields (f.handshake (buf.take f.frameEnd)) h' := fun rest =>
      ⟨_, tryParse_complete_iff.mpr ⟨f, holds.frame_alone inside rest, rfl⟩, f.sameFields _ _⟩
    have alone := again []
    rw [List.append_nil] at alone
    exact ⟨⟨f, holds, inside⟩, alone, again⟩

/-- A one-byte frame with the rest of the handshake behind it: protocol 763, host `a`,
port 25565 and next state 2 are all read from the following packet. -/
def overrunning : Bytes := [0x01, 0x00, 0xFB, 0x05, 0x01, 0x61, 0x63, 0xDD, 0x02]

theorem overrunning_not_decided_by_frame :
    tryParse overrunning = .complete ⟨763, ['a'], 25565, 2, [0x01, 0x00]⟩ ∧
      tryParse [0x01, 0x00] = .malformed "bad protocol version" ∧ ¬ FrameDecides overrunning := by
  have parsed : tryParse overrunning = .complete ⟨763, ['a'], 25565, 2, [0x01, 0x00]⟩ := by decide
  have alone : tryParse [0x01, 0x00] = .malformed "bad protocol version" := by decide
  refine ⟨parsed, alone, fun decides => ?_⟩
  obtain ⟨-, ⟨h', again, -⟩, -⟩ := decides _ parsed
  rw [alone] at again
  cases again

/-! ### How the outcome changes as bytes arrive

An incomplete parse is decided by at most 517 bytes and stays decided. An accepted
handshake stays accepted; a rejected one can turn into an accepted one only when
its fields overrun the frame. -/

private theorem parseFields_ne_incomplete (buf : Bytes) (headerLen length : Nat) :
    parseFields buf headerLen length ≠ .incomplete := by
  intro parsed
  simp only [parseFields] at parsed
  repeat' split at parsed
  all_goals cases parsed

theorem tryParse_incomplete_iff {buf : Bytes} :
    tryParse buf = .incomplete ↔ readVarInt buf = .error .incomplete ∨
      ∃ len n, readVarInt buf = .ok (len, n) ∧ (0 ≤ len ∧ len ≤ MAX_HANDSHAKE_FRAME_BYTES) ∧
        buf.length - n < len.toNatClampNeg := by
  cases read : readVarInt buf with
  | error e => cases e <;> simp [tryParse, read]
  | ok x =>
    obtain ⟨len, n⟩ := x
    by_cases range : 0 ≤ len ∧ len ≤ MAX_HANDSHAKE_FRAME_BYTES
    · by_cases short : buf.length - n < len.toNatClampNeg
      · simp [tryParse, read, range, short]
      · simp [tryParse, read, range, short, parseFields_ne_incomplete]
    · simp [tryParse, read, range]

private theorem length_le_of_range {len : Int32}
    (range : 0 ≤ len ∧ len ≤ MAX_HANDSHAKE_FRAME_BYTES) : len.toNatClampNeg ≤ 512 := by
  have upper := Int32.le_iff_toInt_le.mp range.2
  have max : MAX_HANDSHAKE_FRAME_BYTES.toInt = 512 := by decide
  simp only [Int32.toNatClampNeg]
  omega

theorem tryParse_incomplete_length {buf : Bytes} (parsed : tryParse buf = .incomplete) :
    buf.length < 517 := by
  rcases tryParse_incomplete_iff.mp parsed with failed | ⟨len, n, read, range, short⟩
  · have := (readVarInt_incomplete_iff.mp failed).2
    omega
  · have := readVarInt_size read
    have := length_le_of_range range
    omega

theorem tryParse_incomplete_front {buf r : Bytes} (parsed : tryParse (buf ++ r) = .incomplete) :
    tryParse buf = .incomplete := by
  rw [tryParse_incomplete_iff] at parsed ⊢
  by_cases waiting : readVarInt buf = .error .incomplete
  · exact Or.inl waiting
  · rw [readVarInt_append waiting, List.length_append] at parsed
    rcases parsed with failed | ⟨len, n, read, range, short⟩
    · exact Or.inl failed
    · exact Or.inr ⟨len, n, read, range, by omega⟩

theorem tryParse_complete_append {buf : Bytes} {h : Handshake} (parsed : tryParse buf = .complete h)
    (r : Bytes) : tryParse (buf ++ r) = .complete h := by
  obtain ⟨f, ⟨fields, frame⟩, rfl⟩ := tryParse_complete_iff.mp parsed
  refine tryParse_complete_iff.mpr ⟨f, ⟨fields.trans (List.prefix_append _ _), ?_⟩, ?_⟩
  · rw [List.length_append]
    omega
  · rw [List.take_append_of_le_length frame]

/-- A frame that is rejected once it has arrived is accepted later only if its fields
are read from the bytes behind it. -/
theorem overruns_of_late_accept {buf r : Bytes} {reason : String} {h : Handshake}
    (rejected : tryParse buf = .malformed reason) (accepted : tryParse (buf ++ r) = .complete h) :
    Overruns (buf ++ r) := by
  obtain ⟨f, holds, -⟩ := tryParse_complete_iff.mp accepted
  refine ⟨f, holds, ?_⟩
  by_contra inside
  have decided : tryParse buf ≠ .incomplete := by rw [rejected]; simp
  rw [Ne, tryParse_incomplete_iff, not_or] at decided
  obtain ⟨tail, whole⟩ := holds.fields
  -- the declared frame has arrived: otherwise `buf` would still be incomplete
  have read : readVarInt buf = .ok (f.length, f.lengthEnc.length) := by
    rw [← readVarInt_append decided.1 r, ← whole, HandshakeFields.bytes, List.append_assoc,
      f.length_reads.append readVarInt_local]
  have frame : f.frameEnd ≤ buf.length := by
    have le := readVarInt_local.within read
    by_contra short
    refine decided.2 ⟨_, _, read, f.length_range, ?_⟩
    rw [HandshakeFields.frameEnd] at short
    omega
  have fields : f.bytes <+: buf :=
    List.prefix_of_prefix_length_le holds.fields (List.prefix_append _ _) (by omega)
  have again := tryParse_complete_iff.mpr ⟨f, ⟨fields, frame⟩, rfl⟩
  rw [rejected] at again
  cases again

/-- Once the declared frame is there, the parse is decided. -/
theorem HoldsHandshake.decided {buf : Bytes} {f : HandshakeFields} (holds : HoldsHandshake buf f)
    {n : Nat} (frame : f.frameEnd ≤ n) : tryParse (buf.take n) ≠ .incomplete := by
  obtain ⟨tail, whole⟩ := holds.fields
  have size := holds.frame
  obtain ⟨rest, split⟩ : f.lengthEnc <+: buf.take n := by
    refine List.prefix_of_prefix_length_le ⟨f.body ++ tail, ?_⟩ (List.take_prefix n buf) ?_
    · rw [← List.append_assoc, ← HandshakeFields.bytes, whole]
    · rw [List.length_take]
      rw [HandshakeFields.frameEnd] at frame size
      omega
  have enough : ¬ rest.length < f.length.toNatClampNeg := by
    have := congrArg List.length split
    rw [List.length_append, List.length_take] at this
    rw [HandshakeFields.frameEnd] at frame size
    omega
  rw [← split, tryParse_of_length f.length_reads f.length_range, if_neg enough]
  exact parseFields_ne_incomplete _ _ _

theorem HandshakeFields.frameEnd_bounds (f : HandshakeFields) :
    1 ≤ f.frameEnd ∧ f.frameEnd ≤ 517 := by
  -- at most five bytes of length and 512 of payload
  have size := readVarInt_size f.length_reads
  have := length_le_of_range f.length_range
  rw [HandshakeFields.frameEnd]
  omega

theorem HandshakeFields.bytes_length_le (f : HandshakeFields) : f.bytes.length ≤ 282 := by
  have host : f.hostLength.toNatClampNeg ≤ 255 := by
    have upper := Int32.le_iff_toInt_le.mp f.hostLength_range.2
    have max : (255 : Int32).toInt = 255 := by decide
    simp only [Int32.toNatClampNeg]
    omega
  have := readVarInt_size f.length_reads
  have := readVarInt_size f.id_reads
  have := readVarInt_size f.version_reads
  have := readVarInt_size f.hostLength_reads
  have := readVarInt_size f.next_reads
  simp only [HandshakeFields.bytes, HandshakeFields.body, List.length_append, List.length_cons,
    f.host_length]
  omega

end MCGate
