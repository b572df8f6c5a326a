import MCGate.Net.LoginStream
import MCGate.Net.ServerDeadline

/-!
# What a connection knows

All that a connection comes to know of its client, the address behind a load balancer, the
handshake and the player, is what the stream says that the client sent (`Conn.Reads`). Neither
the chunks that the stream arrives in nor what other connections do changes it.
-/
namespace MCGate

open Reader ProxyProtocol BufferedStream

namespace Server

open Machine Threads

/-- What has been decoded of the login, from the first byte on. -/
def LoggedIn.Reads (peer : SocketAddr) (stream : Bytes) (l : LoggedIn) : Prop :=
  ∃ expects loginStart rest,
    (decodeLogin expects peer).run stream = some ((⟨l.addr, l.handshake⟩, loginStart), rest) ∧
      l.player = parseLoginStart loginStart

/-- What a connection knows, it has from the stream it was accepted with. -/
def Conn.Reads (peer : SocketAddr) (stream : Bytes) : Conn → Prop
  | .accepted p s | .checkingBan p s _ | .acquiring p s _ _ => p = peer ∧ s = stream
  | .limitingRate o | .readingHeader o _ => o.peer = peer ∧ o.stream = stream
  | .checkingBanAgain k | .reserving k =>
    (decodeSource k.cfg.proxyProtocol peer).run stream = some (k.addr, k.stream)
  | .readingHandshake a =>
    (decodeSource a.cfg.proxyProtocol peer).run stream = some (a.addr, a.stream.remainder)
  | .routing a handshake _ _ =>
    (decodeHello a.cfg.proxyProtocol peer).run stream =
      some (⟨a.addr, handshake⟩, a.stream.remainder)
  | .readingStatusRequest r | .checkingLimit r | .readingLoginStart r =>
    (decodeHello r.cfg.proxyProtocol peer).run stream =
      some (⟨r.addr, r.handshake⟩, r.stream.remainder)
  -- the request is a frame behind the handshake, as a Login Start is
  | .answeringStatus r request =>
    (decodeLogin r.cfg.proxyProtocol peer).run stream =
        some ((⟨r.addr, r.handshake⟩, request), r.stream.remainder) ∧
      isStatusRequest request = true
  | .provenReal r player =>
    ∃ loginStart, (decodeLogin r.cfg.proxyProtocol peer).run stream =
        some ((⟨r.addr, r.handshake⟩, loginStart), r.stream.remainder) ∧
      player = parseLoginStart loginStart
  | .resolving l | .dialing l _ | .counting l _ | .timing l _ | .registeringVoice l _
  | .sniffing l _ _ => l.Reads peer stream
  | .relaying v | .discounting v | .unlisting v | .recording v _ _ | .unregisteringVoice v =>
    v.toLoggedIn.Reads peer stream
  | .offending _ _ _ _ | .dropping _ _ _ | .closing _ _ | .closed _ => True

variable {s s' : Shared} {c c' : Conn} {choice : Choice} {toLowercase : Text → Text}
  {peer : SocketAddr} {stream : Bytes}

private theorem step_reads (reads : c.Reads peer stream)
    (stepped : c.Step toLowercase s choice s' c') : c'.Reads peer stream := by
  cases stepped with
  | header o deadline source rest left expected read =>
    obtain ⟨rfl, rfl⟩ := reads
    rw [Conn.Reads, expected]
    exact readHeader_decodes read o.peer
  | direct o deadline unexpected =>
    obtain ⟨rfl, rfl⟩ := reads
    rw [Conn.Reads, unexpected]
    exact decodeSource_false.mpr ⟨rfl, rfl⟩
  | route a rest handshake index route read =>
    exact decodeHello_eq_some.mpr ⟨_, reads, readHandshake_decodes read⟩
  | request r rest frame read asks =>
    exact ⟨decodeLogin_eq_some.mpr ⟨_, reads, readFrame_decodes read⟩, asks⟩
  | loginStart r rest frame read =>
    exact ⟨frame, decodeLogin_eq_some.mpr ⟨_, reads, readFrame_decodes read⟩, rfl⟩
  | prove r player =>
    obtain ⟨loginStart, decoded, parsed⟩ := reads
    exact ⟨_, loginStart, _, decoded, parsed⟩
  | accept | pass | skipBan | uncapped | count | fits | exceeds | undo | enter | paced | passClient
  | skipClient | reserve | status | login | unspent | resolve | connect | failOver | opened | time
  | noVoice | registerVoice | nameless | list | relayed | discount | unlisted | unlist | record =>
    exact reads
  | _ => trivial

/-- At the end of every run a connection knows what its own stream says, whatever the others
have done. -/
theorem run_reads {gate last : Gate} {i : Nat} {events : List (Event Party Choice)}
    (accepted : gate.threads[i]? = some (.connection (.accepted peer stream)))
    (ran : run (Gate.step toLowercase) gate events = some last) {conn : Conn}
    (at_last : last.threads[i]? = some (.connection conn)) : conn.Reads peer stream := by
  have own : ∀ s party choice s' party', Party.On (Conn.Reads peer stream) party →
      Party.advance toLowercase s party choice = some (s', party') →
      Party.On (Conn.Reads peer stream) party' := by
    intro s party choice s' party' reads moved
    cases party with
    | connection conn =>
      obtain ⟨⟨_, conn'⟩, stepped, same⟩ := Option.map_eq_some_iff.mp moved
      cases same
      exact step_reads reads (Conn.step_of_advance stepped)
    | calls operation => exact reads.elim
    | returned operation => exact reads.elim
  obtain ⟨party, there, reads⟩ := run_own own accepted ⟨rfl, rfl⟩ ran
  cases at_last.symm.trans there
  exact reads

end Server

end MCGate
