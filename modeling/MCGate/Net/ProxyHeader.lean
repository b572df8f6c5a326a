import MCGate.Net.Login
import MCGate.Protocol.ProxyProtocolRoundTrip

/-!
# The family a PROXY header names

A v1 line names one family for both of its addresses. The header of a dial takes the family from
the client and the destination from the backend, so the two agree exactly where the client and
the backend are of the same family. An IPv4 client of a dual-stack bind has an IPv4-mapped
address, which is an IPv6 one.
-/
namespace MCGate.ProxyProtocol

/-! ### The dial of a status ping -/

/-- `fetch_backend_status` on a connection that was established, up to its request, with how its
writes end. -/
def requestBackendStatus (route : Route) (addr : SocketAddr) (handshake : Handshake)
    (clientAddr : SocketAddr) (headerWritten handshakeWritten requestWritten : Written) :
    Option Writer :=
  let backend :=
    -- how the write of the header ends is not looked at
    if route.proxyProtocol ∧ shouldForwardProxyProtocol clientAddr then
      (Writer.new.writeAll (encodeProxyProtocolHeader clientAddr addr) headerWritten).2
    else Writer.new
  let hs := encodeHandshake handshake.protocolVersion handshake.host handshake.port 1
  let (ok, backend) := backend.writeAll hs handshakeWritten
  if ¬ ok then none
  else
    let (ok, backend) := backend.writeAll (writeVarInt 1 ++ writeVarInt 0x00) requestWritten
    if ok then some backend else none

/-! ### What a strict backend reads -/

def isIpv4Field (field : Text) : Bool :=
  match parseIpAddr field with
  | some (.v4 _) => true
  | _ => false

def isIpv6Field (field : Text) : Bool :=
  match parseIpAddr field with
  | some (.v6 _) => true
  | _ => false

/-- The line names the family that both of its addresses are written in. -/
def familyConsistent (line : Text) : Bool :=
  match line.splitOn ' ' with
  | proxy :: proto :: source :: dest :: _ =>
    proxy = "PROXY".toList &&
      (proto = "TCP4".toList && isIpv4Field source && isIpv4Field dest ||
        proto = "TCP6".toList && isIpv6Field source && isIpv6Field dest)
  | _ => false

/-- What is sent starts with a header whose line is consistent. -/
def SendsConsistent (sent : Bytes) : Prop :=
  ∃ crlf, FirstCrlf sent crlf ∧ familyConsistent (fromUtf8Lossy (sent.take crlf))

/-! ### The header of a dial -/

private theorem isIpv4Field_displayIp (ip : IpAddr) : isIpv4Field (displayIp ip) = !ip.isIpv6 := by
  rw [isIpv4Field, parseIpAddr_displayIp]
  cases ip <;> rfl

private theorem isIpv6Field_displayIp (ip : IpAddr) : isIpv6Field (displayIp ip) = ip.isIpv6 := by
  rw [isIpv6Field, parseIpAddr_displayIp]
  cases ip <;> rfl

private theorem familyConsistent_headerLine (sourceAddr destAddr : SocketAddr) :
    familyConsistent (headerLine sourceAddr destAddr) ↔
      sourceAddr.ip.isIpv6 = destAddr.ip.isIpv6 := by
  simp only [familyConsistent, splitOn_headerLine, headerFields, isIpv4Field_displayIp,
    isIpv6Field_displayIp]
  cases sourceAddr.ip.isIpv6 <;> cases destAddr.ip.isIpv6 <;> simp

/-- Nothing that follows the header changes how its line reads. -/
theorem sendsConsistent_header (sourceAddr destAddr : SocketAddr) (rest : Bytes) :
    SendsConsistent (encodeProxyProtocolHeader sourceAddr destAddr ++ rest) ↔
      sourceAddr.ip.isIpv6 = destAddr.ip.isIpv6 := by
  have ends := firstCrlf_header sourceAddr destAddr rest
  have line : (encodeProxyProtocolHeader sourceAddr destAddr ++ rest).take
      (asBytes (headerLine sourceAddr destAddr)).length =
        asBytes (headerLine sourceAddr destAddr) := by
    rw [encodeProxyProtocolHeader_eq, List.append_assoc, List.take_append_length]
  rw [← familyConsistent_headerLine]
  constructor
  · rintro ⟨crlf, first, consistent⟩
    have same := (findCrlf_eq_some_iff.mpr first).symm.trans (findCrlf_eq_some_iff.mpr ends)
    rw [Option.some.inj same, line, fromUtf8Lossy_asBytes] at consistent
    exact consistent
  · intro consistent
    refine ⟨_, ends, ?_⟩
    rw [line, fromUtf8Lossy_asBytes]
    exact consistent

section Dials

variable {route : Route} {addr clientAddr : SocketAddr} {backend : Writer}

private theorem dialBackend_header (handshake : Handshake)
    {headerWritten handshakeWritten : Written} (configured : route.proxyProtocol)
    (forwarded : shouldForwardProxyProtocol clientAddr)
    (dialed : dialBackend route addr handshake clientAddr headerWritten handshakeWritten =
      some backend) :
    ∃ rest, backend.handed = encodeProxyProtocolHeader clientAddr addr ++ rest := by
  simp only [dialBackend, configured, forwarded, and_self, if_true] at dialed
  split at dialed
  next => cases dialed
  next =>
    obtain ⟨-, same⟩ := Option.ite_none_right_eq_some.mp dialed
    rw [← Option.some.inj same, Writer.handed_writeAll, Writer.handed_writeAll,
      Writer.handed_new, List.nil_append]
    exact ⟨_, rfl⟩

private theorem requestBackendStatus_header (handshake : Handshake)
    {headerWritten handshakeWritten requestWritten : Written}
    (configured : route.proxyProtocol) (forwarded : shouldForwardProxyProtocol clientAddr)
    (dialed : requestBackendStatus route addr handshake clientAddr headerWritten handshakeWritten
      requestWritten = some backend) :
    ∃ rest, backend.handed = encodeProxyProtocolHeader clientAddr addr ++ rest := by
  simp only [requestBackendStatus, configured, forwarded, and_self, if_true] at dialed
  split at dialed
  next => cases dialed
  next =>
    obtain ⟨-, same⟩ := Option.ite_none_right_eq_some.mp dialed
    rw [← Option.some.inj same, Writer.handed_writeAll, Writer.handed_writeAll,
      Writer.handed_writeAll, Writer.handed_new, List.nil_append, List.append_assoc]
    exact ⟨_, rfl⟩

end Dials

/-- Every dial of a login and of a status ping sends a consistent header. -/
def DialsConsistent (route : Route) (addr : SocketAddr) (handshake : Handshake)
    (clientAddr : SocketAddr) : Prop :=
  (∀ headerWritten handshakeWritten backend,
    dialBackend route addr handshake clientAddr headerWritten handshakeWritten = some backend →
      SendsConsistent backend.handed) ∧
  ∀ headerWritten handshakeWritten requestWritten backend,
    requestBackendStatus route addr handshake clientAddr headerWritten handshakeWritten
      requestWritten = some backend → SendsConsistent backend.handed

/-- The headers name the family of both addresses exactly where the client and the backend have
the same one. -/
theorem dialsConsistent_iff (route : Route) (addr : SocketAddr) (handshake : Handshake)
    (clientAddr : SocketAddr) (configured : route.proxyProtocol)
    (forwarded : shouldForwardProxyProtocol clientAddr) :
    DialsConsistent route addr handshake clientAddr ↔
      clientAddr.ip.isIpv6 = addr.ip.isIpv6 := by
  constructor
  · rintro ⟨login, -⟩
    obtain ⟨backend, dialed⟩ : ∃ backend,
        dialBackend route addr handshake clientAddr .all .all = some backend := by
      simp [dialBackend, configured, forwarded, Writer.writeAll, Writer.new, Writer.hand,
        Writer.push]
    obtain ⟨rest, sent⟩ := dialBackend_header handshake configured forwarded dialed
    have consistent := login .all .all backend dialed
    rw [sent] at consistent
    exact (sendsConsistent_header clientAddr addr rest).mp consistent
  · intro same
    refine ⟨fun headerWritten handshakeWritten backend dialed => ?_,
      fun headerWritten handshakeWritten requestWritten backend dialed => ?_⟩
    · obtain ⟨rest, sent⟩ := dialBackend_header handshake configured forwarded dialed
      rw [sent]
      exact (sendsConsistent_header clientAddr addr rest).mpr same
    · obtain ⟨rest, sent⟩ := requestBackendStatus_header handshake configured forwarded dialed
      rw [sent]
      exact (sendsConsistent_header clientAddr addr rest).mpr same

/-- A route whose backends expect the header. -/
def forwarding : Route := ⟨true, false⟩

def pinging : Handshake := ⟨767, "play.example.com".toList, 25565, 1, []⟩

theorem dialsConsistent_ipv4 :
    DialsConsistent forwarding ⟨.v4 ⟨10, 0, 0, 1⟩, 25565⟩ pinging
      ⟨.v4 ⟨203, 0, 113, 9⟩, 50000⟩ :=
  (dialsConsistent_iff forwarding ⟨.v4 ⟨10, 0, 0, 1⟩, 25565⟩ pinging
    ⟨.v4 ⟨203, 0, 113, 9⟩, 50000⟩ rfl (by decide)).mpr rfl

/-- A client that reached a dual-stack bind over IPv4, on the way to an IPv4 backend. -/
def mappedClient : SocketAddr := ⟨.v6 (.ofSegments [0, 0, 0, 0, 0, 0xFFFF, 0xCB00, 0x7109]), 50000⟩

theorem mappedClient_not_consistent :
    ¬ ∀ (route : Route) (addr : SocketAddr) (handshake : Handshake) (clientAddr : SocketAddr),
      route.proxyProtocol → shouldForwardProxyProtocol clientAddr →
      DialsConsistent route addr handshake clientAddr := by
  intro consistent
  have forwarded : shouldForwardProxyProtocol mappedClient := by decide
  obtain ⟨backend, dialed⟩ : ∃ backend, dialBackend forwarding ⟨.v4 ⟨10, 0, 0, 1⟩, 25565⟩ pinging
      mappedClient .all .all = some backend := ⟨_, rfl⟩
  obtain ⟨rest, sent⟩ := dialBackend_header pinging rfl forwarded dialed
  have login := (consistent forwarding ⟨.v4 ⟨10, 0, 0, 1⟩, 25565⟩ pinging mappedClient rfl
    forwarded).1 .all .all backend dialed
  rw [sent] at login
  exact absurd ((sendsConsistent_header _ _ rest).mp login) (by decide)

end MCGate.ProxyProtocol
