import GravitalShare.EngineDnsReply
import GravitalShare.StackInner
import GravitalShare.TunDevice

/-! The task that answers an intercepted DNS query, and the sizes that the parts of the client
agree on. -/
namespace GravitalShare

namespace Dns

inductive DnsError where
  | io
  | timeout (what : String)
  deriving DecidableEq, Repr

/-- What becomes of a query on the network. -/
inductive Exchange where
  | bindFailed
  | connectFailed
  | sendFailed
  | timedOut
  | recvFailed
  | answered (datagram : Bytes)
  deriving DecidableEq, Repr

def forwardRaw : Exchange → Except DnsError Bytes
  | .bindFailed | .connectFailed | .sendFailed | .recvFailed => .error .io
  | .timedOut => .error (.timeout "query")
  | .answered datagram =>
    let (n, resp) := readInto (List.replicate 4096 0) datagram
    .ok (resp.take n)

def buildServfail (query : Bytes) : Exec Bytes :=
  if query.length < 2 then .ok []
  else if 4 ≤ query.length then do
    let resp ← copyAt query 2 [0x81]
    copyAt resp 3 [0x82]
  else .ok query

structure DnsInterceptor where
  metricsDnsQueries : UInt64
  metricsDnsFailures : UInt64
  deriving DecidableEq, Repr

/-- A failure is answered too: the result is never an error. -/
def DnsInterceptor.handleQuery (dns : DnsInterceptor) (query : Bytes) (x : Exchange) :
    Exec (DnsInterceptor × Except DnsError Bytes) :=
  let dns := { dns with metricsDnsQueries := dns.metricsDnsQueries+1 }
  match forwardRaw x with
  | .ok resp => .ok (dns, .ok resp)
  | .error _ => do
    let resp ← buildServfail query
    .ok ({ dns with metricsDnsFailures := dns.metricsDnsFailures+1 }, .ok resp)

theorem forwardRaw_answered (datagram : Bytes) :
    forwardRaw (.answered datagram) = .ok (datagram.take 4096) := by
  have htake := take_readInto (List.replicate 4096 0) datagram
  rw [List.length_replicate] at htake
  rw [← htake]
  rfl

end Dns

namespace Engine

open Proto Dns Tun

/-- The counters of what goes out to the TUN. -/
structure TunWrite where
  packetsOut : UInt64
  bytesOut : UInt64
  deriving DecidableEq, Repr

def TunWrite.count (m : TunWrite) (pkt : Bytes) : TunWrite :=
  ⟨m.packetsOut+1, m.bytesOut+UInt64.ofNat pkt.length⟩

/-- The task spawned for the query of `pkt`, with what `write_packet` returns, if it is called and
has returned. -/
def dnsTask (mtu : UInt16) (m : TunWrite) (dns : DnsInterceptor) (pkt query : Bytes) (x : Exchange)
    (turns : List (Turn Unit)) :
    Exec (DnsInterceptor × TunWrite × Option (Except TunError Unit)) := do
  let (dns, resp) ← dns.handleQuery query x
  match resp with
  | .error _ => .ok (dns, m, none)
  | .ok resp =>
    match ← buildUdpReply pkt resp with
    | none => .ok (dns, m, none)
    -- the reply is counted first, and nothing looks at the result
    | some reply => .ok (dns, m.count reply, TunWriter.writePacket mtu reply turns)

theorem dnsTask_answered (mtu : UInt16) (m : TunWrite) (dns : DnsInterceptor) {pkt reply : Bytes}
    (query datagram : Bytes) (turns : List (Turn Unit))
    (h : buildUdpReply pkt (datagram.take 4096) = .ok (some reply)) :
    dnsTask mtu m dns pkt query (.answered datagram) turns =
      .ok ({ dns with metricsDnsQueries := dns.metricsDnsQueries+1 }, m.count reply,
        TunWriter.writePacket mtu reply turns) := by
  rw [dnsTask, DnsInterceptor.handleQuery, forwardRaw_answered]
  simp only [Exec.ok_bind, h]

/-- The answer to an intercepted query is 28 bytes longer than what was received of it. -/
theorem reply_to_whole {pkt : Bytes} (h : WholeDns pkt) (datagram : Bytes) :
    ∃ reply, buildUdpReply pkt (datagram.take 4096) = .ok (some reply) ∧
      reply.length = 28+min datagram.length 4096 := by
  have hlen : (datagram.take 4096).length = min datagram.length 4096 := by
    rw [List.length_take, Nat.min_comm]
  obtain ⟨reply, hreply, hto⟩ := buildUdpReply_replies h.2.1 h.1 (datagram.take 4096) (by omega)
  exact ⟨reply, hreply, by rw [hto.length_eq, hlen]⟩

/-- With an MTU that the stack accepts, a packet that the TUN delivers is read whole exactly if it
fits the reader's buffer, and the reply to a query passes the writer's check, after it has been
counted, exactly if the answer leaves room for the headers. -/
theorem sizes_fit_iff {mtu : UInt16} {s : Stack.Inner}
    (hnew : Stack.UserspaceStack.new mtu = .ok s) :
    (∀ turns pkt, tryIo turns = some (.ok pkt) → pkt.length ≤ s.device.mtu →
      (TunReader.readPacket turns = some (.ok pkt) ↔ pkt.length ≤ 1600)) ∧
    ∀ (t : TunRead) pkt query, t.onPacket pkt = .ok ((t.count pkt).spawnDns pkt query) →
      ∀ datagram m dns turns, ∃ resp reply dns' result,
        forwardRaw (.answered datagram) = .ok resp ∧ buildUdpReply pkt resp = .ok (some reply) ∧
        dnsTask mtu m dns pkt query (.answered datagram) turns =
          .ok (dns', m.count reply, result) ∧
        (reply.length ≤ s.device.mtu ∧ ¬PacketTooLarge result ↔
          28+min datagram.length 4096 ≤ s.device.mtu) := by
  have hmtu : s.device.mtu = mtu.toNat := by
    unfold Stack.UserspaceStack.new at hnew
    split_ifs at hnew
    cases hnew
    rfl
  rw [hmtu]
  constructor
  · intro turns pkt hpkt _
    exact readPacket_whole_iff hpkt
  · intro t pkt query hspawn datagram m dns turns
    obtain ⟨reply, hreply, hlen⟩ := reply_to_whole ((t.spawns_iff pkt).mp ⟨query, hspawn⟩) datagram
    refine ⟨_, reply, _, _, forwardRaw_answered datagram, hreply,
      dnsTask_answered mtu m dns query datagram turns hreply, ?_⟩
    rw [writePacket_tooLarge_iff, hlen]
    omega

/-- The default MTU, a small query and a small answer. -/
theorem default_sizes_fit :
    TunReader.readPacket [.wouldBlock, .done (TunRead.dnsPacket 13 [1, 2, 3, 4, 5])] =
      some (.ok (TunRead.dnsPacket 13 [1, 2, 3, 4, 5])) ∧
    ∃ resp reply, forwardRaw (.answered [1, 2, 0x81, 0x80]) = .ok resp ∧
      buildUdpReply (TunRead.dnsPacket 13 [1, 2, 3, 4, 5]) resp = .ok (some reply) ∧
      reply.length ≤ 1280 := by
  have h := @sizes_fit_iff 1280 _ rfl
  have hread := h.1 [.wouldBlock, .done (TunRead.dnsPacket 13 [1, 2, 3, 4, 5])] _ rfl (by decide)
  obtain ⟨resp, reply, dns, result, hresp, hreply, -, hfit⟩ :=
    h.2 .new (TunRead.dnsPacket 13 [1, 2, 3, 4, 5]) _ rfl [1, 2, 0x81, 0x80] ⟨0, 0⟩ ⟨0, 0⟩ []
  exact ⟨hread.mpr (by decide), resp, reply, hresp, hreply, (hfit.mpr (by decide)).1⟩

/-- An IPv4 packet of 1601 bytes, with a TCP segment in it. -/
def largePacket : Bytes :=
  [0x45, 0, 0x06, 0x41, 0, 0, 0, 0, 64, 6, 0, 0, 10, 0, 0, 1, 93, 184, 216, 34] ++
    List.replicate 1581 0

/-- An MTU of 1700 is accepted. An IPv4 packet of 1601 bytes then loses its last byte, and the reply
to an answer of 1673 bytes is counted and refused. -/
theorem large_packets_lost :
    ∃ s, Stack.UserspaceStack.new 1700 = .ok s ∧
      (∃ ip, Ipv4View.parse largePacket = .ok ip) ∧ largePacket.length = 1601 ∧
      (Stack.u16At largePacket 2).toNat = 1601 ∧
      TunReader.readPacket [.done largePacket] = some (.ok (largePacket.take 1600)) ∧
      TunReader.readPacket [.done largePacket] ≠ some (.ok largePacket) ∧
      dnsTask 1700 ⟨0, 0⟩ ⟨0, 0⟩ (TunRead.dnsPacket 13 [1, 2, 3, 4, 5]) [1, 2, 3, 4, 5]
        (.answered (List.replicate 1673 0)) [.done ()] =
          .ok (⟨1, 0⟩, ⟨1, 1701⟩, some (.error (.packetTooLarge 1701 1700))) := by
  have hlen : largePacket.length = 1601 := by
    rw [largePacket, List.length_append, List.length_replicate]
    rfl
  refine ⟨_, rfl, ?_, hlen, by decide, readPacket_eq rfl, ?_, ?_⟩
  · exact (Ipv4View.parse_accepts_iff largePacket).mpr
      ⟨by rw [hlen]; decide, by decide, by rw [hlen]; decide⟩
  · rw [ne_eq, readPacket_whole_iff rfl, hlen]
    decide
  · have hwhole : WholeDns (TunRead.dnsPacket 13 [1, 2, 3, 4, 5]) := by decide
    obtain ⟨reply, hreply, hlen⟩ := reply_to_whole hwhole (List.replicate 1673 0)
    rw [List.length_replicate] at hlen
    rw [dnsTask_answered _ _ _ _ _ _ hreply, TunWriter.writePacket, TunWrite.count, hlen]
    rfl

end Engine

end GravitalShare
