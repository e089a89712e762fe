import GravitalShare.StackWorld

/-! Packets that nobody has checked: any bytes, any header length nibble. -/
namespace GravitalShare.Stack

def ihlNibble (pkt : Bytes) : UInt8 := byteAt pkt 0 &&& 0x0F

theorem ihl_eq_nibble (pkt : Bytes) : ihl pkt = (ihlNibble pkt).toNat*4 := rfl

/-- The TCP step reaches its end only if there is room for the checksum behind the header. -/
theorem fixTcpChecksum_room {pkt out : Bytes} (h : fixTcpChecksum pkt = .ok out) :
    ihl pkt+18 ≤ pkt.length := by
  unfold fixTcpChecksum at h
  obtain ⟨b0, hb0, h⟩ := Exec.bind_eq_ok.mp h
  obtain ⟨tcpLen, -, h⟩ := Exec.bind_eq_ok.mp h
  obtain ⟨srcIp, -, h⟩ := Exec.bind_eq_ok.mp h
  obtain ⟨dstIp, -, h⟩ := Exec.bind_eq_ok.mp h
  -- the two zeros of the checksum field
  obtain ⟨p, hp, h⟩ := Exec.bind_eq_ok.mp h
  obtain ⟨q, hq, -⟩ := Exec.bind_eq_ok.mp h
  obtain ⟨hlp, rfl⟩ := copyAt_ok hp
  have hlq := (copyAt_ok hq).1
  rw [length_writeAt hlp] at hlq
  have h0 : ihl pkt = headerLen b0 := by
    unfold index at hb0
    split_ifs at hb0
    rw [ihl, Except.ok.inj hb0]
  rw [h0]
  exact hlq

/-- Whatever the header length says, the two checksum steps leave byte 0 alone. -/
theorem fixChecksums_byte_zero {pkt q out : Bytes} (hl : 20 ≤ pkt.length)
    (hq : fixTcpChecksum pkt = .ok q) (ho : fixIpv4Checksum q = .ok out) :
    byteAt out 0 = byteAt pkt 0 := by
  have hroom := fixTcpChecksum_room hq
  obtain ⟨csum, rfl⟩ := fixTcpChecksum_ok hl hroom hq
  have hw : ihl pkt+16+(u16ToBE csum).length ≤ pkt.length := by
    rw [length_u16ToBE]
    omega
  set q := writeAt pkt (ihl pkt+16) (u16ToBE csum)
  have hlq : q.length = pkt.length := length_writeAt hw
  have hiq : ihl q = ihl pkt := ihl_writeAt hw (by omega)
  have hwo : 10+2 ≤ q.length := by omega
  rw [fixIpv4Checksum_eq (by omega) (by omega)] at ho
  calc
    byteAt out 0 = byteAt (withIpv4Checksum q) 0 := by rw [← Except.ok.inj ho]
    _ = byteAt q 0 := byteAt_writeAt_outside hwo (Or.inl (by decide))
    _ = byteAt pkt 0 := byteAt_writeAt_outside hw (Or.inl (by omega))

section Outbound

variable {pkt : Bytes} (h : IsIpv4Tcp 20 pkt) (ip : Ipv4Addr) (port : UInt16)
include h

/-- With a header length of zero the source port is stored over byte 0. -/
theorem readdressed_byte_zero (h0 : ihl pkt = 0) :
    byteAt (readdressed pkt ip port) 0 = UInt8.ofNat (port.toNat/256) := by
  have hl := h.1
  have hip : 12+4 ≤ pkt.length := by omega
  have hlip : (writeAt pkt 12 ip.octets).length = pkt.length := length_writeAt hip
  have hw : 0+2 ≤ (writeAt pkt 12 ip.octets).length := by omega
  rw [readdressed, h0]
  exact byteAt_stored (u16ToBE port) hw (show 0 < 2 by decide)

theorem readdressed_byte_zero_of_pos (h0 : 0 < ihl pkt) :
    byteAt (readdressed pkt ip port) 0 = byteAt pkt 0 := by
  have hl := h.1
  have hi : ihl pkt+20 ≤ pkt.length := h.2.2.2
  have hip : 12+4 ≤ pkt.length := by omega
  have hlip : (writeAt pkt 12 ip.octets).length = pkt.length := length_writeAt hip
  have hw : ihl pkt+2 ≤ (writeAt pkt 12 ip.octets).length := by omega
  calc
    _ = byteAt (writeAt pkt 12 ip.octets) 0 := byteAt_writeAt_outside hw (Or.inl h0)
    _ = byteAt pkt 0 := byteAt_writeAt_outside hip (Or.inl (by decide))

/-- A rewrite that completes reports success, and byte 0 is as the two stores left it. -/
theorem rewriteOutbound_ok {b : Bool} {out : Bytes}
    (hr : rewriteOutbound pkt ip port = .ok (b, out)) :
    b = true ∧ byteAt out 0 = byteAt (readdressed pkt ip port) 0 := by
  rw [rewriteOutbound_bind h] at hr
  obtain ⟨q, hq, hr⟩ := Exec.bind_eq_ok.mp hr
  obtain ⟨o, ho, hr⟩ := Exec.bind_eq_ok.mp hr
  obtain ⟨rfl, rfl⟩ := Prod.mk.inj (Except.ok.inj hr)
  have hl : 20 ≤ (readdressed pkt ip port).length := by
    rw [length_readdressed h]
    exact h.1
  exact ⟨rfl, fixChecksums_byte_zero hl hq ho⟩

end Outbound

theorem rewriteOutbound_of_not {pkt : Bytes} (h : ¬IsIpv4Tcp 20 pkt) (ip : Ipv4Addr)
    (port : UInt16) : rewriteOutbound pkt ip port = .ok (false, pkt) := by
  simp only [rewriteOutbound, ipv4Tcp_eq, if_neg h, Exec.ok_bind]

theorem high_nibble (port : UInt16) :
    UInt8.ofNat (port.toNat/256) &&& 0x0F = 0 ↔ port.toNat/256%16 = 0 := by
  have hlt := port.toNat_lt
  have h15 : (0x0F : UInt8).toNat = 2^4-1 := by decide
  have h0 : (0 : UInt8).toNat = 0 := by decide
  rw [← UInt8.toNat_inj, UInt8.toNat_and, h15, Nat.and_two_pow_sub_one_eq_mod, h0,
    UInt8.toNat_ofNat']
  omega

theorem ihl_eq_zero_iff (pkt : Bytes) : ihl pkt = 0 ↔ ihlNibble pkt = 0 := by
  have h0 : (0 : UInt8).toNat = 0 := by decide
  rw [ihl_eq_nibble, ← UInt8.toNat_inj, h0]
  omega

/-- The source port is not stored over the nibble, or leaves it zero. -/
def NibbleKept (pkt : Bytes) (port : UInt16) : Prop :=
  IsIpv4Tcp 20 pkt → ihlNibble pkt = 0 → port.toNat/256%16 = 0

theorem nibble_readdressed {pkt : Bytes} (h : IsIpv4Tcp 20 pkt) (ip : Ipv4Addr) (port : UInt16) :
    ihlNibble (readdressed pkt ip port) = ihlNibble pkt ↔ NibbleKept pkt port := by
  by_cases h0 : ihlNibble pkt = 0
  · have hz := (ihl_eq_zero_iff pkt).mpr h0
    rw [ihlNibble, readdressed_byte_zero h ip port hz, h0, high_nibble]
    constructor
    · intro hp _ _
      exact hp
    · intro hk
      exact hk h h0
  · have hpos : 0 < ihl pkt := Nat.pos_of_ne_zero fun hz => h0 ((ihl_eq_zero_iff pkt).mp hz)
    rw [ihlNibble, readdressed_byte_zero_of_pos h ip port hpos]
    exact iff_of_true rfl fun _ hz => absurd hz h0

/-- No panic and no change of the nibble, exactly if the port is not stored over a nibble that
it would change. -/
theorem rewriteOutbound_nibble_iff {pkt : Bytes} (hb : pkt.length ≤ 65535) (ip : Ipv4Addr)
    (port : UInt16) :
    (Exec.Returns (rewriteOutbound pkt ip port) ∧
      ∀ out, rewriteOutbound pkt ip port = .ok (true, out) → ihlNibble out = ihlNibble pkt) ↔
      NibbleKept pkt port := by
  by_cases h : IsIpv4Tcp 20 pkt
  · have hout {b : Bool} {out : Bytes} (hr : rewriteOutbound pkt ip port = .ok (b, out)) :
        ihlNibble out = ihlNibble (readdressed pkt ip port) := by
      rw [ihlNibble, (rewriteOutbound_ok h ip port hr).2, ihlNibble]
    rw [← nibble_readdressed h ip port]
    constructor
    · rintro ⟨⟨⟨b, out⟩, hr⟩, hsame⟩
      obtain ⟨rfl, -⟩ := rewriteOutbound_ok h ip port hr
      exact (hout hr).symm.trans (hsame out hr)
    · intro hk
      have hr := rewriteOutbound_eq h ip port hb (by rw [ihl_eq_nibble, hk, ← ihl_eq_nibble])
      exact ⟨⟨_, hr⟩, fun out' hr' => (hout hr').trans hk⟩
  · have hr := rewriteOutbound_of_not h ip port
    refine iff_of_true ⟨⟨_, hr⟩, ?_⟩ fun hp => absurd hp h
    intro out ho
    rw [hr] at ho
    cases ho

/-- Not malformed: IPv4 with a header of at least five words, TCP, room for both headers. -/
def WellFormedTcp (pkt : Bytes) : Prop := IsIpv4Tcp 20 pkt ∧ 5 ≤ (ihlNibble pkt).toNat

/-- What the comment on `rewrite_outbound` promises, for one call. -/
structure OutboundTotal (pkt : Bytes) (ip : Ipv4Addr) (port : UInt16) : Prop where
  accepts : WellFormedTcp pkt → ∃ out, rewriteOutbound pkt ip port = .ok (true, out)
  refuses : ¬WellFormedTcp pkt → ∃ out, rewriteOutbound pkt ip port = .ok (false, out)
  nibble : ∀ out, rewriteOutbound pkt ip port = .ok (true, out) → ihlNibble out = ihlNibble pkt

/-- A rewrite is total as documented exactly if no malformed header length passes the guard; and
among those that pass, it panics or changes the nibble exactly if the nibble is zero and the
port puts something else there. -/
theorem rewriteOutbound_total_iff {pkt : Bytes} (hb : pkt.length ≤ 65535) (ip : Ipv4Addr)
    (port : UInt16) :
    (OutboundTotal pkt ip port ↔ (IsIpv4Tcp 20 pkt → 5 ≤ (ihlNibble pkt).toNat)) ∧
    ((Exec.Returns (rewriteOutbound pkt ip port) ∧
      ∀ out, rewriteOutbound pkt ip port = .ok (true, out) → ihlNibble out = ihlNibble pkt) ↔
      (IsIpv4Tcp 20 pkt → ihlNibble pkt = 0 → port.toNat/256%16 = 0)) := by
  have hnib := rewriteOutbound_nibble_iff hb ip port
  refine ⟨?_, hnib⟩
  constructor
  · intro ht h
    by_contra hlow
    obtain ⟨out, hr⟩ := ht.refuses fun hw => hlow hw.2
    exact Bool.false_ne_true (rewriteOutbound_ok h ip port hr).1
  · intro hok
    have hkept : NibbleKept pkt port := by
      intro h h0
      have h5 := hok h
      rw [h0] at h5
      exact absurd h5 (by decide)
    obtain ⟨⟨⟨b, out⟩, hr⟩, hsame⟩ := hnib.mpr hkept
    refine ⟨?_, ?_, hsame⟩
    · intro hw
      obtain ⟨rfl, -⟩ := rewriteOutbound_ok hw.1 ip port hr
      exact ⟨out, hr⟩
    · intro hw
      have hn : ¬IsIpv4Tcp 20 pkt := fun h => hw ⟨h, hok h⟩
      exact ⟨pkt, rewriteOutbound_of_not hn ip port⟩

/-- Twenty bytes with this first byte that pass for IPv4 and TCP. -/
def bareHeader (b0 : UInt8) : Bytes :=
  [b0, 0, 0, 20, 0, 0, 0, 0, 64, 6, 0, 0, 10, 0, 0, 1, 93, 184, 216, 34]

theorem bare_header_refused : OutboundTotal (bareHeader 0x45) ⟨1, 1, 1, 1⟩ 443 :=
  (rewriteOutbound_total_iff (by decide) ⟨1, 1, 1, 1⟩ 443).1.mpr (by decide)

/-- Port 3840 makes a nibble of 15 out of one of 0, and the header would end behind the
packet. -/
theorem port_over_nibble_panics :
    rewriteOutbound (bareHeader 0x40) ⟨1, 1, 1, 1⟩ 3840 = .error .overflow := rfl

namespace Inner

/-- A listener is opened, or not, without touching the NAT table or the device. -/
theorem createListener_frame (alloc : Allocator) (s : Inner) (vport : UInt16)
    (remote : SocketAddr) :
    (createListener alloc s vport remote).nat = s.nat ∧
      (createListener alloc s vport remote).device = s.device := by
  unfold createListener
  cases TcpSocket.new.listen ifaceIp vport with
  | none => exact ⟨rfl, rfl⟩
  | some socket =>
    simp only
    split_ifs <;> exact ⟨rfl, rfl⟩

theorem admitted_frame (alloc : Allocator) (s : Inner) (nat : NatTable) (vp : UInt16)
    (dst : SocketAddr) :
    (admitted alloc s nat vp dst).nat = nat ∧ (admitted alloc s nat vp dst).device = s.device := by
  unfold admitted
  split_ifs
  · exact ⟨rfl, rfl⟩
  · exact createListener_frame alloc { s with nat } vp dst

/-- The packet `pkt` was passed on for `raw`, under the virtual port of its flow. -/
structure PassedOn (s' : Inner) (raw pkt : Bytes) : Prop where
  length_eq : pkt.length = raw.length
  flow : ∃ src ip port vp, extractTcpAddrs raw = .ok (some (src, .v4 ip port)) ∧
    s'.nat.lookupForward src (.v4 ip port) = some vp ∧
    (5 ≤ (ihlNibble raw).toNat → extractTcpAddrs pkt = .ok (some (src, .v4 ip vp)))

variable {s : Inner} {raw : Bytes}

theorem deliver_passes (hp : IsIpv4Tcp 20 raw) (hlen : raw.length ≤ 65535) {vp : UInt16}
    (hv : s.nat.lookupForward (srcEndpoint raw) (dstEndpoint raw) = some vp) :
    ∃ pkt, deliver raw s (some vp) = .ok (s.pushRx pkt) ∧ PassedOn (s.pushRx pkt) raw pkt := by
  have hi : ihl raw+20 ≤ raw.length := hp.2.2.2
  have hr := rewriteInbound_eq hp hlen vp
  have hw : ihl raw+2+2 ≤ raw.length := by omega
  set p := writeAt raw (ihl raw+2) (u16ToBE vp)
  have hlp : p.length = raw.length := length_writeAt hw
  have hip : ihl p = ihl raw := ihl_writeAt hw (by omega)
  have hwt : ihl p+16+2 ≤ p.length := by omega
  have hlt : (withTcpChecksum p).length = p.length := length_writeAt hwt
  have hwo : 10+2 ≤ (withTcpChecksum p).length := by
    have := hp.1
    omega
  have hlo : (withIpv4Checksum (withTcpChecksum p)).length = raw.length :=
    ((length_writeAt hwo).trans hlt).trans hlp
  refine ⟨_, by rw [deliver, hr, Exec.ok_bind]; rfl, hlo, ?_⟩
  have haddrs : extractTcpAddrs raw = .ok (some (srcEndpoint raw, dstEndpoint raw)) := by
    rw [extractTcpAddrs_eq, if_pos hp]
  refine ⟨_, _, _, vp, haddrs, hv, ?_⟩
  intro h5
  have h20 : 20 ≤ ihl raw := by
    rw [ihl_eq_nibble]
    omega
  obtain ⟨hguard, hsrc, hdst⟩ := rewriteInbound_addrs hp h20 hr
  rw [extractTcpAddrs_eq, if_pos hguard, hsrc, hdst]

/-- A SYN under a port, old or new: the packet is passed on. -/
theorem acceptSyn_passes {alloc : Allocator} (hp : IsIpv4Tcp 20 raw) (hlen : raw.length ≤ 65535)
    {nat : NatTable} {vp : UInt16}
    (hins : s.nat.insert (srcEndpoint raw) (dstEndpoint raw) = .ok (nat, some vp))
    (hv : nat.lookupForward (srcEndpoint raw) (dstEndpoint raw) = some vp) :
    ∃ s' pkt, (acceptSyn alloc s (srcEndpoint raw) (dstEndpoint raw) >>=
        fun p => deliver raw p.1 p.2) = .ok s' ∧
      s'.device.rx = s.device.rx ++ [pkt] ∧ PassedOn s' raw pkt := by
  obtain ⟨hnat, hdev⟩ := admitted_frame alloc s nat vp (dstEndpoint raw)
  rw [← hnat] at hv
  obtain ⟨pkt, hd, hpass⟩ := deliver_passes hp hlen hv
  refine ⟨_, pkt, by rw [acceptSyn_some hins, Exec.ok_bind]; exact hd, ?_, hpass⟩
  show (admitted alloc s nat vp (dstEndpoint raw)).device.rx ++ [pkt] = _
  rw [hdev]

/-- Processing a packet of any content ends without a panic, and either leaves the device as it
was or passes one packet on. -/
theorem processInbound_total (alloc : Allocator) (hs : NatTable.InRange s.nat.next)
    (hlen : raw.length ≤ 65535) :
    ∃ s', processInbound alloc s raw = .ok s' ∧
      (s'.device.rx = s.device.rx ∨
        ∃ pkt, s'.device.rx = s.device.rx ++ [pkt] ∧ PassedOn s' raw pkt) := by
  by_cases hp : IsIpv4Tcp 20 raw
  · cases hsyn : synFlag raw with
    | false =>
      rw [processInbound_of_flow hp hsyn]
      cases hv : s.nat.lookupForward (srcEndpoint raw) (dstEndpoint raw) with
      | none => exact ⟨s, rfl, Or.inl rfl⟩
      | some vp =>
        obtain ⟨pkt, hd, hpass⟩ := deliver_passes hp hlen hv
        exact ⟨_, hd, Or.inr ⟨pkt, rfl, hpass⟩⟩
    | true =>
      rw [processInbound_of_syn hp hsyn]
      cases hv : s.nat.lookupForward (srcEndpoint raw) (dstEndpoint raw) with
      | some vp =>
        obtain ⟨s', pkt, hd, hrx, hpass⟩ :=
          acceptSyn_passes hp hlen (NatTable.insert_of_present hv) hv
        exact ⟨s', hd, Or.inr ⟨pkt, hrx, hpass⟩⟩
      | none =>
        -- the scan finds a free port or goes once round
        have hins := NatTable.insert_of_absent hs hv
        cases hf : s.nat.firstFree with
        | none =>
          rw [hf] at hins
          exact ⟨_, by rw [acceptSyn_none hins]; rfl, Or.inl rfl⟩
        | some i =>
          rw [hf] at hins
          obtain ⟨s', pkt, hd, hrx, hpass⟩ := acceptSyn_passes hp hlen hins
            (Finmap.lookup_insert _)
          exact ⟨s', hd, Or.inr ⟨pkt, hrx, hpass⟩⟩
  · exact ⟨s, processInbound_of_not hp, Or.inl rfl⟩

end Inner

/-- `process_inbound` stands any bytes in every state the stack can be in, and in every other
state whose cursor is a port of the range. -/
theorem processInbound_survives (alloc : Allocator) {raw : Bytes} (hlen : raw.length ≤ 65535) :
    (∀ w, Reachable alloc w → NatTable.InRange w.inner.nat.next) ∧
    ∀ s : Inner, NatTable.InRange s.nat.next →
      ∃ s', Inner.processInbound alloc s raw = .ok s' ∧
        (s'.device.rx = s.device.rx ∨
          ∃ pkt, s'.device.rx = s.device.rx ++ [pkt] ∧ pkt.length = raw.length ∧
            ∃ src ip port vp, extractTcpAddrs raw = .ok (some (src, .v4 ip port)) ∧
              s'.nat.lookupForward src (.v4 ip port) = some vp ∧
              (5 ≤ (ihlNibble raw).toNat →
                extractTcpAddrs pkt = .ok (some (src, .v4 ip vp)))) := by
  constructor
  · intro w hw
    exact hw.wf.nat.cursor
  · intro s hs
    obtain ⟨s', hr, hsame | ⟨pkt, hrx, hpass⟩⟩ := Inner.processInbound_total alloc hs hlen
    · exact ⟨s', hr, Or.inl hsame⟩
    · exact ⟨s', hr, Or.inr ⟨pkt, hrx, hpass.length_eq, hpass.flow⟩⟩

theorem bare_header_processed :
    ∃ s', Inner.processInbound .lowest (Inner.new 1500) (bareHeader 0x40) = .ok s' := by
  obtain ⟨hcursor, h⟩ := processInbound_survives .lowest (show (bareHeader 0x40).length ≤ 65535 by
    decide)
  obtain ⟨s', hs', -⟩ := h (Inner.new 1500) (hcursor (World.init 1500) ⟨1500, [], Run.nil⟩)
  exact ⟨s', hs'⟩

end GravitalShare.Stack
