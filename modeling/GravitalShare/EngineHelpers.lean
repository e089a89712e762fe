import GravitalShare.EngineTunRead
import GravitalShare.ProtoViews
import GravitalShare.StackRewrite

/-! The functions of the engine and of the stack that read packets byte by byte, compared with
the views of the parser. -/
namespace GravitalShare.Engine

open Proto

/-- `p` is what follows the header of `b`, up to where the total length ends it. -/
structure PayloadOf (b p : Bytes) : Prop where
  fits : headerLen b+p.length ≤ b.length
  eq : p = (b.take (headerLen b+p.length)).drop (headerLen b)

namespace PayloadOf

variable {b p : Bytes} (h : PayloadOf b p)
include h

theorem byteAt_eq {i : ℕ} (hi : i < p.length) : byteAt p i = byteAt b (headerLen b+i) := by
  have hb := byteAt_slice (b := b) (show headerLen b+i < headerLen b+p.length by omega)
  rwa [← h.eq] at hb

theorem wordAt_eq {off : ℕ} (hoff : off+2 ≤ p.length) :
    wordAt p off = wordAt b (headerLen b+off) := by
  rw [wordAt, h.byteAt_eq (by omega), h.byteAt_eq (by omega), wordAt, Nat.add_assoc]

end PayloadOf

theorem payloadOf_view {b : Bytes} {v : Ipv4View} (hv : Ipv4View.parse b = .ok v)
    (htotal : headerLen b ≤ totalLen b) : ∃ p, v.payload = .ok p ∧ PayloadOf b p := by
  have hle := v.ihl_le
  have hp := v.payload_eq
  rw [Ipv4View.bytes_of_parse hv] at hp hle
  have hend : headerLen b ≤ min (totalLen b) b.length := Nat.le_min.mpr ⟨htotal, hle⟩
  have hmin : min (totalLen b) b.length ≤ b.length := Nat.min_le_right _ _
  have hlen := length_slice (headerLen b) hmin
  have hsum : headerLen b+((b.take (min (totalLen b) b.length)).drop (headerLen b)).length =
      min (totalLen b) b.length := by omega
  refine ⟨_, hp.trans (slice_eq hend hmin), ?_, ?_⟩
  · rw [hsum]
    exact hmin
  · rw [hsum]

/-- `flags & 0x12 == 0x02` tests for SYN without ACK. -/
theorem syn_mask (bits : UInt8) :
    (bits &&& 0x12 == 0x02) = ((TcpFlags.fromBitsTruncate bits).contains .SYN &&
      !(TcpFlags.fromBitsTruncate bits).contains .ACK) := by
  have hall : ∀ n < 256, (UInt8.ofNat n &&& 0x12 == 0x02) =
      ((TcpFlags.fromBitsTruncate (UInt8.ofNat n)).contains .SYN &&
        !(TcpFlags.fromBitsTruncate (UInt8.ofNat n)).contains .ACK) := by decide +kernel
  have h := hall bits.toNat bits.toNat_lt
  rwa [UInt8.ofNat_toNat] at h

section Agree

variable {b p : Bytes} {v : Ipv4View} (hv : Ipv4View.parse b = .ok v) (h4 : byteAt b 0 >>> 4 = 4)
  (hp : PayloadOf b p)
include hv

theorem view_src : v.src = .ok (Stack.ipv4At b 12) := by
  have h20 := v.minHeader
  have hsrc : v.src = _ := ipv4Field_eq (show 12+4 ≤ v.bytes.length by omega)
  rw [Ipv4View.bytes_of_parse hv] at hsrc
  exact hsrc

theorem view_dst : v.dst = .ok (Stack.ipv4At b 16) := by
  have h20 := v.minHeader
  have hdst : v.dst = _ := ipv4Field_eq (show 16+4 ≤ v.bytes.length by omega)
  rw [Ipv4View.bytes_of_parse hv] at hdst
  exact hdst

include h4 hp

theorem isIpv4Tcp_of_views (hproto : v.protocol = .tcp) {t : TcpView}
    (ht : TcpView.parse p = .ok t) : Stack.IsIpv4Tcp 20 b := by
  have h20 := v.minHeader
  have ht20 := t.minHeader
  have hfits := hp.fits
  have h6 := (IpProtocol.ofUInt8_eq_tcp _).mp hproto
  rw [Ipv4View.bytes_of_parse hv] at h20 h6
  rw [TcpView.bytes_of_parse ht] at ht20
  have hih : Stack.ihl b = headerLen b := rfl
  exact ⟨h20, h4, h6, by omega⟩

theorem isIpv4Udp_of_views (hproto : v.protocol = .udp) {u : UdpView}
    (hu : UdpView.parse p = .ok u) : IsIpv4Udp b := by
  have h20 := v.minHeader
  have h8 := u.header
  have hfits := hp.fits
  have h17 := (IpProtocol.ofUInt8_eq_udp _).mp hproto
  rw [Ipv4View.bytes_of_parse hv] at h20 h17
  rw [UdpView.bytes_of_parse hu] at h8
  have hih : ihl b = headerLen b := rfl
  exact ⟨h20, h4, h17, by omega⟩

/-- The two endpoints and the SYN test of the stack are those of the views. -/
theorem tcp_helpers_agree (hproto : v.protocol = .tcp) {t : TcpView}
    (ht : TcpView.parse p = .ok t) :
    ∃ src srcPort dst dstPort flags, v.src = .ok src ∧ t.srcPort = .ok srcPort ∧
      v.dst = .ok dst ∧ t.dstPort = .ok dstPort ∧ t.flags = .ok flags ∧
      Stack.extractTcpAddrs b = .ok (some (.v4 src srcPort, .v4 dst dstPort)) ∧
      Stack.isTcpSyn b = .ok (flags.contains .SYN && !flags.contains .ACK) := by
  have hpkt := isIpv4Tcp_of_views hv h4 hp hproto ht
  have h20 := t.minHeader
  have hbytes := TcpView.bytes_of_parse ht
  rw [hbytes] at h20
  have hsrc : t.srcPort = .ok (wordAt b (headerLen b+0)) := by
    rw [TcpView.srcPort, hbytes, u16Field_eq (by omega), hp.wordAt_eq (by omega)]
  have hdst : t.dstPort = .ok (wordAt b (headerLen b+2)) := by
    rw [TcpView.dstPort, hbytes, u16Field_eq (by omega), hp.wordAt_eq (by omega)]
  have hflags : t.flags = .ok (.fromBitsTruncate (byteAt b (headerLen b+13))) := by
    rw [TcpView.flags, hbytes, index_eq (by omega), Exec.ok_bind, hp.byteAt_eq (by omega)]
  refine ⟨_, _, _, _, _, view_src hv, hsrc, view_dst hv, hdst, hflags, ?_, ?_⟩
  · rw [Stack.extractTcpAddrs_eq, if_pos hpkt]
    rfl
  · rw [Stack.isTcpSyn_eq hpkt, ← syn_mask]
    rfl

/-- So are the destination port and, when the length fields agree, the payload of a UDP packet. -/
theorem udp_helpers_agree (hproto : v.protocol = .udp) {u : UdpView}
    (hu : UdpView.parse p = .ok u) :
    ∃ dstPort len, u.dstPort = .ok dstPort ∧ u.length = .ok len ∧
      udpDstPort b = .ok (some dstPort) ∧
      (8 ≤ len.toNat → len.toNat ≤ p.length →
        ∃ q, u.payload = .ok q ∧ extractUdpPayload b = .ok (some q)) := by
  have hpkt := isIpv4Udp_of_views hv h4 hp hproto hu
  have h8 := u.header
  have hfits := hp.fits
  have hbytes := UdpView.bytes_of_parse hu
  rw [hbytes] at h8
  have hih : ihl b = headerLen b := rfl
  have hdst : u.dstPort = .ok (wordAt b (headerLen b+2)) := by
    rw [UdpView.dstPort, hbytes, u16Field_eq (by omega), hp.wordAt_eq (by omega)]
  have hword : wordAt p 4 = wordAt b (headerLen b+4) := hp.wordAt_eq (by omega)
  have hlen : u.length = .ok (wordAt b (headerLen b+4)) := by
    rw [UdpView.length, hbytes, u16Field_eq (by omega), hword]
  refine ⟨_, _, hdst, hlen, ?_, ?_⟩
  · rw [udpDstPort_eq, if_pos hpkt]
    rfl
  · intro hge hle
    have hudp : udpLen b = (wordAt b (headerLen b+4)).toNat := rfl
    set len := (wordAt b (headerLen b+4)).toNat
    have hgood : ¬(udpLen b < 8 ∨ b.length < ihl b+udpLen b) := by omega
    -- the payload of the payload is a slice of the packet
    have hq : u.payload = .ok ((p.take len).drop 8) := by
      have hmin : min len p.length = len := Nat.min_eq_left hle
      rw [UdpView.payload_eq, hbytes, hword, hmin, slice_eq hge hle]
    refine ⟨_, hq, ?_⟩
    rw [extractUdpPayload_eq hpkt, if_neg hgood, hudp, hih, hp.eq, slice_slice 8 (by omega)]

end Agree

/-- On a packet that the IPv4 view accepts, with a total length that covers the header, the
helpers that read the bytes themselves see what the views see. -/
theorem raw_helpers_agree {b : Bytes} {v : Ipv4View} (hv : Ipv4View.parse b = .ok v)
    (h4 : byteAt b 0 >>> 4 = 4) (htotal : headerLen b ≤ totalLen b) :
    ∃ p, v.payload = .ok p ∧
      (v.protocol = .tcp → ∀ t, TcpView.parse p = .ok t →
        ∃ src srcPort dst dstPort flags, v.src = .ok src ∧ t.srcPort = .ok srcPort ∧
          v.dst = .ok dst ∧ t.dstPort = .ok dstPort ∧ t.flags = .ok flags ∧
          Stack.extractTcpAddrs b = .ok (some (.v4 src srcPort, .v4 dst dstPort)) ∧
          Stack.isTcpSyn b = .ok (flags.contains .SYN && !flags.contains .ACK)) ∧
      (v.protocol = .udp → ∀ u, UdpView.parse p = .ok u →
        ∃ dstPort len, u.dstPort = .ok dstPort ∧ u.length = .ok len ∧
          udpDstPort b = .ok (some dstPort) ∧
          (8 ≤ len.toNat → len.toNat ≤ p.length →
            ∃ q, u.payload = .ok q ∧ extractUdpPayload b = .ok (some q))) := by
  obtain ⟨p, hpay, hp⟩ := payloadOf_view hv htotal
  refine ⟨p, hpay, ?_, ?_⟩
  · intro hproto t ht
    exact tcp_helpers_agree hv h4 hp hproto ht
  · intro hproto u hu
    exact udp_helpers_agree hv h4 hp hproto hu

/-- Options in the IP header, data in the UDP segment and two bytes behind the packet. -/
def optionsPacket : Bytes :=
  [0x46, 0, 0, 33, 0, 0, 0, 0, 64, 17, 0, 0, 10, 0, 0, 1, 8, 8, 8, 8, 1, 1, 1, 0,
    0x9C, 0x40, 0, 53, 0, 9, 0, 0, 7, 0xFF, 0xFF]

/-- The same for a TCP segment: a SYN to port 443 with one byte of data. -/
def optionsSyn : Bytes :=
  [0x46, 0, 0, 45, 0, 0, 0, 0, 64, 6, 0, 0, 10, 0, 0, 1, 8, 8, 8, 8, 1, 1, 1, 0,
    0x9C, 0x40, 1, 187, 0, 0, 0, 1, 0, 0, 0, 0, 0x50, 2, 0xFF, 0xFF, 0, 0, 0, 0, 7, 0xFF, 0xFF]

theorem options_packet_agrees :
    (∃ v p u q, Ipv4View.parse optionsPacket = .ok v ∧ v.payload = .ok p ∧
      UdpView.parse p = .ok u ∧ udpDstPort optionsPacket = .ok (some 53) ∧ u.payload = .ok q ∧
      extractUdpPayload optionsPacket = .ok (some q)) ∧
    ∃ v p t flags, Ipv4View.parse optionsSyn = .ok v ∧ v.payload = .ok p ∧
      TcpView.parse p = .ok t ∧ t.flags = .ok flags ∧ flags.contains .SYN = true ∧
      Stack.extractTcpAddrs optionsSyn =
        .ok (some (.v4 ⟨10, 0, 0, 1⟩ 40000, .v4 ⟨8, 8, 8, 8⟩ 443)) ∧
      Stack.isTcpSyn optionsSyn = .ok true := by
  constructor
  · obtain ⟨p, hpay, -, hudp⟩ := raw_helpers_agree (b := optionsPacket) rfl rfl (by decide)
    obtain rfl : [0x9C, 0x40, 0, 53, 0, 9, 0, 0, 7] = p := Except.ok.inj hpay
    obtain ⟨port, len, hport, hlen, hdst, hquery⟩ := hudp rfl ⟨_, by decide⟩ rfl
    obtain rfl : 53 = port := Except.ok.inj hport
    obtain rfl : 9 = len := Except.ok.inj hlen
    obtain ⟨q, hq, hx⟩ := hquery (by decide) (by decide)
    exact ⟨_, _, _, q, rfl, hpay, rfl, hdst, hq, hx⟩
  · obtain ⟨p, hpay, htcp, -⟩ := raw_helpers_agree (b := optionsSyn) rfl rfl (by decide)
    obtain rfl : [0x9C, 0x40, 1, 187, 0, 0, 0, 1, 0, 0, 0, 0, 0x50, 2, 0xFF, 0xFF, 0, 0, 0, 0, 7] =
      p := Except.ok.inj hpay
    obtain ⟨src, srcPort, dst, dstPort, flags, hsrc, hsrcPort, hdst, hdstPort, hflags, haddrs,
      hsyn⟩ := htcp rfl ⟨_, by decide, by decide, by decide⟩ rfl
    obtain rfl : ⟨10, 0, 0, 1⟩ = src := Except.ok.inj hsrc
    obtain rfl : 40000 = srcPort := Except.ok.inj hsrcPort
    obtain rfl : ⟨8, 8, 8, 8⟩ = dst := Except.ok.inj hdst
    obtain rfl : 443 = dstPort := Except.ok.inj hdstPort
    obtain rfl : .fromBitsTruncate 2 = flags := Except.ok.inj hflags
    exact ⟨_, _, _, _, rfl, hpay, rfl, hflags, rfl, haddrs, hsyn⟩

end GravitalShare.Engine
