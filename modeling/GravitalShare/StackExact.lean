import GravitalShare.ProtoIp
import GravitalShare.StackRewrite

/-! What a rewrite does to a well-formed packet: the fields it is meant to change and the two
checksums, and nothing else. -/
namespace GravitalShare.Stack

open Proto (IpView Ipv4View)

/-- `out` is `pkt` with the bytes in `touched` and the two checksums changed; it shows these
endpoints and both checksums verify. -/
structure Rewritten (pkt out : Bytes) (touched : ℕ → Prop) (src dst : SocketAddr) : Prop where
  length_eq : out.length = pkt.length
  changed : ∀ i, byteAt out i ≠ byteAt pkt i →
    touched i ∨ (10 ≤ i ∧ i < 12) ∨ (ihl pkt+16 ≤ i ∧ i < ihl pkt+18)
  addrs : extractTcpAddrs out = .ok (some (src, dst))
  ipv4 : ∃ v, Ipv4View.parse out = .ok v ∧ v.verifyChecksum = .ok (.ok ())
  tcp : TcpChecksumOk out

/-- The check of the view is the sum over the header. -/
theorem Rewritten.ipv4Checksum {pkt out : Bytes} {touched : ℕ → Prop} {src dst : SocketAddr}
    (h : Rewritten pkt out touched src dst) : Ipv4ChecksumOk out := by
  obtain ⟨v, hv, hcheck⟩ := h.ipv4
  rw [v.verifyChecksum_eq, Ipv4View.bytes_of_parse hv] at hcheck
  have hsum : ocReduce (wordSum (out.take (Proto.headerLen out))) = 0xFFFF := by
    by_contra hn
    rw [if_neg hn] at hcheck
    cases hcheck
  exact hsum

theorem verifies {out : Bytes} (h20 : 20 ≤ ihl out) (hl : ihl out ≤ out.length)
    (h : Ipv4ChecksumOk out) :
    ∃ v, Ipv4View.parse out = .ok v ∧ v.verifyChecksum = .ok (.ok ()) := by
  obtain ⟨v, hv⟩ := (Ipv4View.parse_accepts_iff out).mpr ⟨by omega, h20, hl⟩
  have hsum : ocReduce (wordSum (v.bytes.take (Proto.headerLen v.bytes))) = 0xFFFF := by
    rw [Ipv4View.bytes_of_parse hv]
    exact h
  exact ⟨v, hv, by rw [v.verifyChecksum_eq, if_pos hsum]⟩

section

variable {pkt p out : Bytes} {touched : ℕ → Prop} (h : IsIpv4Tcp 20 pkt) (h20 : 20 ≤ ihl pkt)
  (hl : p.length = pkt.length) (hsame : ∀ i, ¬touched i → byteAt p i = byteAt pkt i)
  (h0 : ¬touched 0) (h9 : ¬touched 9)
include h h20 hl hsame h0 h9

/-- Fixing the checksums of a packet whose fields were replaced shows the fields as they were
written. -/
theorem rewritten_of_fixed (hfix : ChecksumsFixed p out) :
    Rewritten pkt out touched (srcEndpoint p) (dstEndpoint p) := by
  have hlen : ihl pkt+20 ≤ pkt.length := h.2.2.2
  have hlo : out.length = pkt.length := hfix.length_eq.trans hl
  have hip : ihl p = ihl pkt := by rw [ihl, hsame 0 h0, ihl]
  have hframe (i : ℕ) (h10 : i < 10 ∨ 12 ≤ i) (h16 : i < ihl pkt+16) : byteAt out i = byteAt p i :=
    hfix.frame i (by omega) (by omega)
  have hio : ihl out = ihl pkt := by
    rw [ihl, hframe 0 (by omega) (by omega), ← ihl, hip]
  have hguard : IsIpv4Tcp 20 out := by
    refine ⟨by omega, ?_, ?_, by omega⟩
    · rw [hframe 0 (by omega) (by omega), hsame 0 h0]
      exact h.2.1
    · rw [hframe 9 (by omega) (by omega), hsame 9 h9]
      exact h.2.2.1
  have hsrc : srcEndpoint out = srcEndpoint p := by
    rw [srcEndpoint, srcEndpoint, hio, hip,
      ipv4At_congr fun i _ _ => hframe i (by omega) (by omega),
      u16At_congr fun i _ _ => hframe i (by omega) (by omega)]
  have hdst : dstEndpoint out = dstEndpoint p := by
    rw [dstEndpoint, dstEndpoint, hio, hip,
      ipv4At_congr fun i _ _ => hframe i (by omega) (by omega),
      u16At_congr fun i _ _ => hframe i (by omega) (by omega)]
  refine ⟨hlo, ?_, ?_, verifies (by omega) (by omega) hfix.ipv4, hfix.tcp⟩
  · -- a byte outside all windows went through both steps unchanged
    intro i hne
    by_contra hout
    obtain ⟨ht, hout⟩ := not_or.mp hout
    obtain ⟨hc4, hct⟩ := not_or.mp hout
    exact hne ((hfix.frame i hc4 (by rwa [hip])).trans (hsame i ht))
  · rw [extractTcpAddrs_eq, if_pos hguard, hsrc, hdst]

end

section

variable {pkt : Bytes} (h : IsIpv4Tcp 20 pkt) (h20 : 20 ≤ ihl pkt) (hb : pkt.length ≤ 65535)
include h h20 hb

theorem rewriteInbound_exact (vport : UInt16) :
    ∃ out, rewriteInbound pkt vport = .ok (true, out) ∧
      Rewritten pkt out (fun i => ihl pkt+2 ≤ i ∧ i < ihl pkt+4) (srcEndpoint pkt)
        (.v4 (ipv4At pkt 16) vport) := by
  have hlen : ihl pkt+20 ≤ pkt.length := h.2.2.2
  have hw : ihl pkt+2+2 ≤ pkt.length := by omega
  set p := writeAt pkt (ihl pkt+2) (u16ToBE vport) with hp
  have hl : p.length = pkt.length := length_writeAt hw
  have hsame (i : ℕ) (hi : ¬(ihl pkt+2 ≤ i ∧ i < ihl pkt+4)) : byteAt p i = byteAt pkt i :=
    byteAt_writeAt_outside hw (by rw [length_u16ToBE]; omega)
  have hip : ihl p = ihl pkt := ihl_writeAt hw (by omega)
  have hsrc : srcEndpoint p = srcEndpoint pkt := by
    rw [srcEndpoint, srcEndpoint, hip, ipv4At_congr fun i _ _ => hsame i (by omega),
      u16At_congr fun i _ _ => hsame i (by omega)]
  have hdst : dstEndpoint p = .v4 (ipv4At pkt 16) vport := by
    rw [dstEndpoint, hip, ipv4At_congr fun i _ _ => hsame i (by omega), hp, u16At_stored hw]
  have hfix : ChecksumsFixed p _ := checksumsFixed (by omega) (by omega)
  refine ⟨_, rewriteInbound_eq h hb vport, ?_⟩
  rw [← hsrc, ← hdst]
  exact rewritten_of_fixed h h20 hl hsame (by omega) (by omega) hfix

theorem rewriteOutbound_exact (ip : Ipv4Addr) (port : UInt16) :
    ∃ out, rewriteOutbound pkt ip port = .ok (true, out) ∧
      Rewritten pkt out (fun i => (12 ≤ i ∧ i < 16) ∨ (ihl pkt ≤ i ∧ i < ihl pkt+2))
        (.v4 ip port) (dstEndpoint pkt) := by
  have hlen : ihl pkt+20 ≤ pkt.length := h.2.2.2
  have hwip : 12+4 ≤ pkt.length := by omega
  set q := writeAt pkt 12 ip.octets with hq
  have hlq : q.length = pkt.length := length_writeAt hwip
  have hw : ihl pkt+2 ≤ q.length := by omega
  have hl := length_readdressed h ip port
  have hip := ihl_readdressed h ip port h20
  have hsame (i : ℕ) (hi : ¬((12 ≤ i ∧ i < 16) ∨ (ihl pkt ≤ i ∧ i < ihl pkt+2))) :
      byteAt (readdressed pkt ip port) i = byteAt pkt i := byteAt_readdressed h ip port h20 hi
  have hr := rewriteOutbound_eq h ip port hb hip
  set p := readdressed pkt ip port with hp
  have hpq : p = writeAt q (ihl pkt) (u16ToBE port) := rfl
  -- the header is at least 20 bytes long, so the port lies behind the address
  have haddr (i : ℕ) (hi : i < ihl pkt ∨ ihl pkt+2 ≤ i) : byteAt p i = byteAt q i :=
    byteAt_writeAt_outside hw hi
  have hsrc : srcEndpoint p = .v4 ip port := by
    rw [srcEndpoint, hip, ipv4At_congr fun i _ _ => haddr i (by omega), hq, ipv4At_stored hwip,
      hpq, u16At_stored hw]
  have hdst : dstEndpoint p = dstEndpoint pkt := by
    rw [dstEndpoint, dstEndpoint, hip, ipv4At_congr fun i _ _ => hsame i (by omega),
      u16At_congr fun i _ _ => hsame i (by omega)]
  have hfix : ChecksumsFixed p _ := checksumsFixed (by omega) (by omega)
  refine ⟨_, hr, ?_⟩
  rw [← hsrc, ← hdst]
  exact rewritten_of_fixed h h20 hl hsame (by omega) (by omega) hfix

end

/-- Both rewrites of a well-formed TCP packet succeed and are exact, whatever its checksums
were. -/
theorem rewriting_exact {pkt : Bytes} {v : Ipv4View} (hv : IpView.parse pkt = .ok (.v4 v))
    (hproto : v.protocol = .tcp) (hroom : Proto.headerLen pkt+20 ≤ pkt.length)
    (hmax : pkt.length ≤ 65535) :
    (∀ vport, ∃ out, rewriteInbound pkt vport = .ok (true, out) ∧
      ∃ src ip port, extractTcpAddrs pkt = .ok (some (src, .v4 ip port)) ∧
        Rewritten pkt out (fun i => ihl pkt+2 ≤ i ∧ i < ihl pkt+4) src (.v4 ip vport)) ∧
    ∀ ip port, ∃ out, rewriteOutbound pkt ip port = .ok (true, out) ∧
      ∃ src dst, extractTcpAddrs pkt = .ok (some (src, dst)) ∧
        Rewritten pkt out (fun i => (12 ≤ i ∧ i < 16) ∨ (ihl pkt ≤ i ∧ i < ihl pkt+2))
          (.v4 ip port) dst := by
  obtain ⟨v', hv', h4, hparse⟩ | ⟨v', hv', -⟩ := IpView.parse_eq_ok hv
  · cases hv'
    have hbytes := Ipv4View.bytes_of_parse hparse
    have hmin := v.minHeader
    have h20 := v.ihl_ge
    have h6 := (Proto.IpProtocol.ofUInt8_eq_tcp _).mp hproto
    rw [hbytes] at hmin h20 h6
    have h : IsIpv4Tcp 20 pkt := ⟨hmin, h4, h6, hroom⟩
    have haddrs : extractTcpAddrs pkt = .ok (some (srcEndpoint pkt, dstEndpoint pkt)) := by
      rw [extractTcpAddrs_eq, if_pos h]
    constructor
    · intro vport
      obtain ⟨out, hr, hx⟩ := rewriteInbound_exact h h20 hmax vport
      exact ⟨out, hr, _, _, _, haddrs, hx⟩
    · intro ip port
      obtain ⟨out, hr, hx⟩ := rewriteOutbound_exact h h20 hmax ip port
      exact ⟨out, hr, _, _, haddrs, hx⟩
  · cases hv'

/-- One byte of data, one word of options in the IP header, two wrong checksums. -/
def oddSegment : Bytes :=
  [0x46, 0, 0, 45, 0, 0, 0, 0, 64, 6, 1, 2, 10, 0, 0, 1, 93, 184, 216, 34, 1, 1, 1, 0,
    0x9C, 0x40, 1, 187, 0, 0, 0, 1, 0, 0, 0, 0, 0x50, 0x10, 0, 0, 3, 4, 0, 0, 7]

theorem odd_segment_rewritten : (∃ out, rewriteInbound oddSegment 10000 = .ok (true, out) ∧
      extractTcpAddrs out = .ok (some (.v4 ⟨10, 0, 0, 1⟩ 40000, .v4 ⟨93, 184, 216, 34⟩ 10000))) ∧
    ∃ out, rewriteOutbound oddSegment ⟨1, 1, 1, 1⟩ 80 = .ok (true, out) ∧ TcpChecksumOk out := by
  have hv : IpView.parse oddSegment = .ok (.v4 ⟨oddSegment, by decide, by decide, by decide⟩) := rfl
  obtain ⟨hin, hout⟩ := rewriting_exact hv rfl (by decide) (by decide)
  constructor
  · obtain ⟨out, hr, src, ip, port, hx, h⟩ := hin 10000
    cases hx
    exact ⟨out, hr, h.addrs⟩
  · obtain ⟨out, hr, src, dst, -, h⟩ := hout ⟨1, 1, 1, 1⟩ 80
    exact ⟨out, hr, h.tcp⟩

end GravitalShare.Stack
