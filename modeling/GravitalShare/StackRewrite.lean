import GravitalShare.OnesComplement
import GravitalShare.Net

/-! IPv4/TCP packet rewriting between the TUN device and smoltcp. -/
namespace GravitalShare.Stack

def checksum (data : Bytes) : Exec UInt16 := do
  let sum ← sumWords 0 data
  let sum ← foldLoop sum sum
  .ok (~~~(UInt16.ofNat sum))

-- (pkt[0] & 0x0F) as usize * 4
def headerLen (b0 : UInt8) : ℕ := (b0 &&& 0x0F).toNat*4

def fixIpv4Checksum (pkt : Bytes) : Exec Bytes := do
  debugAssert (20 ≤ pkt.length)
  -- the checksum field counts as zero
  let pkt ← copyAt pkt 10 [0]
  let pkt ← copyAt pkt 11 [0]
  let b0 ← index pkt 0
  let header ← slice pkt 0 (headerLen b0)
  let csum ← checksum header
  copyAt pkt 10 (u16ToBE csum)

-- source, destination, zero, protocol, TCP length
def pseudoHeader (srcIp dstIp : Bytes) (tcpLen : ℕ) : Bytes :=
  srcIp ++ dstIp ++ [0, 6] ++ u16ToBE (UInt16.ofNat tcpLen)

def fixTcpChecksum (pkt : Bytes) : Exec Bytes := do
  let b0 ← index pkt 0
  let ihl := headerLen b0
  let tcpLen ← subUsize pkt.length ihl
  let srcIp ← slice pkt 12 16
  let dstIp ← slice pkt 16 20
  let pseudo := pseudoHeader srcIp dstIp tcpLen
  -- zero out the existing TCP checksum
  let pkt ← copyAt pkt (ihl+16) [0]
  let pkt ← copyAt pkt (ihl+17) [0]
  let sum ← sumWords 0 pseudo
  let seg ← slice pkt ihl pkt.length
  let sum ← sumWords sum seg
  let sum ← foldLoop sum sum
  copyAt pkt (ihl+16) (u16ToBE (~~~(UInt16.ofNat sum)))

/-- The guard the functions below open with: at least 20 bytes, version 4, protocol TCP
and `need` bytes after the header. It yields the header length. -/
def ipv4Tcp (need : ℕ) (pkt : Bytes) : Exec (Option ℕ) :=
  if pkt.length < 20 then .ok none
  else do
    let b0 ← index pkt 0
    let proto ← index pkt 9
    if b0 >>> 4 ≠ 4 ∨ proto ≠ 6 then .ok none
    else if pkt.length < headerLen b0+need then .ok none
    else .ok (some (headerLen b0))

-- the buffer is mutated in place: the result carries it along with the flag
def rewriteInbound (pkt : Bytes) (vport : UInt16) : Exec (Bool × Bytes) := do
  match ← ipv4Tcp 20 pkt with
  | none => .ok (false, pkt)
  | some ihl =>
    -- the destination address stays as the app wrote it
    let pkt ← copyAt pkt (ihl+2) (u16ToBE vport)
    let pkt ← fixTcpChecksum pkt
    let pkt ← fixIpv4Checksum pkt
    .ok (true, pkt)

def rewriteOutbound (pkt : Bytes) (realDstIp : Ipv4Addr) (realDstPort : UInt16) :
    Exec (Bool × Bytes) := do
  match ← ipv4Tcp 20 pkt with
  | none => .ok (false, pkt)
  | some ihl =>
    -- source address and port, so that the app sees the server it talked to
    let pkt ← copyAt pkt 12 realDstIp.octets
    let pkt ← copyAt pkt ihl (u16ToBE realDstPort)
    let pkt ← fixTcpChecksum pkt
    let pkt ← fixIpv4Checksum pkt
    .ok (true, pkt)

def readIpv4 (pkt : Bytes) (off : ℕ) : Exec Ipv4Addr := do
  let a ← index pkt off
  let b ← index pkt (off+1)
  let c ← index pkt (off+2)
  let d ← index pkt (off+3)
  .ok ⟨a, b, c, d⟩

def readU16 (pkt : Bytes) (off : ℕ) : Exec UInt16 := do
  let hi ← index pkt off
  let lo ← index pkt (off+1)
  .ok (u16FromBE hi lo)

def extractTcpAddrs (pkt : Bytes) : Exec (Option (SocketAddr × SocketAddr)) := do
  match ← ipv4Tcp 20 pkt with
  | none => .ok none
  | some ihl =>
    let srcIp ← readIpv4 pkt 12
    let dstIp ← readIpv4 pkt 16
    let srcPort ← readU16 pkt ihl
    let dstPort ← readU16 pkt (ihl+2)
    .ok (some (.v4 srcIp srcPort, .v4 dstIp dstPort))

def isTcpSyn (pkt : Bytes) : Exec Bool := do
  let b0 ← index pkt 0
  let ihl := headerLen b0
  if pkt.length < ihl+14 then .ok false
  else do
    let flags ← index pkt (ihl+13)
    -- SYN without ACK
    .ok (flags &&& 0x12 == 0x02)

def outboundSrcPort (pkt : Bytes) : Exec (Option UInt16) := do
  match ← ipv4Tcp 4 pkt with
  | none => .ok none
  | some ihl =>
    let port ← readU16 pkt ihl
    .ok (some port)

-- Total views of a packet, for the statements below.

def ihl (pkt : Bytes) : ℕ := headerLen (byteAt pkt 0)

def IsIpv4Tcp (need : ℕ) (pkt : Bytes) : Prop :=
  20 ≤ pkt.length ∧ byteAt pkt 0 >>> 4 = 4 ∧ byteAt pkt 9 = 6 ∧ ihl pkt+need ≤ pkt.length

def ipv4At (pkt : Bytes) (off : ℕ) : Ipv4Addr :=
  ⟨byteAt pkt off, byteAt pkt (off+1), byteAt pkt (off+2), byteAt pkt (off+3)⟩

def u16At (pkt : Bytes) (off : ℕ) : UInt16 := u16FromBE (byteAt pkt off) (byteAt pkt (off+1))

def synFlag (pkt : Bytes) : Bool := byteAt pkt (ihl pkt+13) &&& 0x12 == 0x02

def srcEndpoint (pkt : Bytes) : SocketAddr := .v4 (ipv4At pkt 12) (u16At pkt (ihl pkt))

def dstEndpoint (pkt : Bytes) : SocketAddr := .v4 (ipv4At pkt 16) (u16At pkt (ihl pkt+2))

instance (need : ℕ) (pkt : Bytes) : Decidable (IsIpv4Tcp need pkt) :=
  inferInstanceAs (Decidable (_ ∧ _))

theorem ipv4At_congr {p q : Bytes} {off : ℕ}
    (h : ∀ i, off ≤ i → i < off+4 → byteAt p i = byteAt q i) : ipv4At p off = ipv4At q off := by
  rw [ipv4At, h off (by omega) (by omega), h (off+1) (by omega) (by omega),
    h (off+2) (by omega) (by omega), h (off+3) (by omega) (by omega), ipv4At]

theorem u16At_congr {p q : Bytes} {off : ℕ}
    (h : ∀ i, off ≤ i → i < off+2 → byteAt p i = byteAt q i) : u16At p off = u16At q off := by
  rw [u16At, h off (by omega) (by omega), h (off+1) (by omega) (by omega), u16At]

theorem byteAt_stored {pkt : Bytes} {off : ℕ} (src : Bytes) (h : off+src.length ≤ pkt.length)
    {i : ℕ} (hi : i < src.length) : byteAt (writeAt pkt off src) (off+i) = byteAt src i := by
  rw [byteAt_writeAt h, if_pos ⟨Nat.le_add_right _ _, Nat.add_lt_add_left hi _⟩,
    Nat.add_sub_cancel_left]

theorem u16At_stored {pkt : Bytes} {off : ℕ} (h : off+2 ≤ pkt.length) (v : UInt16) :
    u16At (writeAt pkt off (u16ToBE v)) off = v := by
  have h0 := byteAt_stored (u16ToBE v) h (show 0 < 2 by decide)
  have h1 := byteAt_stored (u16ToBE v) h (show 1 < 2 by decide)
  rw [Nat.add_zero] at h0
  rw [u16At, h0, h1, u16FromBE_u16ToBE]

theorem ipv4At_stored {pkt : Bytes} {off : ℕ} (h : off+4 ≤ pkt.length) (ip : Ipv4Addr) :
    ipv4At (writeAt pkt off ip.octets) off = ip := by
  have h0 := byteAt_stored ip.octets h (show 0 < 4 by decide)
  have h1 := byteAt_stored ip.octets h (show 1 < 4 by decide)
  have h2 := byteAt_stored ip.octets h (show 2 < 4 by decide)
  have h3 := byteAt_stored ip.octets h (show 3 < 4 by decide)
  rw [Nat.add_zero] at h0
  rw [ipv4At, h0, h1, h2, h3]
  rfl

theorem ipv4Tcp_eq (need : ℕ) (pkt : Bytes) :
    ipv4Tcp need pkt = .ok (if IsIpv4Tcp need pkt then some (ihl pkt) else none) := by
  unfold ipv4Tcp
  by_cases hl : pkt.length < 20
  · have hn : ¬IsIpv4Tcp need pkt := fun h => absurd h.1 (by omega)
    rw [if_pos hl, if_neg hn]
  · -- the length was checked first, so neither index can fail
    rw [if_neg hl, index_eq (by omega), index_eq (by omega), Exec.ok_bind, Exec.ok_bind]
    split_ifs with h1 h2 h3 h3 h3
    · exact absurd h2 (fun h => h1.elim (fun h4 => h4 h.2.1) (fun h6 => h6 h.2.2.1))
    · rfl
    · exact absurd h3.2.2.2 (by unfold ihl; omega)
    · rfl
    · rfl
    · rw [not_or, not_not, not_not] at h1
      exact absurd ⟨by omega, h1.1, h1.2, by unfold ihl; omega⟩ h3

theorem readIpv4_eq {pkt : Bytes} {off : ℕ} (h : off+4 ≤ pkt.length) :
    readIpv4 pkt off = .ok (ipv4At pkt off) := by
  simp only [readIpv4, index_eq (show off < pkt.length by omega),
    index_eq (show off+1 < pkt.length by omega), index_eq (show off+2 < pkt.length by omega),
    index_eq (show off+3 < pkt.length by omega), Exec.ok_bind, ipv4At]

theorem readU16_eq {pkt : Bytes} {off : ℕ} (h : off+2 ≤ pkt.length) :
    readU16 pkt off = .ok (u16At pkt off) := by
  simp only [readU16, index_eq (show off < pkt.length by omega),
    index_eq (show off+1 < pkt.length by omega), Exec.ok_bind, u16At]

/-- Address extraction never panics and reads the two endpoints. -/
theorem extractTcpAddrs_eq (pkt : Bytes) :
    extractTcpAddrs pkt =
      .ok (if IsIpv4Tcp 20 pkt then some (srcEndpoint pkt, dstEndpoint pkt) else none) := by
  simp only [extractTcpAddrs, ipv4Tcp_eq, Exec.ok_bind]
  split_ifs with h
  · obtain ⟨hl, _, _, hi⟩ := h
    simp only [readIpv4_eq (show 12+4 ≤ pkt.length by omega),
      readIpv4_eq (show 16+4 ≤ pkt.length by omega),
      readU16_eq (show ihl pkt+2 ≤ pkt.length by omega),
      readU16_eq (show ihl pkt+2+2 ≤ pkt.length by omega), Exec.ok_bind, srcEndpoint, dstEndpoint]
  · rfl

theorem isTcpSyn_eq {pkt : Bytes} (h : IsIpv4Tcp 20 pkt) : isTcpSyn pkt = .ok (synFlag pkt) := by
  obtain ⟨hl, _, _, hi⟩ := h
  have hih : headerLen (byteAt pkt 0) = ihl pkt := rfl
  have hlen : ¬pkt.length < ihl pkt+14 := by omega
  simp only [isTcpSyn, index_eq (show 0 < pkt.length by omega), Exec.ok_bind, hih, if_neg hlen,
    index_eq (show ihl pkt+13 < pkt.length by omega), synFlag]

theorem outboundSrcPort_eq (pkt : Bytes) :
    outboundSrcPort pkt =
      .ok (if IsIpv4Tcp 4 pkt then some (u16At pkt (ihl pkt)) else none) := by
  simp only [outboundSrcPort, ipv4Tcp_eq, Exec.ok_bind]
  split_ifs with h
  · obtain ⟨hl, _, _, hi⟩ := h
    simp only [readU16_eq (show ihl pkt+2 ≤ pkt.length by omega), Exec.ok_bind]
  · rfl

theorem checksum_eq {data : Bytes} (h : data.length ≤ 131074) :
    checksum data = .ok (ocChecksum data) := checksumFrom_zero h

theorem headerLen_le (b0 : UInt8) : headerLen b0 ≤ 60 := by
  have h : b0 &&& 0x0F ≤ 0x0F := UInt8.and_le_right
  have h' := UInt8.le_iff_toNat_le.mp h
  have hc : (0x0F : UInt8).toNat = 15 := by decide
  unfold headerLen
  omega

/-- The packet with its IPv4 header checksum set. -/
def withIpv4Checksum (pkt : Bytes) : Bytes :=
  writeAt pkt 10 (u16ToBE (ocChecksum ((writeAt pkt 10 [0, 0]).take (ihl pkt))))

def tcpPseudo (pkt : Bytes) : Bytes :=
  pseudoHeader ((pkt.take 16).drop 12) ((pkt.take 20).drop 16) (pkt.length-ihl pkt)

/-- The packet with its TCP checksum set. -/
def withTcpChecksum (pkt : Bytes) : Bytes :=
  writeAt pkt (ihl pkt+16) (u16ToBE (ocChecksum
    (tcpPseudo pkt ++ (writeAt pkt (ihl pkt+16) [0, 0]).drop (ihl pkt))))

theorem ihl_writeAt {pkt src : Bytes} {off : ℕ} (h : off+src.length ≤ pkt.length) (h0 : 0 < off) :
    ihl (writeAt pkt off src) = ihl pkt := by
  unfold ihl
  rw [byteAt_writeAt_outside h (Or.inl h0)]

theorem fixIpv4Checksum_eq {pkt : Bytes} (hl : 20 ≤ pkt.length) (hi : ihl pkt ≤ pkt.length) :
    fixIpv4Checksum pkt = .ok (withIpv4Checksum pkt) := by
  have hz : 10+[(0 : UInt8), 0].length ≤ pkt.length := by
    simp only [List.length_cons, List.length_nil]
    omega
  have hlen := length_writeAt hz
  have hzero : (copyAt pkt 10 [0] >>= fun p => copyAt p 11 [0]) = .ok (writeAt pkt 10 [0, 0]) :=
    copyAt_zeros (by omega)
  obtain ⟨p, hp, hp'⟩ := Exec.bind_eq_ok.mp hzero
  -- the header length is read again after the checksum field was cleared
  have hih : headerLen (byteAt (writeAt pkt 10 [0, 0]) 0) = ihl pkt := ihl_writeAt hz (by decide)
  have hcs : ((writeAt pkt 10 [0, 0]).take (ihl pkt)).length ≤ 131074 := by
    have := headerLen_le (byteAt pkt 0)
    rw [List.length_take]
    unfold ihl
    omega
  have hda : debugAssert (20 ≤ pkt.length) = .ok () := if_pos hl
  simp only [fixIpv4Checksum, hda, hp, hp', Exec.ok_bind,
    index_eq (show 0 < (writeAt pkt 10 [0, 0]).length by omega), hih,
    slice_eq (Nat.zero_le _) (show ihl pkt ≤ (writeAt pkt 10 [0, 0]).length by omega),
    List.drop_zero, checksum_eq hcs]
  exact copyAt_store (by omega) _

theorem length_pseudoHeader (src dst : Bytes) (n : ℕ) :
    (pseudoHeader src dst n).length = src.length+dst.length+4 := by
  simp only [pseudoHeader, List.length_append, List.length_cons, List.length_nil, length_u16ToBE]

theorem length_tcpPseudo {pkt : Bytes} (hl : 20 ≤ pkt.length) : (tcpPseudo pkt).length = 12 := by
  rw [tcpPseudo, length_pseudoHeader]
  simp only [List.length_drop, List.length_take]
  omega

/-- The accesses of the TCP step are in bounds; what can still fail is the summation. -/
theorem fixTcpChecksum_bind {pkt : Bytes} (hl : 20 ≤ pkt.length) (hi : ihl pkt+18 ≤ pkt.length) :
    fixTcpChecksum pkt = sumWords 0 (tcpPseudo pkt) >>= fun sum =>
      sumWords sum ((writeAt pkt (ihl pkt+16) [0, 0]).drop (ihl pkt)) >>= fun sum =>
        foldLoop sum sum >>= fun sum =>
          .ok (writeAt pkt (ihl pkt+16) (u16ToBE (~~~(UInt16.ofNat sum)))) := by
  have hz : ihl pkt+16+[(0 : UInt8), 0].length ≤ pkt.length := hi
  have hlen := length_writeAt hz
  have hzero : (copyAt pkt (ihl pkt+16) [0] >>= fun p => copyAt p (ihl pkt+17) [0]) =
      .ok (writeAt pkt (ihl pkt+16) [0, 0]) := copyAt_zeros (by omega)
  obtain ⟨p, hp, hp'⟩ := Exec.bind_eq_ok.mp hzero
  have hsub : subUsize pkt.length (ihl pkt) = .ok (pkt.length-ihl pkt) := if_pos (by omega)
  have hih : headerLen (byteAt pkt 0) = ihl pkt := rfl
  have hpd : pseudoHeader ((pkt.take 16).drop 12) ((pkt.take 20).drop 16) (pkt.length-ihl pkt) =
      tcpPseudo pkt := rfl
  simp only [fixTcpChecksum, index_eq (show 0 < pkt.length by omega), Exec.ok_bind, hih, hsub,
    slice_eq (show 12 ≤ 16 by decide) (show 16 ≤ pkt.length by omega),
    slice_eq (show 16 ≤ 20 by decide) hl, hpd, hp, hp',
    slice_eq (show ihl pkt ≤ (writeAt pkt (ihl pkt+16) [0, 0]).length by omega) (le_refl _),
    List.take_length, copyAt_store (show ihl pkt+16+2 ≤ pkt.length from hi)]

theorem fixTcpChecksum_eq {pkt : Bytes} (hl : 20 ≤ pkt.length) (hi : ihl pkt+18 ≤ pkt.length)
    (hb : pkt.length ≤ 65535) : fixTcpChecksum pkt = .ok (withTcpChecksum pkt) := by
  have hz : ihl pkt+16+[(0 : UInt8), 0].length ≤ pkt.length := hi
  have hlen := length_writeAt hz
  set q := writeAt pkt (ihl pkt+16) [0, 0] with hq
  have hps := length_tcpPseudo hl
  -- both loops together add up the words of the pseudo header followed by the segment
  have happ := wordSum_append (tcpPseudo pkt) (q.drop (ihl pkt)) (by rw [hps])
  have hbound : wordSum (tcpPseudo pkt ++ q.drop (ihl pkt)) < 2^32 := by
    have := wordSum_le (tcpPseudo pkt ++ q.drop (ihl pkt))
    rw [List.length_append, hps, List.length_drop, hlen] at this
    omega
  have hs1 : sumWords 0 (tcpPseudo pkt) = .ok (wordSum (tcpPseudo pkt)) := by
    rw [sumWords_eq _ _ (by omega), Nat.zero_add]
  have hs2 : sumWords (wordSum (tcpPseudo pkt)) (q.drop (ihl pkt)) =
      .ok (wordSum (tcpPseudo pkt ++ q.drop (ihl pkt))) := by
    rw [sumWords_eq _ _ (by omega), happ]
  rw [fixTcpChecksum_bind hl hi, hs1, Exec.ok_bind, hs2, Exec.ok_bind,
    foldLoop_eq _ _ (le_refl _), Exec.ok_bind, complement_ofNat (ocReduce_le _)]
  rfl

def Ipv4ChecksumOk (pkt : Bytes) : Prop := ocReduce (wordSum (pkt.take (ihl pkt))) = 0xFFFF

def TcpChecksumOk (pkt : Bytes) : Prop :=
  ocReduce (wordSum (tcpPseudo pkt ++ pkt.drop (ihl pkt))) = 0xFFFF

/-- `out` is `pkt` with nothing changed but the two checksum fields, and both verify. -/
structure ChecksumsFixed (pkt out : Bytes) : Prop where
  length_eq : out.length = pkt.length
  frame : ∀ i, ¬(10 ≤ i ∧ i < 12) → ¬(ihl pkt+16 ≤ i ∧ i < ihl pkt+18) →
    byteAt out i = byteAt pkt i
  ipv4 : Ipv4ChecksumOk out
  tcp : TcpChecksumOk out

/-- The pseudo header reads the addresses, the length and the header length only. -/
theorem tcpPseudo_congr {p q : Bytes} (hl : 20 ≤ p.length) (hpq : p.length = q.length)
    (hi : ihl p = ihl q) (h : ∀ i, 12 ≤ i → i < 20 → byteAt p i = byteAt q i) :
    tcpPseudo p = tcpPseudo q := by
  have hsrc := slice_congr 12 (show 16 ≤ p.length by omega) hpq
    (fun i h1 h2 => h i h1 (by omega))
  have hdst := slice_congr 16 hl hpq (fun i h1 h2 => h i (by omega) h2)
  rw [tcpPseudo, tcpPseudo, hsrc, hdst, hpq, hi]

section Fixed

variable {pkt : Bytes} (hi : 20 ≤ ihl pkt) (hl : ihl pkt+18 ≤ pkt.length)
include hi hl

theorem tcpChecksumOk_withTcpChecksum : TcpChecksumOk (withTcpChecksum pkt) := by
  have hw : ihl pkt+16+2 ≤ pkt.length := hl
  have hih : ihl (withTcpChecksum pkt) = ihl pkt := ihl_writeAt hw (by omega)
  have hlen : (withTcpChecksum pkt).length = pkt.length := length_writeAt hw
  have hps : tcpPseudo (withTcpChecksum pkt) = tcpPseudo pkt :=
    tcpPseudo_congr (by omega) hlen hih fun i _ h => byteAt_writeAt_outside hw (Or.inl (by omega))
  have h12 : (tcpPseudo pkt).length = 12 := length_tcpPseudo (by omega)
  rw [TcpChecksumOk, hps, hih]
  exact ocReduce_pseudo_store (by rw [h12]) (by decide) hw

theorem ipv4ChecksumOk_withIpv4Checksum : Ipv4ChecksumOk (withIpv4Checksum pkt) := by
  set c := u16ToBE (ocChecksum ((writeAt pkt 10 [0, 0]).take (ihl pkt))) with hc
  have hle : 10+2 ≤ pkt.length := by omega
  have hw : 10+c.length ≤ pkt.length := hle
  have hz : 10+[(0 : UInt8), 0].length ≤ ihl pkt := by
    simp only [List.length_cons, List.length_nil]
    omega
  have hout : withIpv4Checksum pkt = writeAt pkt 10 c := rfl
  have hih : ihl (withIpv4Checksum pkt) = ihl pkt := ihl_writeAt hw (by decide)
  rw [Ipv4ChecksumOk, hih, hout, take_writeAt (by rw [hc, length_u16ToBE]; omega) (by omega), hc,
    take_writeAt hz (by omega)]
  apply ocReduce_wordSum_store _ _ (by decide)
  rw [List.length_take]
  omega

/-- The header checksum is outside everything the TCP checksum covers. -/
theorem tcpChecksumOk_withIpv4Checksum (h : TcpChecksumOk pkt) :
    TcpChecksumOk (withIpv4Checksum pkt) := by
  have hw : 10+2 ≤ pkt.length := by omega
  have hih : ihl (withIpv4Checksum pkt) = ihl pkt := ihl_writeAt hw (by decide)
  have hlen : (withIpv4Checksum pkt).length = pkt.length := length_writeAt hw
  have hsame (i : ℕ) (h12 : 12 ≤ i) : byteAt (withIpv4Checksum pkt) i = byteAt pkt i :=
    byteAt_writeAt_outside hw (Or.inr h12)
  have hps : tcpPseudo (withIpv4Checksum pkt) = tcpPseudo pkt :=
    tcpPseudo_congr (by omega) hlen hih fun i h12 _ => hsame i h12
  have hseg : (withIpv4Checksum pkt).drop (ihl pkt) = pkt.drop (ihl pkt) := by
    apply bytes_ext
    · rw [List.length_drop, List.length_drop, hlen]
    · intro i _
      rw [byteAt_drop, byteAt_drop]
      exact hsame _ (by omega)
  rw [TcpChecksumOk, hps, hih, hseg]
  exact h

theorem checksumsFixed : ChecksumsFixed pkt (withIpv4Checksum (withTcpChecksum pkt)) := by
  have hwt : ihl pkt+16+2 ≤ pkt.length := hl
  have hlt : (withTcpChecksum pkt).length = pkt.length := length_writeAt hwt
  have hit : ihl (withTcpChecksum pkt) = ihl pkt := ihl_writeAt hwt (by omega)
  have hwi : 10+2 ≤ (withTcpChecksum pkt).length := by omega
  refine ⟨(length_writeAt hwi).trans hlt, ?_, ?_, ?_⟩
  · intro i h10 h16
    calc
      _ = byteAt (withTcpChecksum pkt) i :=
        byteAt_writeAt_outside hwi (by rw [length_u16ToBE]; omega)
      _ = byteAt pkt i := byteAt_writeAt_outside hwt (by rw [length_u16ToBE]; omega)
  · exact ipv4ChecksumOk_withIpv4Checksum (by omega) (by omega)
  · exact tcpChecksumOk_withIpv4Checksum (by omega) (by omega)
      (tcpChecksumOk_withTcpChecksum hi hl)

end Fixed

/-- `fixTcpChecksum` and then `fixIpv4Checksum`, as both rewriters end. -/
theorem fixChecksums_eq {pkt : Bytes} (hl : 20 ≤ pkt.length) (hi : ihl pkt+18 ≤ pkt.length)
    (hb : pkt.length ≤ 65535) :
    (fixTcpChecksum pkt >>= fixIpv4Checksum) = .ok (withIpv4Checksum (withTcpChecksum pkt)) := by
  have hw : ihl pkt+16+2 ≤ pkt.length := hi
  have hlt : (withTcpChecksum pkt).length = pkt.length := length_writeAt hw
  have hit : ihl (withTcpChecksum pkt) = ihl pkt := ihl_writeAt hw (by omega)
  rw [fixTcpChecksum_eq hl hi hb, Exec.ok_bind, fixIpv4Checksum_eq (by omega) (by omega)]

/-- On a buffer of any length the TCP step, if it does not overflow, stores one word. -/
theorem fixTcpChecksum_ok {pkt out : Bytes} (hl : 20 ≤ pkt.length) (hi : ihl pkt+18 ≤ pkt.length)
    (h : fixTcpChecksum pkt = .ok out) : ∃ csum, out = writeAt pkt (ihl pkt+16) (u16ToBE csum) := by
  rw [fixTcpChecksum_bind hl hi] at h
  obtain ⟨s1, -, h⟩ := Exec.bind_eq_ok.mp h
  obtain ⟨s2, -, h⟩ := Exec.bind_eq_ok.mp h
  obtain ⟨s3, -, h⟩ := Exec.bind_eq_ok.mp h
  exact ⟨_, (Except.ok.inj h).symm⟩

/-- A completed inbound rewrite reports success and has stored the port and two checksums. -/
theorem rewriteInbound_ok {pkt out : Bytes} {vport : UInt16} {b : Bool} (h : IsIpv4Tcp 20 pkt)
    (hr : rewriteInbound pkt vport = .ok (b, out)) :
    b = true ∧ ∃ csum, out = withIpv4Checksum (writeAt
      (writeAt pkt (ihl pkt+2) (u16ToBE vport)) (ihl pkt+16) (u16ToBE csum)) := by
  have hl := h.1
  have hi : ihl pkt+20 ≤ pkt.length := h.2.2.2
  have hw : ihl pkt+2+(u16ToBE vport).length ≤ pkt.length := by
    rw [length_u16ToBE]
    omega
  have hlw := length_writeAt hw
  have hiw := ihl_writeAt hw (by omega)
  simp only [rewriteInbound, ipv4Tcp_eq, if_pos h, copyAt_eq hw, Exec.ok_bind] at hr
  obtain ⟨p, hp, hr⟩ := Exec.bind_eq_ok.mp hr
  -- both stores lie behind byte 0, so the header length is the same after each
  obtain ⟨csum, hc⟩ := fixTcpChecksum_ok (by omega) (by omega) hp
  have hwt : ihl pkt+16+(u16ToBE csum).length ≤
      (writeAt pkt (ihl pkt+2) (u16ToBE vport)).length := by
    rw [length_u16ToBE]
    omega
  rw [hiw] at hc
  have hlp : p.length = pkt.length := by rw [hc, length_writeAt hwt, hlw]
  have hip : ihl p = ihl pkt := by rw [hc, ihl_writeAt hwt (by omega), hiw]
  rw [fixIpv4Checksum_eq (by omega) (by omega), Exec.ok_bind] at hr
  obtain ⟨hb, hout⟩ := Prod.mk.inj (Except.ok.inj hr)
  exact ⟨hb.symm, csum, by rw [← hout, hc]⟩

/-- Inbound rewriting succeeds on every packet that passes the guard, also when the
header length nibble is below five. -/
theorem rewriteInbound_eq {pkt : Bytes} (h : IsIpv4Tcp 20 pkt) (hb : pkt.length ≤ 65535)
    (vport : UInt16) :
    rewriteInbound pkt vport = .ok (true, withIpv4Checksum (withTcpChecksum
      (writeAt pkt (ihl pkt+2) (u16ToBE vport)))) := by
  have hl := h.1
  have hi : ihl pkt+20 ≤ pkt.length := h.2.2.2
  have hw : ihl pkt+2+(u16ToBE vport).length ≤ pkt.length := by
    rw [length_u16ToBE]
    omega
  have hlw := length_writeAt hw
  have hiw := ihl_writeAt hw (by omega)
  obtain ⟨p, hp, hp'⟩ := Exec.bind_eq_ok.mp (fixChecksums_eq (show 20 ≤ (writeAt pkt
    (ihl pkt+2) (u16ToBE vport)).length by omega) (by omega) (by omega))
  simp only [rewriteInbound, ipv4Tcp_eq, if_pos h, copyAt_eq hw, hp, hp', Exec.ok_bind]

/-- Inbound rewriting replaces the destination port and no address. -/
theorem rewriteInbound_addrs {pkt out : Bytes} {vport : UInt16} {b : Bool} (h : IsIpv4Tcp 20 pkt)
    (h20 : 20 ≤ ihl pkt) (hr : rewriteInbound pkt vport = .ok (b, out)) :
    IsIpv4Tcp 20 out ∧ srcEndpoint out = srcEndpoint pkt ∧
      dstEndpoint out = .v4 (ipv4At pkt 16) vport := by
  have hi : ihl pkt+20 ≤ pkt.length := h.2.2.2
  obtain ⟨-, csum, rfl⟩ := rewriteInbound_ok h hr
  -- three stores: the port, the TCP checksum behind it, the header checksum in front
  set p := writeAt pkt (ihl pkt+2) (u16ToBE vport) with hp
  set q := writeAt p (ihl pkt+16) (u16ToBE csum) with hq
  have hwp : ihl pkt+2+2 ≤ pkt.length := by omega
  have hlp : p.length = pkt.length := length_writeAt hwp
  have hwq : ihl pkt+16+2 ≤ p.length := by omega
  have hlq : q.length = pkt.length := (length_writeAt hwq).trans hlp
  have hwo : 10+2 ≤ q.length := by omega
  have hlo : (withIpv4Checksum q).length = pkt.length := (length_writeAt hwo).trans hlq
  have hport (i : ℕ) (h12 : i < 10 ∨ 12 ≤ i) (h16 : i < ihl pkt+16) :
      byteAt (withIpv4Checksum q) i = byteAt p i := by
    calc
      _ = byteAt q i := byteAt_writeAt_outside hwo (by rw [length_u16ToBE]; omega)
      _ = byteAt p i := byteAt_writeAt_outside hwq (Or.inl h16)
  have hsame (i : ℕ) (h12 : i < 10 ∨ 12 ≤ i) (h2 : i < ihl pkt+2) :
      byteAt (withIpv4Checksum q) i = byteAt pkt i := by
    calc
      _ = byteAt p i := hport i h12 (by omega)
      _ = byteAt pkt i := byteAt_writeAt_outside hwp (Or.inl h2)
  have hio : ihl (withIpv4Checksum q) = ihl pkt := by
    rw [ihl, hsame 0 (by omega) (by omega), ihl]
  refine ⟨⟨by omega, ?_, ?_, by omega⟩, ?_, ?_⟩
  · rw [hsame 0 (by omega) (by omega)]
    exact h.2.1
  · rw [hsame 9 (by omega) (by omega)]
    exact h.2.2.1
  · rw [srcEndpoint, srcEndpoint, hio, ipv4At_congr fun i _ _ => hsame i (by omega) (by omega),
      u16At_congr fun i _ _ => hsame i (by omega) (by omega)]
  · rw [dstEndpoint, hio, ipv4At_congr fun i _ _ => hsame i (by omega) (by omega),
      u16At_congr fun i _ _ => hport i (by omega) (by omega), hp, u16At_stored hwp]

/-- The packet an outbound rewrite writes before it fixes the checksums. -/
def readdressed (pkt : Bytes) (ip : Ipv4Addr) (port : UInt16) : Bytes :=
  writeAt (writeAt pkt 12 ip.octets) (ihl pkt) (u16ToBE port)

section Outbound

variable {pkt : Bytes} (h : IsIpv4Tcp 20 pkt) (ip : Ipv4Addr) (port : UInt16)
include h

theorem length_readdressed : (readdressed pkt ip port).length = pkt.length := by
  have hl := h.1
  have hi : ihl pkt+20 ≤ pkt.length := h.2.2.2
  have hip : 12+4 ≤ pkt.length := by omega
  have hlip : (writeAt pkt 12 ip.octets).length = pkt.length := length_writeAt hip
  have hw : ihl pkt+2 ≤ (writeAt pkt 12 ip.octets).length := by omega
  exact (length_writeAt hw).trans hlip

/-- Past the guard a rewrite is two stores and the two checksum steps. -/
theorem rewriteOutbound_bind :
    rewriteOutbound pkt ip port = (fixTcpChecksum (readdressed pkt ip port) >>= fun q =>
      fixIpv4Checksum q >>= fun out => .ok (true, out)) := by
  have hl := h.1
  have hi : ihl pkt+20 ≤ pkt.length := h.2.2.2
  have hip : 12+ip.octets.length ≤ pkt.length := by
    simp only [Ipv4Addr.octets, List.length_cons, List.length_nil]
    omega
  have hlip := length_writeAt hip
  have hw : ihl pkt+(u16ToBE port).length ≤ (writeAt pkt 12 ip.octets).length := by
    rw [length_u16ToBE]
    omega
  simp only [rewriteOutbound, ipv4Tcp_eq, if_pos h, copyAt_eq hip, copyAt_eq hw, Exec.ok_bind,
    readdressed]

/-- As long as the port is not stored over the length nibble, outbound rewriting succeeds. -/
theorem rewriteOutbound_eq (hb : pkt.length ≤ 65535)
    (hsame : ihl (readdressed pkt ip port) = ihl pkt) :
    rewriteOutbound pkt ip port =
      .ok (true, withIpv4Checksum (withTcpChecksum (readdressed pkt ip port))) := by
  have hl := h.1
  have hi : ihl pkt+20 ≤ pkt.length := h.2.2.2
  have hlen := length_readdressed h ip port
  obtain ⟨q, hq, ho⟩ := Exec.bind_eq_ok.mp (fixChecksums_eq (show 20 ≤ (readdressed pkt ip
    port).length by omega) (by omega) (by omega))
  rw [rewriteOutbound_bind h, hq, Exec.ok_bind, ho, Exec.ok_bind]

/-- Outside the address and the port nothing is written, in a packet whose port lies behind its
address. -/
theorem byteAt_readdressed (h20 : 20 ≤ ihl pkt) {i : ℕ}
    (hi : ¬((12 ≤ i ∧ i < 16) ∨ (ihl pkt ≤ i ∧ i < ihl pkt+2))) :
    byteAt (readdressed pkt ip port) i = byteAt pkt i := by
  have hlen : ihl pkt+20 ≤ pkt.length := h.2.2.2
  have hip : 12+4 ≤ pkt.length := by omega
  have hlip : (writeAt pkt 12 ip.octets).length = pkt.length := length_writeAt hip
  have hw : ihl pkt+2 ≤ (writeAt pkt 12 ip.octets).length := by omega
  calc
    _ = byteAt (writeAt pkt 12 ip.octets) i :=
      byteAt_writeAt_outside hw (show i < ihl pkt ∨ ihl pkt+2 ≤ i by omega)
    _ = byteAt pkt i := byteAt_writeAt_outside hip (show i < 12 ∨ 12+4 ≤ i by omega)

theorem ihl_readdressed (h20 : 20 ≤ ihl pkt) : ihl (readdressed pkt ip port) = ihl pkt := by
  rw [ihl, byteAt_readdressed h ip port h20 (by omega), ihl]

end Outbound

end GravitalShare.Stack
