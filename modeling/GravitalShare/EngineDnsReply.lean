import GravitalShare.EngineHelpers
import GravitalShare.Patches

/-! The reply that the engine builds around a DNS response: an IPv4/UDP packet with the
endpoints of the query swapped. -/
namespace GravitalShare.Engine

open Proto

def rfc1071 (data : Bytes) : Exec UInt16 := checksumFrom 0 data

-- the header of the reply has no options
def fixIp4Checksum (pkt : Bytes) : Exec Bytes := do
  let pkt ← copyAt pkt 10 [0]
  let pkt ← copyAt pkt 11 [0]
  let hdr ← slice pkt 0 20
  let c ← rfc1071 hdr
  copyAt pkt 10 (u16ToBE c)

def fixUdpChecksum (pkt : Bytes) : Exec Bytes := do
  let b0 ← index pkt 0
  let ihl := (b0 &&& 0x0F).toNat*4
  let udpLen ← subUsize pkt.length ihl
  let pkt ← copyAt pkt (ihl+6) [0]
  let pkt ← copyAt pkt (ihl+7) [0]
  -- pseudo header: both addresses, the protocol and the length
  let srcIp ← slice pkt 12 16
  let sum ← sumWords 0 srcIp
  let dstIp ← slice pkt 16 20
  let sum ← sumWords sum dstIp
  let sum ← addU32 sum 17
  let sum ← addU32 sum udpLen
  let seg ← slice pkt ihl pkt.length
  let csum ← checksumFrom sum seg
  copyAt pkt (ihl+6) (u16ToBE csum)

/-- The fields of the reply that are filled in before the response. -/
def replyFields (total : ℕ) (udpLen : UInt16) (srcIp dstIp srcPort dstPort : Bytes) :
    List Patch :=
  [(0, [0x45]), (2, u16ToBE (UInt16.ofNat total)), (8, [64]), (9, [17]),
    -- the reply comes from where the query went
    (12, dstIp), (16, srcIp), (20, dstPort), (22, srcPort), (24, u16ToBE udpLen)]

def buildUdpReply (req dnsResp : Bytes) : Exec (Option Bytes) :=
  if req.length < 28 then .ok none
  else do
    let b0 ← index req 0
    let proto ← index req 9
    if b0 >>> 4 ≠ 4 ∨ proto ≠ 17 then .ok none
    else do
      let ihl := (b0 &&& 0x0F).toNat*4
      let srcIp ← slice req 12 16
      let dstIp ← slice req 16 20
      let srcPort ← slice req ihl (ihl+2)
      let dstPort ← slice req (ihl+2) (ihl+4)
      -- both casts keep the low 16 bits only
      let udpLen := UInt16.ofNat (8+dnsResp.length)
      let total := 20+udpLen.toNat
      let out ← copyAll (List.replicate total 0)
        (replyFields total udpLen srcIp dstIp srcPort dstPort)
      let out ← copyRest out 28 dnsResp
      let out ← fixIp4Checksum out
      let out ← fixUdpChecksum out
      .ok (some out)

def srcPort (pkt : Bytes) : UInt16 := u16FromBE (byteAt pkt (ihl pkt)) (byteAt pkt (ihl pkt+1))

def udpPseudo (pkt : Bytes) : Bytes :=
  (pkt.take 16).drop 12 ++ (pkt.take 20).drop 16 ++ [0, 17] ++
    u16ToBE (UInt16.ofNat (pkt.length-ihl pkt))

def UdpChecksumOk (pkt : Bytes) : Prop :=
  ocReduce (wordSum (udpPseudo pkt ++ pkt.drop (ihl pkt))) = 0xFFFF

/-- The packet with the checksum of its first 20 bytes set. -/
def withIp4Checksum (pkt : Bytes) : Bytes :=
  writeAt pkt 10 (u16ToBE (ocChecksum ((writeAt pkt 10 [0, 0]).take 20)))

/-- The packet with its UDP checksum set. -/
def withUdpChecksum (pkt : Bytes) : Bytes :=
  writeAt pkt (ihl pkt+6) (u16ToBE (ocChecksum
    (udpPseudo pkt ++ (writeAt pkt (ihl pkt+6) [0, 0]).drop (ihl pkt))))

theorem fixIp4Checksum_eq {pkt : Bytes} (h20 : 20 ≤ pkt.length) :
    fixIp4Checksum pkt = .ok (withIp4Checksum pkt) := by
  have hz : 10+[(0 : UInt8), 0].length ≤ pkt.length := by
    simp only [List.length_cons, List.length_nil]
    omega
  have hlen := length_writeAt hz
  have hzero : (copyAt pkt 10 [0] >>= fun p => copyAt p 11 [0]) = .ok (writeAt pkt 10 [0, 0]) :=
    copyAt_zeros (by omega)
  obtain ⟨p, hp, hp'⟩ := Exec.bind_eq_ok.mp hzero
  have hcs : ((writeAt pkt 10 [0, 0]).take 20).length ≤ 131074 := by
    rw [List.length_take]
    omega
  simp only [fixIp4Checksum, hp, hp', Exec.ok_bind, slice_eq (Nat.zero_le 20)
    (show 20 ≤ (writeAt pkt 10 [0, 0]).length by omega), List.drop_zero, rfc1071,
    checksumFrom_zero hcs]
  exact copyAt_store (by omega) _

theorem wordSum_udpPseudo {pkt : Bytes} (h20 : 20 ≤ pkt.length)
    (hmax : pkt.length ≤ ihl pkt+65535) :
    wordSum (udpPseudo pkt) = wordSum ((pkt.take 16).drop 12)+wordSum ((pkt.take 20).drop 16)+17+
      (pkt.length-ihl pkt) := by
  have hs : ((pkt.take 16).drop 12).length = 4 := length_slice 12 (by omega)
  have hd : ((pkt.take 20).drop 16).length = 4 := length_slice 16 h20
  have hlen : (UInt16.ofNat (pkt.length-ihl pkt)).toNat = pkt.length-ihl pkt := by
    rw [UInt16.toNat_ofNat', Nat.mod_eq_of_lt (by omega)]
  have hproto : wordSum [0, 17] = 17 := rfl
  rw [udpPseudo, List.append_assoc, List.append_assoc, wordSum_append _ _ (by rw [hs]),
    wordSum_append _ _ (by rw [hd]), wordSum_append _ _ (by rfl), hproto, wordSum_u16ToBE, hlen]
  omega

theorem length_udpPseudo {pkt : Bytes} (h20 : 20 ≤ pkt.length) :
    (udpPseudo pkt).length = 12 := by
  simp only [udpPseudo, List.length_append, length_slice 12 (show 16 ≤ pkt.length by omega),
    length_slice 16 h20, List.length_cons, List.length_nil, length_u16ToBE]

/-- A store behind the addresses does not change the pseudo header. -/
theorem udpPseudo_writeAt {pkt src : Bytes} {off : ℕ} (h20 : 20 ≤ off)
    (h : off+src.length ≤ pkt.length) : udpPseudo (writeAt pkt off src) = udpPseudo pkt := by
  have hlen := length_writeAt h
  have hsame (i : ℕ) (hi : i < 20) : byteAt (writeAt pkt off src) i = byteAt pkt i :=
    byteAt_writeAt_outside h (Or.inl (by omega))
  have hih : ihl (writeAt pkt off src) = ihl pkt := by
    rw [ihl, hsame 0 (by decide), ihl]
  have hs := slice_congr 12 (show 16 ≤ (writeAt pkt off src).length by omega) hlen
    fun i _ hi => hsame i (by omega)
  have hd := slice_congr 16 (show 20 ≤ (writeAt pkt off src).length by omega) hlen
    fun i _ hi => hsame i hi
  rw [udpPseudo, udpPseudo, hs, hd, hlen, hih]

/-- The four steps that add up a pseudo header stay far below the width of the sum. -/
theorem pseudoSum_steps {src dst : Bytes} {n : ℕ} (hs : src.length = 4) (hd : dst.length = 4)
    (hn : n ≤ 65535) :
    sumWords 0 src = .ok (wordSum src) ∧
    sumWords (wordSum src) dst = .ok (wordSum src+wordSum dst) ∧
    addU32 (wordSum src+wordSum dst) 17 = .ok (wordSum src+wordSum dst+17) ∧
    addU32 (wordSum src+wordSum dst+17) n = .ok (wordSum src+wordSum dst+17+n) := by
  have hs4 := wordSum_le src
  have hd4 := wordSum_le dst
  rw [hs] at hs4
  rw [hd] at hd4
  refine ⟨?_, sumWords_eq _ _ (by omega), if_pos (by omega), if_pos (by omega)⟩
  rw [sumWords_eq _ _ (by omega), Nat.zero_add]

theorem fixUdpChecksum_eq {pkt : Bytes} (h20 : 20 ≤ ihl pkt) (h8 : ihl pkt+8 ≤ pkt.length)
    (hmax : pkt.length ≤ ihl pkt+65535) : fixUdpChecksum pkt = .ok (withUdpChecksum pkt) := by
  have hz : ihl pkt+6+[(0 : UInt8), 0].length ≤ pkt.length := h8
  set q := writeAt pkt (ihl pkt+6) [0, 0] with hq
  have hlen : q.length = pkt.length := length_writeAt hz
  have hzero : (copyAt pkt (ihl pkt+6) [0] >>= fun p => copyAt p (ihl pkt+7) [0]) = .ok q :=
    copyAt_zeros (by omega)
  obtain ⟨p, hp, hp'⟩ := Exec.bind_eq_ok.mp hzero
  have hih : (byteAt pkt 0 &&& 0x0F).toNat*4 = ihl pkt := rfl
  have hsub : subUsize pkt.length (ihl pkt) = .ok (pkt.length-ihl pkt) := if_pos (by omega)
  -- the addresses are read after the checksum field was cleared
  have hpseudo : udpPseudo q = udpPseudo pkt := udpPseudo_writeAt (by omega) hz
  have hiq : ihl q = ihl pkt := by
    rw [ihl, byteAt_writeAt_outside hz (Or.inl (by omega)), ihl]
  have hsum := wordSum_udpPseudo (show 20 ≤ q.length by omega) (by omega)
  rw [hpseudo, hlen, hiq] at hsum
  obtain ⟨h1, h2, h3, h4⟩ := pseudoSum_steps (length_slice 12 (show 16 ≤ q.length by omega))
    (length_slice 16 (show 20 ≤ q.length by omega)) (show pkt.length-ihl pkt ≤ 65535 by omega)
  rw [← hsum] at h4
  have h12 := length_udpPseudo (show 20 ≤ pkt.length by omega)
  have hbound : wordSum (udpPseudo pkt)+wordSum (q.drop (ihl pkt)) < 2^32 := by
    have hps := wordSum_le (udpPseudo pkt)
    have hseg := wordSum_le (q.drop (ihl pkt))
    rw [h12] at hps
    rw [List.length_drop, hlen] at hseg
    omega
  simp only [fixUdpChecksum, index_eq (show 0 < pkt.length by omega), Exec.ok_bind, hih, hsub, hp,
    hp', slice_eq (show 12 ≤ 16 by decide) (show 16 ≤ q.length by omega), h1,
    slice_eq (show 16 ≤ 20 by decide) (show 20 ≤ q.length by omega), h2, h3, h4,
    slice_eq (show ihl pkt ≤ q.length by omega) (le_refl _), List.take_length,
    checksumFrom_eq hbound]
  rw [← wordSum_append _ _ (by rw [h12]), ← ocChecksum]
  exact copyAt_store (by omega) _

theorem ip4Checksum_verifies {pkt : Bytes} (h20 : 20 ≤ pkt.length) :
    ocReduce (wordSum ((withIp4Checksum pkt).take 20)) = 0xFFFF := by
  have hlen : (pkt.take 20).length = 20 := List.length_take_of_le h20
  have hw : 10+2 ≤ 20 := by decide
  rw [withIp4Checksum, take_writeAt hw h20, take_writeAt hw h20]
  exact ocReduce_wordSum_store _ 10 (by decide) (by omega)

theorem udpChecksum_verifies {pkt : Bytes} (h20 : 20 ≤ ihl pkt) (h8 : ihl pkt+8 ≤ pkt.length) :
    UdpChecksumOk (withUdpChecksum pkt) := by
  have hw (c : UInt16) : ihl pkt+6+(u16ToBE c).length ≤ pkt.length := h8
  have hih : ihl (withUdpChecksum pkt) = ihl pkt := by
    rw [ihl, withUdpChecksum, byteAt_writeAt_outside (hw _) (Or.inl (by omega)), ihl]
  have hpseudo : udpPseudo (withUdpChecksum pkt) = udpPseudo pkt :=
    udpPseudo_writeAt (by omega) (hw _)
  have h12 := length_udpPseudo (show 20 ≤ pkt.length by omega)
  rw [UdpChecksumOk, hpseudo, hih]
  exact ocReduce_pseudo_store (by rw [h12]) (by decide) h8

section Fields

variable {srcIp dstIp srcPort dstPort : Bytes}

/-- The fields with the response at the end. -/
def allFields (srcIp dstIp srcPort dstPort resp : Bytes) : List Patch :=
  replyFields (28+resp.length) (UInt16.ofNat (8+resp.length)) srcIp dstIp srcPort dstPort ++
    [(28, resp)]

/-- The fields written so far, before the checksums are. -/
def assembled (srcIp dstIp srcPort dstPort resp : Bytes) : Bytes :=
  patched (List.replicate (28+resp.length) 0) (allFields srcIp dstIp srcPort dstPort resp)

variable (resp : Bytes) (hs : srcIp.length = 4) (hd : dstIp.length = 4) (hsp : srcPort.length = 2)
  (hdp : dstPort.length = 2)
include hs hd hsp hdp

theorem allFields_fit :
    ∀ p ∈ allFields srcIp dstIp srcPort dstPort resp, Patch.Fits (28+resp.length) p := by
  simp only [allFields, replyFields, List.cons_append, List.nil_append, List.forall_mem_cons,
    Patch.Fits, List.length_cons, List.length_nil, length_u16ToBE, hs, hd, hsp, hdp]
  simp
  omega

theorem allFields_disjoint :
    (allFields srcIp dstIp srcPort dstPort resp).Pairwise Patch.Before := by
  simp [allFields, replyFields, Patch.Before, hs, hd, hsp, hdp]

/-- No field lies where the checksums go. -/
theorem allFields_avoid :
    ∀ p ∈ allFields srcIp dstIp srcPort dstPort resp,
      p.1+p.2.length ≤ 10 ∨ 12 ≤ p.1 ∧ p.1+p.2.length ≤ 26 ∨ 28 ≤ p.1 := by
  simp [allFields, replyFields, hs, hd, hsp, hdp]

theorem length_assembled :
    (assembled srcIp dstIp srcPort dstPort resp).length = 28+resp.length := by
  have hfit := allFields_fit resp hs hd hsp hdp
  have hzero : (List.replicate (28+resp.length) (0 : UInt8)).length = 28+resp.length :=
    List.length_replicate
  rw [assembled, length_patched (by rwa [hzero]), hzero]

theorem byteAt_assembled {p : Patch} (hp : p ∈ allFields srcIp dstIp srcPort dstPort resp) {j : ℕ}
    (hj : j < p.2.length) :
    byteAt (assembled srcIp dstIp srcPort dstPort resp) (p.1+j) = byteAt p.2 j := by
  have hfit := allFields_fit resp hs hd hsp hdp
  have hzero : (List.replicate (28+resp.length) (0 : UInt8)).length = 28+resp.length :=
    List.length_replicate
  exact byteAt_patched (by rwa [hzero]) (allFields_disjoint resp hs hd hsp hdp) hp hj

/-- The response is the last of the fields. -/
theorem copyFields_eq :
    (do
      let out ← copyAll (List.replicate (28+resp.length) 0)
        (replyFields (28+resp.length) (UInt16.ofNat (8+resp.length)) srcIp dstIp srcPort dstPort)
      copyRest out 28 resp) = .ok (assembled srcIp dstIp srcPort dstPort resp) := by
  have hfit := allFields_fit resp hs hd hsp hdp
  have hzero : (List.replicate (28+resp.length) (0 : UInt8)).length = 28+resp.length :=
    List.length_replicate
  rw [← hzero] at hfit
  have hfirst := fun p hp => hfit p (List.mem_append_left _ hp)
  rw [copyAll_eq hfirst, Exec.ok_bind, copyRest_eq (by rw [length_patched hfirst, hzero]),
    assembled, allFields, patched_append]
  rfl

end Fields

/-- The fields with the endpoints of `req`, wherever its options move the ports. -/
def fieldsFor (req resp : Bytes) : List Patch :=
  allFields ((req.take 16).drop 12) ((req.take 20).drop 16) ((req.take (ihl req+2)).drop (ihl req))
    ((req.take (ihl req+4)).drop (ihl req+2)) resp

/-- `out` answers the query `req` with `resp`. -/
structure ReplyTo (req resp out : Bytes) : Prop where
  length_eq : out.length = 28+resp.length
  field : ∀ p ∈ fieldsFor req resp, ∀ j < p.2.length, byteAt out (p.1+j) = byteAt p.2 j
  ip4Checksum : ocReduce (wordSum (out.take 20)) = 0xFFFF
  udpChecksum : UdpChecksumOk out

/-- The packet with both checksums set. -/
def withChecksums (pkt : Bytes) : Bytes := withUdpChecksum (withIp4Checksum pkt)

section Checksums

variable {pkt : Bytes} (h28 : 28 ≤ pkt.length) (h0 : byteAt pkt 0 = 0x45)
include h28

theorem length_withIp4Checksum : (withIp4Checksum pkt).length = pkt.length :=
  length_writeAt (show 10+2 ≤ pkt.length by omega)

theorem byteAt_withIp4Checksum {i : ℕ} (hi : i < 10 ∨ 12 ≤ i) :
    byteAt (withIp4Checksum pkt) i = byteAt pkt i :=
  byteAt_writeAt_outside (show 10+2 ≤ pkt.length by omega) hi

include h0

theorem ihl_withIp4Checksum : ihl (withIp4Checksum pkt) = 20 := by
  rw [ihl, byteAt_withIp4Checksum h28 (by decide), h0]
  rfl

/-- Neither store disturbs what is already there. -/
theorem withChecksums_frame :
    (withChecksums pkt).length = pkt.length ∧
      (∀ i, i < 10 ∨ 12 ≤ i ∧ i < 26 ∨ 28 ≤ i → byteAt (withChecksums pkt) i = byteAt pkt i) ∧
      ocReduce (wordSum ((withChecksums pkt).take 20)) = 0xFFFF ∧
      UdpChecksumOk (withChecksums pkt) := by
  have hml := length_withIp4Checksum h28
  have hih := ihl_withIp4Checksum h28 h0
  have hw : ihl (withIp4Checksum pkt)+6+2 ≤ (withIp4Checksum pkt).length := by omega
  have hol : (withChecksums pkt).length = (withIp4Checksum pkt).length := length_writeAt hw
  have hob (i : ℕ) (hi : i < 26 ∨ 28 ≤ i) :
      byteAt (withChecksums pkt) i = byteAt (withIp4Checksum pkt) i :=
    byteAt_writeAt_outside hw (by rw [hih]; exact hi)
  refine ⟨by omega, ?_, ?_, udpChecksum_verifies (by omega) (by omega)⟩
  · intro i hi
    rw [hob i (by omega), byteAt_withIp4Checksum h28 (by omega)]
  · have htake : (withChecksums pkt).take 20 = (withIp4Checksum pkt).take 20 :=
      slice_congr 0 (by omega) hol fun i _ hi => hob i (by omega)
    rw [htake]
    exact ip4Checksum_verifies (by omega)

theorem fixChecksums_eq (hmax : pkt.length ≤ 65555) :
    (fixIp4Checksum pkt >>= fixUdpChecksum) = .ok (withChecksums pkt) := by
  have hml := length_withIp4Checksum h28
  have hih := ihl_withIp4Checksum h28 h0
  rw [fixIp4Checksum_eq (by omega), Exec.ok_bind]
  exact fixUdpChecksum_eq hih.ge (by omega) (by omega)

end Checksums

/-- What `build_udp_reply` asks of a request, and what fits into the length field of a reply. -/
structure Answerable (req resp : Bytes) : Prop where
  length : 28 ≤ req.length
  version : byteAt req 0 >>> 4 = 4
  protocol : byteAt req 9 = 17
  ports : ihl req+4 ≤ req.length
  response : resp.length ≤ 65527

/-- The reply before its checksums are set. -/
def unsummed (req resp : Bytes) : Bytes :=
  patched (List.replicate (28+resp.length) 0) (fieldsFor req resp)

namespace Answerable

variable {req resp : Bytes} (h : Answerable req resp)
include h

theorem lengths : ((req.take 16).drop 12).length = 4 ∧ ((req.take 20).drop 16).length = 4 ∧
    ((req.take (ihl req+2)).drop (ihl req)).length = 2 ∧
    ((req.take (ihl req+4)).drop (ihl req+2)).length = 2 := by
  have hlen := h.length
  have hports := h.ports
  refine ⟨length_slice 12 (by omega), length_slice 16 (by omega), ?_, ?_⟩
  · rw [length_slice _ (by omega), Nat.add_sub_cancel_left]
  · rw [length_slice _ (by omega)]
    omega

theorem length_unsummed : (unsummed req resp).length = 28+resp.length := by
  obtain ⟨hs, hd, hsp, hdp⟩ := h.lengths
  exact length_assembled resp hs hd hsp hdp

theorem byteAt_unsummed {p : Patch} (hp : p ∈ fieldsFor req resp) {j : ℕ} (hj : j < p.2.length) :
    byteAt (unsummed req resp) (p.1+j) = byteAt p.2 j := by
  obtain ⟨hs, hd, hsp, hdp⟩ := h.lengths
  exact byteAt_assembled resp hs hd hsp hdp hp hj

theorem byte_zero : byteAt (unsummed req resp) 0 = 0x45 :=
  h.byteAt_unsummed (p := (0, [0x45])) List.mem_cons_self (j := 0) (by decide)

theorem replyTo : ReplyTo req resp (withChecksums (unsummed req resp)) := by
  have hlen := h.length_unsummed
  obtain ⟨hs, hd, hsp, hdp⟩ := h.lengths
  obtain ⟨holen, hobyte, hip4, hudp⟩ :=
    withChecksums_frame (show 28 ≤ (unsummed req resp).length by omega) h.byte_zero
  refine ⟨holen.trans hlen, ?_, hip4, hudp⟩
  intro p hp j hj
  have havoid := allFields_avoid resp hs hd hsp hdp p hp
  rw [hobyte _ (by omega)]
  exact h.byteAt_unsummed hp hj

theorem buildUdpReply_eq :
    buildUdpReply req resp = .ok (some (withChecksums (unsummed req resp))) := by
  obtain ⟨hs, hd, hsp, hdp⟩ := h.lengths
  have hlen := h.length
  have hports := h.ports
  have hmax := h.response
  have hcopy := copyFields_eq resp hs hd hsp hdp
  have hfix := fixChecksums_eq (show 28 ≤ (unsummed req resp).length by
    rw [h.length_unsummed]; omega) h.byte_zero (by rw [h.length_unsummed]; omega)
  have hudpLen : 20+(UInt16.ofNat (8+resp.length)).toNat = 28+resp.length := by
    rw [UInt16.toNat_ofNat', Nat.mod_eq_of_lt (by omega)]
    omega
  have hih : (byteAt req 0 &&& 0x0F).toNat*4 = ihl req := rfl
  obtain ⟨b, hb, hb'⟩ := Exec.bind_eq_ok.mp hcopy
  obtain ⟨c, hc, hc'⟩ := Exec.bind_eq_ok.mp hfix
  rw [buildUdpReply, if_neg (by omega), index_eq (by omega), Exec.ok_bind, index_eq (by omega),
    Exec.ok_bind, if_neg (by simp [h.version, h.protocol])]
  simp only [hih, slice_eq (show 12 ≤ 16 by decide) (show 16 ≤ req.length by omega),
    slice_eq (show 16 ≤ 20 by decide) (show 20 ≤ req.length by omega),
    slice_eq (show ihl req ≤ ihl req+2 by omega) (show ihl req+2 ≤ req.length by omega),
    slice_eq (show ihl req+2 ≤ ihl req+4 by omega) hports, Exec.ok_bind, hudpLen, hb, hb']
  rw [show assembled _ _ _ _ resp = unsummed req resp from rfl, hc, Exec.ok_bind, hc']
  rfl

end Answerable

/-- Nothing else is answered: the response has to fill the buffer, whose size is what the length
field can hold. -/
theorem answerable_of_some {req resp out : Bytes} (h : buildUdpReply req resp = .ok (some out)) :
    Answerable req resp := by
  have hlen : 28 ≤ req.length := by
    by_contra hshort
    rw [buildUdpReply, if_pos (by omega)] at h
    cases h
  rw [buildUdpReply, if_neg (by omega), index_eq (by omega), Exec.ok_bind, index_eq (by omega),
    Exec.ok_bind] at h
  have hkind : byteAt req 0 >>> 4 = 4 ∧ byteAt req 9 = 17 := by
    by_contra hother
    rw [if_pos (by rwa [not_and_or] at hother)] at h
    cases h
  rw [if_neg (by simp [hkind])] at h
  obtain ⟨_, -, h⟩ := Exec.bind_eq_ok.mp h
  obtain ⟨_, -, h⟩ := Exec.bind_eq_ok.mp h
  obtain ⟨_, -, h⟩ := Exec.bind_eq_ok.mp h
  obtain ⟨dstPort, hdst, h⟩ := Exec.bind_eq_ok.mp h
  obtain ⟨buf, hbuf, h⟩ := Exec.bind_eq_ok.mp h
  obtain ⟨_, hrest, -⟩ := Exec.bind_eq_ok.mp h
  have hports := ((slice_returns_iff _ _ _).mp ⟨dstPort, hdst⟩).2
  have hfill := copyRest_ok hrest
  rw [length_of_copyAll hbuf, List.length_replicate, UInt16.toNat_ofNat'] at hfill
  exact ⟨hlen, hkind.1, hkind.2, hports, by omega⟩

theorem buildUdpReply_replies {req : Bytes} (hreq : IsIpv4Udp req) (hih : 20 ≤ ihl req)
    (resp : Bytes) (hmax : resp.length ≤ 65507) :
    ∃ out, buildUdpReply req resp = .ok (some out) ∧ ReplyTo req resp out := by
  obtain ⟨h20, h4, h17, h8⟩ := hreq
  have h : Answerable req resp := ⟨by omega, h4, h17, by omega, by omega⟩
  exact ⟨_, h.buildUdpReply_eq, h.replyTo⟩

namespace ReplyTo

variable {req resp out : Bytes} (h : ReplyTo req resp out)
include h

theorem byte_zero : byteAt out 0 = 0x45 :=
  h.field (0, [0x45]) (by simp [fieldsFor, allFields, replyFields]) 0 (by decide)

theorem ihl_eq : ihl out = 20 := by
  rw [ihl, h.byte_zero]
  rfl

theorem isIpv4Udp : IsIpv4Udp out := by
  have hlen := h.length_eq
  have hih := h.ihl_eq
  refine ⟨by omega, ?_, ?_, by omega⟩
  · rw [h.byte_zero]
    rfl
  · exact h.field (9, [17]) (by simp [fieldsFor, allFields, replyFields]) 0 (by decide)

/-- A field of two bytes holds the number stored there. -/
theorem wordAt_eq {off : ℕ} {v : UInt16} (hp : (off, u16ToBE v) ∈ fieldsFor req resp) :
    wordAt out off = v := by
  have hfield := h.field _ hp
  rw [wordAt, hfield 1 (by simp)]
  have h0 := hfield 0 (by simp)
  rw [Nat.add_zero] at h0
  rw [h0]
  exact u16FromBE_u16ToBE v

theorem totalLen_eq (hmax : resp.length ≤ 65507) : totalLen out = out.length := by
  have hw : wordAt out 2 = UInt16.ofNat (28+resp.length) :=
    h.wordAt_eq (by simp [fieldsFor, allFields, replyFields])
  rw [totalLen, hw, UInt16.toNat_ofNat', Nat.mod_eq_of_lt (by omega), h.length_eq]

theorem udpLen_eq (hmax : resp.length ≤ 65507) : udpLen out = 8+resp.length := by
  have hw : wordAt out 24 = UInt16.ofNat (8+resp.length) :=
    h.wordAt_eq (by simp [fieldsFor, allFields, replyFields])
  rw [udpLen, h.ihl_eq, show u16FromBE (byteAt out (20+4)) (byteAt out (20+5)) = wordAt out 24 from
    rfl, hw, UInt16.toNat_ofNat', Nat.mod_eq_of_lt (by omega)]

theorem payload_eq : out.drop 28 = resp := by
  have hlen := h.length_eq
  apply bytes_ext
  · rw [List.length_drop]
    omega
  · intro i hi
    rw [List.length_drop] at hi
    rw [byteAt_drop]
    exact h.field (28, resp) (by simp [fieldsFor, allFields]) i (show i < resp.length by omega)

/-- A field of the query is copied to its place in the reply. -/
theorem byteAt_copied {off lo hi j : ℕ} (hp : (off, (req.take hi).drop lo) ∈ fieldsFor req resp)
    (hhi : hi ≤ req.length) (hj : lo+j < hi) : byteAt out (off+j) = byteAt req (lo+j) := by
  have hlen : j < ((req.take hi).drop lo).length := by
    rw [length_slice lo hhi]
    omega
  rw [h.field _ hp j hlen, byteAt_slice hj]

theorem ipv4At_copied {off lo : ℕ} (hp : (off, (req.take (lo+4)).drop lo) ∈ fieldsFor req resp)
    (hlo : lo+4 ≤ req.length) : Stack.ipv4At out off = Stack.ipv4At req lo := by
  have hb (j : ℕ) (hj : j < 4) : byteAt out (off+j) = byteAt req (lo+j) :=
    h.byteAt_copied hp hlo (by omega)
  have h0 := hb 0 (by decide)
  rw [Nat.add_zero, Nat.add_zero] at h0
  simp only [Stack.ipv4At, h0, hb 1 (by decide), hb 2 (by decide), hb 3 (by decide)]

theorem wordAt_copied {off lo : ℕ} (hp : (off, (req.take (lo+2)).drop lo) ∈ fieldsFor req resp)
    (hlo : lo+2 ≤ req.length) : wordAt out off = wordAt req lo := by
  have hb (j : ℕ) (hj : j < 2) : byteAt out (off+j) = byteAt req (lo+j) :=
    h.byteAt_copied hp hlo (by omega)
  have h0 := hb 0 (by decide)
  rw [Nat.add_zero, Nat.add_zero] at h0
  rw [wordAt, h0, hb 1 (by decide), wordAt]

theorem ports_swapped (h8 : ihl req+8 ≤ req.length) :
    srcPort out = dstPort req ∧ dstPort out = srcPort req := by
  have hs : wordAt out 20 = wordAt req (ihl req+2) :=
    h.wordAt_copied (by simp [fieldsFor, allFields, replyFields]) (by omega)
  have hd : wordAt out 22 = wordAt req (ihl req) :=
    h.wordAt_copied (by simp [fieldsFor, allFields, replyFields]) (by omega)
  constructor
  · rw [srcPort, h.ihl_eq]
    exact hs
  · rw [dstPort, h.ihl_eq]
    exact hd

theorem extracts (hmax : resp.length ≤ 65507) : extractUdpPayload out = .ok (some resp) := by
  have hlen := h.length_eq
  have hudp := h.udpLen_eq hmax
  have hih := h.ihl_eq
  have hgood : ¬(udpLen out < 8 ∨ out.length < ihl out+udpLen out) := by omega
  have htake : out.take (ihl out+udpLen out) = out := List.take_of_length_le (by omega)
  rw [extractUdpPayload_eq h.isIpv4Udp, if_neg hgood, htake, hih, h.payload_eq]

theorem parses : ∃ w, Ipv4View.parse out = .ok w := by
  have hlen := h.length_eq
  have hih : (byteAt out 0 &&& 0x0F).toNat*4 = 20 := h.ihl_eq
  exact (Ipv4View.parse_accepts_iff out).mpr ⟨by omega, hih.ge, by omega⟩

theorem verifies {w : Ipv4View} (hw : Ipv4View.parse out = .ok w) :
    w.verifyChecksum = .ok (.ok ()) := by
  have hih : headerLen out = 20 := h.ihl_eq
  rw [w.verifyChecksum_eq, Ipv4View.bytes_of_parse hw, hih, if_pos h.ip4Checksum]

end ReplyTo

/-- Every query that the read loop intercepts gets a well-formed reply, which takes the response
back to where the query came from. -/
theorem buildUdpReply_wellFormed {p : Bytes} {v : Ipv4View} (hv : IpView.parse p = .ok (.v4 v))
    (hport : udpDstPort p = .ok (some 53)) (r : Bytes) (hr : r.length ≤ 65507) :
    ∃ out w total src dst, buildUdpReply p r = .ok (some out) ∧ out.length = 28+r.length ∧
      Ipv4View.parse out = .ok w ∧ w.totalLength = .ok total ∧ total.toNat = out.length ∧
      w.verifyChecksum = .ok (.ok ()) ∧
      v.src = .ok src ∧ v.dst = .ok dst ∧ w.src = .ok dst ∧ w.dst = .ok src ∧
      srcPort out = dstPort p ∧ dstPort out = srcPort p ∧
      extractUdpPayload out = .ok (some r) ∧ UdpChecksumOk out := by
  have hreq : IsIpv4Udp p := by
    by_contra hn
    rw [udpDstPort_eq, if_neg hn] at hport
    cases hport
  have hparse : Ipv4View.parse p = .ok v := by
    rcases IpView.parse_eq_ok hv with ⟨v', he, -, hv'⟩ | ⟨v', he, -⟩
    · cases he
      exact hv'
    · cases he
  obtain ⟨out, hout, h⟩ := buildUdpReply_replies hreq (ihl_of_parse hv hreq.2.1) r hr
  obtain ⟨w, hw⟩ := h.parses
  have hsrc : Stack.ipv4At out 12 = Stack.ipv4At p 16 :=
    h.ipv4At_copied (by simp [fieldsFor, allFields, replyFields]) hreq.1
  have hdst : Stack.ipv4At out 16 = Stack.ipv4At p 12 :=
    h.ipv4At_copied (by simp [fieldsFor, allFields, replyFields]) (by have := hreq.1; omega)
  have hports := h.ports_swapped hreq.2.2.2
  have htotal := w.totalLength_eq
  rw [Ipv4View.bytes_of_parse hw] at htotal
  refine ⟨out, w, _, _, _, hout, h.length_eq, hw, htotal, h.totalLen_eq hr, h.verifies hw,
    view_src hparse, view_dst hparse, ?_, ?_, hports.1, hports.2, h.extracts hr, h.udpChecksum⟩
  · rw [view_src hw, hsrc]
  · rw [view_dst hw, hdst]

/-- A query with options in its header, answered with an odd number of bytes. -/
theorem options_query_answered : ∃ v out w,
    IpView.parse optionsPacket = .ok (.v4 v) ∧
    buildUdpReply optionsPacket [1, 2, 3] = .ok (some out) ∧ out.length = 31 ∧
    Ipv4View.parse out = .ok w ∧ w.src = .ok ⟨8, 8, 8, 8⟩ ∧ dstPort out = 40000 ∧
    UdpChecksumOk out := by
  obtain ⟨out, w, total, src, dst, hout, hlen, hw, -, -, -, -, hdst, hsrc, -, -, hport, -, hudp⟩ :=
    @buildUdpReply_wellFormed optionsPacket _ rfl rfl [1, 2, 3] (by decide)
  obtain rfl : ⟨8, 8, 8, 8⟩ = dst := Except.ok.inj hdst
  exact ⟨_, out, w, rfl, hout, hlen, hw, hsrc, hport, hudp⟩

end GravitalShare.Engine
