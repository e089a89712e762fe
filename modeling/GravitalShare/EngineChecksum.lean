import GravitalShare.EngineDnsReply

/-! The Internet checksums of the three crates, and the UDP checksum of a DNS reply. A sum that
comes out as zero is stored as it is, although zero means that there is no checksum. -/
namespace GravitalShare.Engine

open Proto

/-- The checksum functions of `gravital-stack`, `gravital-proto` and the engine. -/
def checksums : List (Bytes → Exec UInt16) := [Stack.checksum, internetChecksum, rfc1071]

theorem checksums_eq {d : Bytes} (h : d.length ≤ 131074) {f : Bytes → Exec UInt16}
    (hf : f ∈ checksums) : f d = .ok (ocChecksum d) := by
  simp only [checksums, List.mem_cons, List.not_mem_nil, or_false] at hf
  rcases hf with rfl | rfl | rfl
  · exact Stack.checksum_eq h
  · exact checksumFrom_zero h
  · exact checksumFrom_zero h

/-- All checksum functions return the complement of the one's-complement sum, and verify what they
have stored. -/
theorem checksums_correct (d : Bytes) (h : d.length ≤ 131074) :
    (∃ c, (∀ f ∈ checksums, f d = .ok c) ∧
      c.toNat = 0xFFFF-(if wordSum d = 0 then 0 else (wordSum d-1)%65535+1)) ∧
    ∀ f ∈ checksums, ∀ k, k%2 = 0 → k+2 ≤ d.length →
      ∃ c, f (writeAt d k [0, 0]) = .ok c ∧
        f (writeAt (writeAt d k [0, 0]) k (u16ToBE c)) = .ok 0 := by
  refine ⟨⟨ocChecksum d, fun f hf => checksums_eq h hf, toNat_ocChecksum d⟩, ?_⟩
  intro f hf k hk hl
  have hz : k+[(0 : UInt8), 0].length ≤ d.length := hl
  have hlen (c : UInt16) : (writeAt d k (u16ToBE c)).length = d.length := length_writeAt hl
  refine ⟨_, checksums_eq (by rwa [length_writeAt hz]) hf, ?_⟩
  rw [writeAt_writeAt hz (by rfl), checksums_eq (by rwa [hlen]) hf]
  apply congrArg Except.ok
  rw [ocChecksum_eq_zero_iff]
  exact ocReduce_wordSum_store d k hk hl

/-- The vector of the tests of both crates. -/
theorem known_vector_checksum :
    ∃ c, (∀ f ∈ checksums, f [0x00, 0x01, 0xf2, 0x03, 0xf4, 0xf5, 0xf6, 0xf7] = .ok c) ∧
      c.toNat = 0x220d := by
  obtain ⟨⟨c, hf, hc⟩, -⟩ :=
    checksums_correct [0x00, 0x01, 0xf2, 0x03, 0xf4, 0xf5, 0xf6, 0xf7] (by decide)
  exact ⟨c, hf, hc.trans (by decide)⟩

section Words

variable {b : Bytes} {lo hi : ℕ}

theorem slice_cons (h : lo < hi) (hl : hi ≤ b.length) :
    (b.take hi).drop lo = byteAt b lo :: (b.take hi).drop (lo+1) := by
  have hlen : lo < (b.take hi).length := by
    rw [List.length_take]
    omega
  rw [List.drop_eq_getElem_cons hlen, List.getElem_take, byteAt,
    List.getD_eq_getElem _ _ (show lo < b.length by omega)]

/-- The words of a slice, from the first one on. -/
theorem wordSum_slice (h : lo+2 ≤ hi) (hl : hi ≤ b.length) :
    wordSum ((b.take hi).drop lo) = (wordAt b lo).toNat+wordSum ((b.take hi).drop (lo+2)) := by
  rw [slice_cons (by omega) hl, slice_cons (show lo+1 < hi by omega) hl, wordSum, wordAt,
    toNat_u16FromBE]

theorem wordSum_slice_nil (b : Bytes) (n : ℕ) : wordSum ((b.take n).drop n) = 0 := by
  rw [List.drop_eq_nil_of_le (List.length_take_le n b), wordSum]

theorem wordAt_writeAt {off : ℕ} (h : off+2 ≤ b.length) (v : UInt16) :
    wordAt (writeAt b off (u16ToBE v)) off = v := by
  have hw : off+(u16ToBE v).length ≤ b.length := h
  rw [wordAt, byteAt_writeAt hw, byteAt_writeAt hw, if_pos ⟨le_refl _, by simp⟩,
    if_pos ⟨by omega, by simp⟩, Nat.sub_self, Nat.add_sub_cancel_left]
  exact u16FromBE_u16ToBE v

end Words

/-- The sum over a datagram behind a header without options, with a zero for the checksum. -/
theorem wordSum_datagram {pkt : Bytes} (hih : ihl pkt = 20) (h28 : 28 ≤ pkt.length)
    (hmax : pkt.length ≤ 65555) :
    wordSum (udpPseudo pkt ++ (writeAt pkt 26 [0, 0]).drop 20) =
      (wordAt pkt 12).toNat+(wordAt pkt 14).toNat+(wordAt pkt 16).toNat+(wordAt pkt 18).toNat+17+
        (pkt.length-20)+(wordAt pkt 20).toNat+(wordAt pkt 22).toNat+(wordAt pkt 24).toNat+
        wordSum (pkt.drop 28) := by
  have hlen : (pkt.drop 20).length = pkt.length-20 := List.length_drop
  have hpseudo : wordSum (udpPseudo pkt) = _ := wordSum_udpPseudo (by omega) (by omega)
  have hseg : (writeAt pkt 26 [0, 0]).drop 20 = writeAt (pkt.drop 20) 6 [0, 0] :=
    drop_writeAt (by decide) (show 26+2 ≤ pkt.length by omega)
  rw [wordSum_append _ _ (by rw [length_udpPseudo (by omega)]), hpseudo, hseg,
    wordSum_writeAt _ 6 _ _ (by decide) (by omega), List.take_drop, List.drop_drop, hih]
  have h12 := wordSum_slice (show 12+2 ≤ 16 by decide) (show 16 ≤ pkt.length by omega)
  have h14 := wordSum_slice (show 14+2 ≤ 16 by decide) (show 16 ≤ pkt.length by omega)
  have h16 := wordSum_slice (show 16+2 ≤ 20 by decide) (show 20 ≤ pkt.length by omega)
  have h18 := wordSum_slice (show 18+2 ≤ 20 by decide) (show 20 ≤ pkt.length by omega)
  have h20 := wordSum_slice (show 20+2 ≤ 26 by decide) (show 26 ≤ pkt.length by omega)
  have h22 := wordSum_slice (show 22+2 ≤ 26 by decide) (show 26 ≤ pkt.length by omega)
  have h24 := wordSum_slice (show 24+2 ≤ 26 by decide) (show 26 ≤ pkt.length by omega)
  rw [h12, h14, h16, h18, h20, h22, h24, wordSum_slice_nil, wordSum_slice_nil, wordSum_slice_nil]
  have hz : beWord 0 0 = 0 := rfl
  have hrest : 20+(6+2) = 28 := rfl
  rw [hz, hrest]
  omega

section Reply

/-- The words of a reply to `req`, pseudo header included, with a zero for the checksum. -/
def replySum (req resp : Bytes) : ℕ :=
  (wordAt req 12).toNat+(wordAt req 14).toNat+(wordAt req 16).toNat+(wordAt req 18).toNat+17+
    (wordAt req (ihl req)).toNat+(wordAt req (ihl req+2)).toNat+2*(8+resp.length)+wordSum resp

variable {req resp out : Bytes}

/-- A word of the query that is copied as a part of a field. -/
theorem ReplyTo.wordAt_part (h : ReplyTo req resp out) {off lo hi j : ℕ}
    (hp : (off, (req.take hi).drop lo) ∈ fieldsFor req resp) (hhi : hi ≤ req.length)
    (hj : lo+j+1 < hi) : wordAt out (off+j) = wordAt req (lo+j) := by
  have h0 := h.byteAt_copied hp hhi (show lo+j < hi by omega)
  have h1 := h.byteAt_copied hp hhi (show lo+(j+1) < hi by omega)
  rw [wordAt, h0, Nat.add_assoc, h1, wordAt, Nat.add_assoc]

theorem ReplyTo.wordSum_eq (h : ReplyTo req resp out) (ha : Answerable req resp) :
    wordSum (udpPseudo out ++ (writeAt out 26 [0, 0]).drop 20) = replySum req resp := by
  have hlen := h.length_eq
  have hreq := ha.length
  have hports := ha.ports
  have hresp := ha.response
  have hudp : wordAt out 24 = UInt16.ofNat (8+resp.length) :=
    h.wordAt_eq (by simp [fieldsFor, allFields, replyFields])
  rw [wordSum_datagram h.ihl_eq (by omega) (by omega), h.payload_eq, hudp, UInt16.toNat_ofNat',
    Nat.mod_eq_of_lt (show 8+resp.length < 2^16 by omega)]
  have hdst : (12, (req.take 20).drop 16) ∈ fieldsFor req resp := by
    simp [fieldsFor, allFields, replyFields]
  have hsrc : (16, (req.take 16).drop 12) ∈ fieldsFor req resp := by
    simp [fieldsFor, allFields, replyFields]
  have h12 : wordAt out 12 = wordAt req 16 := h.wordAt_part hdst (by omega) (j := 0) (by decide)
  have h14 : wordAt out 14 = wordAt req 18 := h.wordAt_part hdst (by omega) (j := 2) (by decide)
  have h16 : wordAt out 16 = wordAt req 12 := h.wordAt_part hsrc (by omega) (j := 0) (by decide)
  have h18 : wordAt out 18 = wordAt req 14 := h.wordAt_part hsrc (by omega) (j := 2) (by decide)
  have h20 : wordAt out 20 = wordAt req (ihl req+2) :=
    h.wordAt_copied (by simp [fieldsFor, allFields, replyFields]) (by omega)
  have h22 : wordAt out 22 = wordAt req (ihl req) :=
    h.wordAt_copied (by simp [fieldsFor, allFields, replyFields]) (by omega)
  rw [h12, h14, h16, h18, h20, h22, hlen, replySum]
  omega

/-- The stored checksum is the complement of the sum, zero included. -/
theorem Answerable.checksum_eq (h : Answerable req resp) :
    wordAt (withChecksums (unsummed req resp)) 26 =
      UInt16.ofNat (65535-ocReduce (replySum req resp)) := by
  have hlen := h.length_unsummed
  set mid := withIp4Checksum (unsummed req resp) with hmid
  have hml : mid.length = _ := length_withIp4Checksum (by omega)
  have hih : ihl mid = 20 := ihl_withIp4Checksum (by omega) h.byte_zero
  have hw (c : UInt16) : 26+(u16ToBE c).length ≤ mid.length := by
    rw [length_u16ToBE]
    omega
  have hsame (c : UInt16) : (u16ToBE c).length = [(0 : UInt8), 0].length := rfl
  have hout : withChecksums (unsummed req resp) = writeAt mid 26 (u16ToBE (ocChecksum
      (udpPseudo mid ++ (writeAt mid 26 [0, 0]).drop 20))) := by
    rw [withChecksums, ← hmid, withUdpChecksum, hih]
  -- the sum is over what the checksum does not change
  have hsum := h.replyTo.wordSum_eq h
  rw [hout, udpPseudo_writeAt (by decide) (hw _), writeAt_writeAt (hw _) (hsame _)] at hsum
  rw [hout, wordAt_writeAt (by omega), ocChecksum, hsum]

/-- A reply has a checksum, and verifies with it, exactly if its words do not add up to a
multiple of 65535. -/
theorem reply_checksum_present_iff (h : buildUdpReply req resp = .ok (some out)) :
    (wordAt out (ihl out+6) ≠ 0 ∧ UdpChecksumOk out) ↔ replySum req resp%65535 ≠ 0 := by
  have ha := answerable_of_some h
  obtain rfl : _ = out := Option.some.inj (Except.ok.inj (ha.buildUdpReply_eq.symm.trans h))
  have hto := ha.replyTo
  have hpos : 0 < replySum req resp := by
    unfold replySum
    omega
  have hzero : (0 : UInt16).toNat = 0 := rfl
  rw [and_iff_left hto.udpChecksum, hto.ihl_eq, ha.checksum_eq, ne_eq, ← UInt16.toNat_inj,
    UInt16.toNat_ofNat', ocReduce_of_pos hpos, hzero]
  omega

end Reply

def exampleQuery : Bytes := TunRead.dnsPacket 13 [1, 2, 3, 4, 5]

theorem exampleQuery_answerable {resp : Bytes} (h : resp.length ≤ 65527) :
    Answerable exampleQuery resp :=
  ⟨by decide, by decide, by decide, by decide, h⟩

theorem example_reply_has_checksum : ∃ out,
    buildUdpReply exampleQuery [1, 2, 0x81, 0x80] = .ok (some out) ∧
    wordAt out (ihl out+6) ≠ 0 := by
  have h : Answerable exampleQuery [1, 2, 0x81, 0x80] := exampleQuery_answerable (by decide)
  exact ⟨_, h.buildUdpReply_eq,
    ((reply_checksum_present_iff h.buildUdpReply_eq).mpr (by decide)).1⟩

/-- Two more bytes in the response, and the reply says that it has no checksum. -/
theorem example_reply_lacks_checksum : ∃ out,
    buildUdpReply exampleQuery [1, 2, 0x81, 0x80, 0xC6, 0xC9] = .ok (some out) ∧
    wordAt out (ihl out+6) = 0 := by
  have h : Answerable exampleQuery [1, 2, 0x81, 0x80, 0xC6, 0xC9] :=
    exampleQuery_answerable (by decide)
  refine ⟨_, h.buildUdpReply_eq, ?_⟩
  rw [h.replyTo.ihl_eq, h.checksum_eq]
  decide

end GravitalShare.Engine
