import GravitalShare.Net
import GravitalShare.OnesComplement

/-! The zero-copy views of an IP packet. -/
namespace GravitalShare.Proto

inductive ParseError where
  | truncatedHeader (needed got : ℕ)
  | invalidVersion (version : UInt8)
  | invalidChecksum (expected got : UInt16)
  | invalidHeaderLength (nibble : UInt8)
  deriving DecidableEq, Repr

/-- A buffer that `Ipv4View::parse` accepted. -/
structure Ipv4View where
  bytes : Bytes
  minHeader : 20 ≤ bytes.length
  ihl_ge : 20 ≤ (byteAt bytes 0 &&& 0x0F).toNat*4
  ihl_le : (byteAt bytes 0 &&& 0x0F).toNat*4 ≤ bytes.length

def Ipv4View.parse (bytes : Bytes) : Except ParseError Ipv4View :=
  if h : bytes.length < 20 then .error (.truncatedHeader 20 bytes.length)
  else
    let ihl := (byteAt bytes 0 &&& 0x0F).toNat*4
    if hge : ihl < 20 then .error (.invalidHeaderLength (byteAt bytes 0 &&& 0x0F))
    else if hle : bytes.length < ihl then .error (.truncatedHeader ihl bytes.length)
    else .ok ⟨bytes, Nat.not_lt.mp h, Nat.not_lt.mp hge, Nat.not_lt.mp hle⟩

theorem Ipv4View.bytes_of_parse {bytes : Bytes} {v : Ipv4View} (h : parse bytes = .ok v) :
    v.bytes = bytes := by
  unfold parse at h
  simp only at h
  split_ifs at h
  exact congrArg Ipv4View.bytes (Except.ok.inj h).symm

theorem Ipv4View.parse_accepts_iff (bytes : Bytes) :
    (∃ v, parse bytes = .ok v) ↔ 20 ≤ bytes.length ∧ 20 ≤ (byteAt bytes 0 &&& 0x0F).toNat*4 ∧
      (byteAt bytes 0 &&& 0x0F).toNat*4 ≤ bytes.length := by
  constructor
  · rintro ⟨v, hv⟩
    rw [← bytes_of_parse hv]
    exact ⟨v.minHeader, v.ihl_ge, v.ihl_le⟩
  · rintro ⟨h20, hge, hle⟩
    simp only [parse, dif_neg (Nat.not_lt.mpr h20), dif_neg (Nat.not_lt.mpr hge),
      dif_neg (Nat.not_lt.mpr hle)]
    exact ⟨_, rfl⟩

inductive IpProtocol where
  | icmp
  | tcp
  | udp
  | ipv6Icmp
  | other (v : UInt8)
  deriving DecidableEq, Repr

-- impl From<u8>
def IpProtocol.ofUInt8 (v : UInt8) : IpProtocol :=
  if v = 1 then .icmp
  else if v = 6 then .tcp
  else if v = 17 then .udp
  else if v = 58 then .ipv6Icmp
  else .other v

theorem IpProtocol.ofUInt8_eq_tcp (v : UInt8) : ofUInt8 v = .tcp ↔ v = 6 := by
  unfold ofUInt8
  constructor
  · intro h
    split_ifs at h
    assumption
  · rintro rfl
    rfl

theorem IpProtocol.ofUInt8_eq_udp (v : UInt8) : ofUInt8 v = .udp ↔ v = 17 := by
  unfold ofUInt8
  constructor
  · intro h
    split_ifs at h
    assumption
  · rintro rfl
    rfl

def Ipv4View.protocol (v : Ipv4View) : IpProtocol := .ofUInt8 (byteAt v.bytes 9)

/-- A buffer that `Ipv6View::parse` accepted. -/
structure Ipv6View where
  bytes : Bytes
  header : 40 ≤ bytes.length

def Ipv6View.parse (bytes : Bytes) : Except ParseError Ipv6View :=
  if h : bytes.length < 40 then .error (.truncatedHeader 40 bytes.length)
  else .ok ⟨bytes, Nat.not_lt.mp h⟩

def Ipv6View.protocol (v : Ipv6View) : IpProtocol := .ofUInt8 (byteAt v.bytes 6)

inductive IpView where
  | v4 (v : Ipv4View)
  | v6 (v : Ipv6View)

def IpView.parse (buf : Bytes) : Except ParseError IpView :=
  if buf.isEmpty then .error (.truncatedHeader 1 0)
  else if byteAt buf 0 >>> 4 = 4 then do
    let v ← Ipv4View.parse buf
    return .v4 v
  else if byteAt buf 0 >>> 4 = 6 then do
    let v ← Ipv6View.parse buf
    return .v6 v
  else .error (.invalidVersion (byteAt buf 0 >>> 4))

def IpView.protocol : IpView → IpProtocol
  | .v4 v => v.protocol
  | .v6 v => v.protocol

/-- The version decides which view it is. -/
theorem IpView.parse_eq_ok {buf : Bytes} {ip : IpView} (h : parse buf = .ok ip) :
    (∃ v, ip = .v4 v ∧ byteAt buf 0 >>> 4 = 4 ∧ Ipv4View.parse buf = .ok v) ∨
      ∃ v, ip = .v6 v ∧ byteAt buf 0 >>> 4 = 6 ∧ Ipv6View.parse buf = .ok v := by
  unfold parse at h
  split_ifs at h with _ h4 h6
  · cases hv : Ipv4View.parse buf with
    | error e =>
      rw [hv] at h
      cases h
    | ok v =>
      rw [hv] at h
      cases h
      exact Or.inl ⟨v, rfl, h4, rfl⟩
  · cases hv : Ipv6View.parse buf with
    | error e =>
      rw [hv] at h
      cases h
    | ok v =>
      rw [hv] at h
      cases h
      exact Or.inr ⟨v, rfl, h6, rfl⟩

-- RFC 1071; the odd last byte is the high half of a word
def internetChecksum (data : Bytes) : Exec UInt16 := checksumFrom 0 data

-- u16::from_be_bytes([bytes[off], bytes[off + 1]])
def u16Field (bytes : Bytes) (off : ℕ) : Exec UInt16 := do
  let hi ← index bytes off
  let lo ← index bytes (off+1)
  .ok (u16FromBE hi lo)

-- Ipv4Addr::new(bytes[off], .., bytes[off + 3])
def ipv4Field (bytes : Bytes) (off : ℕ) : Exec Ipv4Addr := do
  let a ← index bytes off
  let b ← index bytes (off+1)
  let c ← index bytes (off+2)
  let d ← index bytes (off+3)
  .ok ⟨a, b, c, d⟩

/-- `b.copy_from_slice(&bytes[off..off + 16])` into 16 bytes. -/
def ipv6Field (bytes : Bytes) (off : ℕ) : Exec Ipv6Addr := do
  let octets ← slice bytes off (off+16)
  if h : octets.length = 16 then .ok ⟨octets, h⟩ else .error .assertion

-- The accessors index the buffer with checks, whatever `parse` has looked at.

namespace Ipv4View

def ihl (v : Ipv4View) : Exec ℕ := do
  let b0 ← index v.bytes 0
  .ok ((b0 &&& 0x0F).toNat*4)

def src (v : Ipv4View) : Exec Ipv4Addr := ipv4Field v.bytes 12

def dst (v : Ipv4View) : Exec Ipv4Addr := ipv4Field v.bytes 16

/-- The access behind `protocol`. -/
def readProtocol (v : Ipv4View) : Exec IpProtocol := do
  let b ← index v.bytes 9
  .ok (.ofUInt8 b)

def totalLength (v : Ipv4View) : Exec UInt16 := u16Field v.bytes 2

def ttl (v : Ipv4View) : Exec UInt8 := index v.bytes 8

def payload (v : Ipv4View) : Exec Bytes := do
  let total ← v.totalLength
  let ihl ← v.ihl
  -- the end is cut to the buffer; nothing keeps it behind the header
  slice v.bytes ihl (min total.toNat v.bytes.length)

def verifyChecksum (v : Ipv4View) : Exec (Except ParseError Unit) := do
  let ihl ← v.ihl
  let hdr ← slice v.bytes 0 ihl
  let csum ← internetChecksum hdr
  if csum ≠ 0 then do
    let stored ← u16Field v.bytes 10
    .ok (.error (.invalidChecksum 0 stored))
  else .ok (.ok ())

end Ipv4View

namespace Ipv6View

def src (v : Ipv6View) : Exec Ipv6Addr := ipv6Field v.bytes 8

def dst (v : Ipv6View) : Exec Ipv6Addr := ipv6Field v.bytes 24

def readProtocol (v : Ipv6View) : Exec IpProtocol := do
  let b ← index v.bytes 6
  .ok (.ofUInt8 b)

def payloadLength (v : Ipv6View) : Exec UInt16 := u16Field v.bytes 4

def payload (v : Ipv6View) : Exec Bytes := do
  let len ← v.payloadLength
  slice v.bytes 40 (min (40+len.toNat) v.bytes.length)

end Ipv6View

def IpView.readProtocol : IpView → Exec IpProtocol
  | .v4 v => v.readProtocol
  | .v6 v => v.readProtocol

def IpView.payload : IpView → Exec Bytes
  | .v4 v => v.payload
  | .v6 v => v.payload

-- What the length fields of a buffer say.

def headerLen (b : Bytes) : ℕ := (byteAt b 0 &&& 0x0F).toNat*4

def wordAt (b : Bytes) (off : ℕ) : UInt16 := u16FromBE (byteAt b off) (byteAt b (off+1))

def totalLen (b : Bytes) : ℕ := (wordAt b 2).toNat

theorem u16Field_eq {b : Bytes} {off : ℕ} (h : off+2 ≤ b.length) :
    u16Field b off = .ok (wordAt b off) := by
  rw [u16Field, index_eq (by omega), Exec.ok_bind, index_eq (by omega), Exec.ok_bind, wordAt]

theorem ipv4Field_eq {b : Bytes} {off : ℕ} (h : off+4 ≤ b.length) :
    ipv4Field b off =
      .ok ⟨byteAt b off, byteAt b (off+1), byteAt b (off+2), byteAt b (off+3)⟩ := by
  rw [ipv4Field, index_eq (by omega), Exec.ok_bind, index_eq (by omega), Exec.ok_bind,
    index_eq (by omega), Exec.ok_bind, index_eq (by omega), Exec.ok_bind]

theorem ipv6Field_returns {b : Bytes} {off : ℕ} (h : off+16 ≤ b.length) :
    Exec.Returns (ipv6Field b off) := by
  have hlen : ((b.take (off+16)).drop off).length = 16 := by
    rw [length_slice off h, Nat.add_sub_cancel_left]
  rw [ipv6Field, slice_eq (Nat.le_add_right _ _) h, Exec.ok_bind, dif_pos hlen]
  exact Exec.returns_ok _

theorem headerLen_le (b : Bytes) : headerLen b ≤ 60 := by
  have hand : byteAt b 0 &&& 0x0F ≤ 0x0F := UInt8.and_le_right
  have hnat := UInt8.le_iff_toNat_le.mp hand
  have h15 : (0x0F : UInt8).toNat = 15 := by decide
  unfold headerLen
  omega

namespace Ipv4View

variable (v : Ipv4View)

theorem ihl_eq : v.ihl = .ok (headerLen v.bytes) := by
  have h := v.minHeader
  rw [ihl, index_eq (by omega), Exec.ok_bind, headerLen]

theorem totalLength_eq : v.totalLength = .ok (wordAt v.bytes 2) := by
  have h := v.minHeader
  exact u16Field_eq (by omega)

theorem payload_eq :
    v.payload = slice v.bytes (headerLen v.bytes) (min (totalLen v.bytes) v.bytes.length) := by
  rw [payload, totalLength_eq, Exec.ok_bind, ihl_eq, Exec.ok_bind, totalLen]

theorem payload_returns_iff : v.payload.Returns ↔ headerLen v.bytes ≤ totalLen v.bytes := by
  have hle : headerLen v.bytes ≤ v.bytes.length := v.ihl_le
  rw [payload_eq, slice_returns_iff]
  omega

/-- The check passes exactly if the words of the header add up to all ones. -/
theorem verifyChecksum_eq :
    v.verifyChecksum =
      .ok (if ocReduce (wordSum (v.bytes.take (headerLen v.bytes))) = 0xFFFF then .ok ()
        else .error (.invalidChecksum 0 (wordAt v.bytes 10))) := by
  have hle : headerLen v.bytes ≤ v.bytes.length := v.ihl_le
  have h20 := v.minHeader
  have h60 := headerLen_le v.bytes
  have hcs : internetChecksum (v.bytes.take (headerLen v.bytes)) =
      .ok (ocChecksum (v.bytes.take (headerLen v.bytes))) := by
    apply checksumFrom_zero
    rw [List.length_take]
    omega
  rw [verifyChecksum, ihl_eq, Exec.ok_bind, slice_eq (Nat.zero_le _) hle, Exec.ok_bind,
    List.drop_zero, hcs, Exec.ok_bind]
  have hzero := ocChecksum_eq_zero_iff (v.bytes.take (headerLen v.bytes))
  by_cases h0 : ocChecksum (v.bytes.take (headerLen v.bytes)) = 0
  · rw [if_neg (not_not.mpr h0), if_pos (hzero.mp h0)]
  · rw [if_pos h0, if_neg fun h => h0 (hzero.mpr h), u16Field_eq (by omega), Exec.ok_bind]

/-- No accessor panics, and the payload is the part of the buffer right after the header. -/
structure Safe : Prop where
  ihl : v.ihl = .ok (headerLen v.bytes)
  src : v.src.Returns
  dst : v.dst.Returns
  protocol : v.readProtocol = .ok v.protocol
  totalLength : v.totalLength.Returns
  ttl : v.ttl.Returns
  verifyChecksum : v.verifyChecksum.Returns
  payload : ∃ p, v.payload = .ok p ∧ p <+: v.bytes.drop (headerLen v.bytes)

theorem safe_iff : v.Safe ↔ headerLen v.bytes ≤ totalLen v.bytes := by
  have h20 := v.minHeader
  have hle : headerLen v.bytes ≤ v.bytes.length := v.ihl_le
  constructor
  · intro h
    obtain ⟨p, hp, -⟩ := h.payload
    exact v.payload_returns_iff.mp ⟨p, hp⟩
  · intro h
    have hend : headerLen v.bytes ≤ min (totalLen v.bytes) v.bytes.length := by omega
    have hslice := slice_eq hend (Nat.min_le_right _ _)
    refine ⟨v.ihl_eq, ?_, ?_, ?_, ?_, ?_, ?_, ?_⟩
    · exact ⟨_, ipv4Field_eq (by omega)⟩
    · exact ⟨_, ipv4Field_eq (by omega)⟩
    · rw [readProtocol, index_eq (by omega), Exec.ok_bind, protocol]
    · exact ⟨_, v.totalLength_eq⟩
    · exact ⟨_, index_eq (by omega)⟩
    · exact ⟨_, v.verifyChecksum_eq⟩
    · exact ⟨_, v.payload_eq.trans hslice, slice_isPrefix _ _ _⟩

end Ipv4View

namespace Ipv6View

variable (v : Ipv6View)

theorem bytes_of_parse {bytes : Bytes} {v : Ipv6View} (h : parse bytes = .ok v) :
    v.bytes = bytes := by
  unfold parse at h
  split_ifs at h
  exact congrArg Ipv6View.bytes (Except.ok.inj h).symm

theorem payload_eq :
    v.payload = slice v.bytes 40 (min (40+(wordAt v.bytes 4).toNat) v.bytes.length) := by
  have h := v.header
  rw [payload, payloadLength, u16Field_eq (by omega), Exec.ok_bind]

structure Safe : Prop where
  src : v.src.Returns
  dst : v.dst.Returns
  protocol : v.readProtocol = .ok v.protocol
  payloadLength : v.payloadLength.Returns
  payload : ∃ p, v.payload = .ok p ∧ p <+: v.bytes.drop 40

/-- The end of the payload is counted from the end of the header, so it cannot lie before it. -/
theorem safe : v.Safe := by
  have h40 := v.header
  have hend : 40 ≤ min (40+(wordAt v.bytes 4).toNat) v.bytes.length := by omega
  have hslice := slice_eq hend (Nat.min_le_right _ _)
  refine ⟨?_, ?_, ?_, ?_, ?_⟩
  · exact ipv6Field_returns (by omega)
  · exact ipv6Field_returns (by omega)
  · rw [readProtocol, index_eq (by omega), Exec.ok_bind, protocol]
  · exact ⟨_, u16Field_eq (by omega)⟩
  · exact ⟨_, v.payload_eq.trans hslice, slice_isPrefix _ _ _⟩

end Ipv6View

end GravitalShare.Proto
