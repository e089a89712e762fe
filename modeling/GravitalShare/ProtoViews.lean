import GravitalShare.ProtoIp

/-! The views of the transport headers, and the way from an IP packet to the payload of its
transport. A parsed view is safe to use where its length field covers its own header. -/
namespace GravitalShare.Proto

structure TcpFlags where
  bits : UInt8
  deriving DecidableEq, Repr

namespace TcpFlags

def FIN : TcpFlags := ⟨0x01⟩
def SYN : TcpFlags := ⟨0x02⟩
def RST : TcpFlags := ⟨0x04⟩
def PSH : TcpFlags := ⟨0x08⟩
def ACK : TcpFlags := ⟨0x10⟩
def URG : TcpFlags := ⟨0x20⟩

def all : UInt8 := FIN.bits ||| SYN.bits ||| RST.bits ||| PSH.bits ||| ACK.bits ||| URG.bits

-- bits without a name are dropped
def fromBitsTruncate (bits : UInt8) : TcpFlags := ⟨bits &&& all⟩

def contains (f g : TcpFlags) : Bool := f.bits &&& g.bits == g.bits

end TcpFlags

-- u32::from_be_bytes([bytes[off], .., bytes[off + 3]])
def u32Field (bytes : Bytes) (off : ℕ) : Exec UInt32 := do
  let b0 ← index bytes off
  let b1 ← index bytes (off+1)
  let b2 ← index bytes (off+2)
  let b3 ← index bytes (off+3)
  .ok (u32FromBE b0 b1 b2 b3)

theorem u32Field_returns {b : Bytes} {off : ℕ} (h : off+4 ≤ b.length) :
    Exec.Returns (u32Field b off) := by
  rw [u32Field, index_eq (by omega), Exec.ok_bind, index_eq (by omega), Exec.ok_bind,
    index_eq (by omega), Exec.ok_bind, index_eq (by omega), Exec.ok_bind]
  exact Exec.returns_ok _

def dataOffset (b : Bytes) : ℕ := (byteAt b 12 >>> 4).toNat*4

/-- A buffer that `TcpView::parse` accepted. -/
structure TcpView where
  bytes : Bytes
  minHeader : 20 ≤ bytes.length
  offset_ge : 20 ≤ dataOffset bytes
  offset_le : dataOffset bytes ≤ bytes.length

namespace TcpView

def parse (bytes : Bytes) : Except ParseError TcpView :=
  if bytes.length < 20 then .error (.truncatedHeader 20 bytes.length)
  else if hge : dataOffset bytes < 20 then .error (.invalidHeaderLength (byteAt bytes 12 >>> 4))
  else if hle : bytes.length < dataOffset bytes then
    .error (.truncatedHeader (dataOffset bytes) bytes.length)
  else .ok ⟨bytes, (Nat.not_lt.mp hge).trans (Nat.not_lt.mp hle), Nat.not_lt.mp hge,
    Nat.not_lt.mp hle⟩

def srcPort (v : TcpView) : Exec UInt16 := u16Field v.bytes 0

def dstPort (v : TcpView) : Exec UInt16 := u16Field v.bytes 2

def seqNum (v : TcpView) : Exec UInt32 := u32Field v.bytes 4

def ackNum (v : TcpView) : Exec UInt32 := u32Field v.bytes 8

def flags (v : TcpView) : Exec TcpFlags := do
  let bits ← index v.bytes 13
  .ok (.fromBitsTruncate bits)

def windowSize (v : TcpView) : Exec UInt16 := u16Field v.bytes 14

def headerLen (v : TcpView) : Exec ℕ := do
  let b ← index v.bytes 12
  .ok ((b >>> 4).toNat*4)

def payload (v : TcpView) : Exec Bytes := do
  let headerLen ← v.headerLen
  slice v.bytes headerLen v.bytes.length

theorem bytes_of_parse {bytes : Bytes} {v : TcpView} (h : parse bytes = .ok v) :
    v.bytes = bytes := by
  unfold parse at h
  split_ifs at h
  exact congrArg TcpView.bytes (Except.ok.inj h).symm

structure Safe (v : TcpView) : Prop where
  srcPort : v.srcPort.Returns
  dstPort : v.dstPort.Returns
  seqNum : v.seqNum.Returns
  ackNum : v.ackNum.Returns
  flags : v.flags.Returns
  windowSize : v.windowSize.Returns
  headerLen : v.headerLen = .ok (dataOffset v.bytes)
  payload : ∃ p, v.payload = .ok p ∧ p <+: v.bytes.drop (dataOffset v.bytes)

/-- `parse` has checked the data offset from both sides. -/
theorem safe (v : TcpView) : v.Safe := by
  have h20 := v.minHeader
  have hlen : v.headerLen = .ok (dataOffset v.bytes) := by
    rw [headerLen, index_eq (by omega), Exec.ok_bind, dataOffset]
  have hpay : v.payload = .ok ((v.bytes.take v.bytes.length).drop (dataOffset v.bytes)) := by
    rw [payload, hlen, Exec.ok_bind, slice_eq v.offset_le (le_refl _)]
  refine ⟨⟨_, u16Field_eq (by omega)⟩, ⟨_, u16Field_eq (by omega)⟩, u32Field_returns (by omega),
    u32Field_returns (by omega), ?_, ⟨_, u16Field_eq (by omega)⟩, hlen, ?_⟩
  · rw [flags, index_eq (by omega), Exec.ok_bind]
    exact Exec.returns_ok _
  · exact ⟨_, hpay, slice_isPrefix _ _ _⟩

end TcpView

/-- A buffer that `UdpView::parse` accepted. -/
structure UdpView where
  bytes : Bytes
  header : 8 ≤ bytes.length

namespace UdpView

def parse (bytes : Bytes) : Except ParseError UdpView :=
  if h : bytes.length < 8 then .error (.truncatedHeader 8 bytes.length)
  else .ok ⟨bytes, Nat.not_lt.mp h⟩

def srcPort (v : UdpView) : Exec UInt16 := u16Field v.bytes 0

def dstPort (v : UdpView) : Exec UInt16 := u16Field v.bytes 2

def length (v : UdpView) : Exec UInt16 := u16Field v.bytes 4

def checksum (v : UdpView) : Exec UInt16 := u16Field v.bytes 6

def payload (v : UdpView) : Exec Bytes := do
  let len ← v.length
  -- as in `Ipv4View`, nothing keeps the end behind the header
  slice v.bytes 8 (min len.toNat v.bytes.length)

def isDns (v : UdpView) : Exec Bool := do
  let port ← v.dstPort
  .ok (port == 53)

theorem bytes_of_parse {bytes : Bytes} {v : UdpView} (h : parse bytes = .ok v) :
    v.bytes = bytes := by
  unfold parse at h
  split_ifs at h
  exact congrArg UdpView.bytes (Except.ok.inj h).symm

theorem payload_eq (v : UdpView) :
    v.payload = slice v.bytes 8 (min (wordAt v.bytes 4).toNat v.bytes.length) := by
  have h8 := v.header
  rw [payload, length, u16Field_eq (by omega), Exec.ok_bind]

theorem payload_returns_iff (v : UdpView) :
    v.payload.Returns ↔ 8 ≤ (wordAt v.bytes 4).toNat := by
  have h8 := v.header
  rw [payload_eq, slice_returns_iff]
  omega

structure Safe (v : UdpView) : Prop where
  srcPort : v.srcPort.Returns
  dstPort : v.dstPort.Returns
  length : v.length.Returns
  checksum : v.checksum.Returns
  isDns : v.isDns.Returns
  payload : ∃ p, v.payload = .ok p ∧ p <+: v.bytes.drop 8

theorem safe_iff (v : UdpView) : v.Safe ↔ 8 ≤ (wordAt v.bytes 4).toNat := by
  have h8 := v.header
  constructor
  · intro h
    obtain ⟨p, hp, -⟩ := h.payload
    exact v.payload_returns_iff.mp ⟨p, hp⟩
  · intro h
    have hend : 8 ≤ min (wordAt v.bytes 4).toNat v.bytes.length := by omega
    have hslice := slice_eq hend (Nat.min_le_right _ _)
    refine ⟨⟨_, u16Field_eq (by omega)⟩, ⟨_, u16Field_eq (by omega)⟩, ⟨_, u16Field_eq (by omega)⟩,
      ⟨_, u16Field_eq (by omega)⟩, ?_, ?_⟩
    · rw [isDns, dstPort, u16Field_eq (by omega), Exec.ok_bind]
      exact Exec.returns_ok _
    · exact ⟨_, v.payload_eq.trans hslice, slice_isPrefix _ _ _⟩

end UdpView

inductive IcmpType where
  | echoReply
  | echoRequest
  | destinationUnreachable (code : UInt8)
  | timeExceeded (code : UInt8)
  | other (t c : UInt8)
  deriving DecidableEq, Repr

/-- A buffer that `IcmpView::parse` accepted. -/
structure IcmpView where
  bytes : Bytes
  minHeader : 4 ≤ bytes.length

namespace IcmpView

def parse (bytes : Bytes) : Except ParseError IcmpView :=
  if h : bytes.length < 4 then .error (.truncatedHeader 4 bytes.length)
  else .ok ⟨bytes, Nat.not_lt.mp h⟩

def icmpType (v : IcmpView) : Exec IcmpType := do
  let t ← index v.bytes 0
  let c ← index v.bytes 1
  .ok (if t = 0 ∧ c = 0 then .echoReply
    else if t = 8 ∧ c = 0 then .echoRequest
    else if t = 3 then .destinationUnreachable c
    else if t = 11 then .timeExceeded c
    else .other t c)

def checksum (v : IcmpView) : Exec UInt16 := u16Field v.bytes 2

def payload (v : IcmpView) : Exec Bytes := slice v.bytes 4 v.bytes.length

structure Safe (v : IcmpView) : Prop where
  icmpType : v.icmpType.Returns
  checksum : v.checksum.Returns
  payload : ∃ p, v.payload = .ok p ∧ p <+: v.bytes.drop 4

theorem safe (v : IcmpView) : v.Safe := by
  have h4 := v.minHeader
  refine ⟨?_, ⟨_, u16Field_eq (by omega)⟩, ?_⟩
  · rw [icmpType, index_eq (by omega), Exec.ok_bind, index_eq (by omega), Exec.ok_bind]
    exact Exec.returns_ok _
  · exact ⟨_, slice_eq h4 (le_refl _), slice_isPrefix _ _ _⟩

end IcmpView

inductive Transport where
  | tcp
  | udp
  | icmp
  deriving DecidableEq, Repr

/-- The rest of a function after `parse(..)?`. -/
def onParsed {α : Type} (r : Except ParseError α) (f : α → Exec (Except ParseError Bytes)) :
    Exec (Except ParseError Bytes) :=
  match r with
  | .error e => .ok (.error e)
  | .ok v => f v

/-- `parse` and then `payload` of one of the transport views. -/
def Transport.payload (bytes : Bytes) : Transport → Exec (Except ParseError Bytes)
  | .tcp => onParsed (TcpView.parse bytes) fun v => do
    let p ← v.payload
    .ok (.ok p)
  | .udp => onParsed (UdpView.parse bytes) fun v => do
    let p ← v.payload
    .ok (.ok p)
  | .icmp => onParsed (IcmpView.parse bytes) fun v => do
    let p ← v.payload
    .ok (.ok p)

/-- From an IP packet to the payload of its transport. -/
def chain (t : Transport) (buf : Bytes) : Exec (Except ParseError Bytes) :=
  onParsed (IpView.parse buf) fun ip => do
    let p ← ip.payload
    t.payload p

theorem onParsed_returns_iff {α : Type} {r : Except ParseError α}
    {f : α → Exec (Except ParseError Bytes)} :
    Exec.Returns (onParsed r f) ↔ ∀ v, r = .ok v → Exec.Returns (f v) := by
  cases r with
  | error e =>
    apply iff_of_true (Exec.returns_ok _)
    intro v h
    cases h
  | ok v =>
    constructor
    · intro h w hw
      rwa [← Except.ok.inj hw]
    · intro h
      exact h v rfl

/-- A transport that parsed returns its payload if the view does. -/
theorem onParsed_payload_returns_iff {α : Type} {r : Except ParseError α} {f : α → Exec Bytes} :
    Exec.Returns (onParsed r fun v => f v >>= fun p => .ok (.ok p)) ↔
      ∀ v, r = .ok v → Exec.Returns (f v) := by
  have hwrap (v : α) : Exec.Returns (f v >>= fun p =>
      (.ok (.ok p) : Exec (Except ParseError Bytes))) ↔ Exec.Returns (f v) := by
    rw [Exec.returns_bind_iff]
    constructor
    · rintro ⟨p, hp, -⟩
      exact ⟨p, hp⟩
    · rintro ⟨p, hp⟩
      exact ⟨p, hp, Exec.returns_ok _⟩
  simp only [onParsed_returns_iff, hwrap]

-- Where the length fields put the payload of an IP packet.

def ipStart (b : Bytes) : ℕ := if byteAt b 0 >>> 4 = 4 then headerLen b else 40

def ipEnd (b : Bytes) : ℕ :=
  if byteAt b 0 >>> 4 = 4 then min (totalLen b) b.length
  else min (40+(wordAt b 4).toNat) b.length

theorem IpView.payload_eq {b : Bytes} {ip : IpView} (h : parse b = .ok ip) :
    ip.payload = slice b (ipStart b) (ipEnd b) := by
  rcases parse_eq_ok h with ⟨v, rfl, h4, hv⟩ | ⟨v, rfl, h6, hv⟩
  · have hb := Ipv4View.bytes_of_parse hv
    have hp := v.payload_eq
    rw [hb] at hp
    rw [ipStart, ipEnd, if_pos h4, if_pos h4]
    exact hp
  · have hb := Ipv6View.bytes_of_parse hv
    have hp := v.payload_eq
    rw [hb] at hp
    have h4 : ¬byteAt b 0 >>> 4 = 4 := by
      rw [h6]
      decide
    rw [ipStart, ipEnd, if_neg h4, if_neg h4]
    exact hp

theorem UdpView.parse_accepts_iff (b : Bytes) :
    (∃ v, parse b = .ok v) ↔ 8 ≤ b.length := by
  constructor
  · rintro ⟨v, hv⟩
    rw [← bytes_of_parse hv]
    exact v.header
  · intro h8
    exact ⟨⟨b, h8⟩, dif_neg (Nat.not_lt.mpr h8)⟩

/-- Only the payload of a UDP view depends on a length field. -/
theorem Transport.payload_returns_iff (t : Transport) (b : Bytes) :
    Exec.Returns (t.payload b) ↔ (t = .udp → 8 ≤ b.length → 8 ≤ (wordAt b 4).toNat) := by
  cases t with
  | tcp =>
    refine iff_of_true (onParsed_payload_returns_iff.mpr ?_) fun h => by cases h
    intro v _
    obtain ⟨p, hp, -⟩ := v.safe.payload
    exact ⟨p, hp⟩
  | icmp =>
    refine iff_of_true (onParsed_payload_returns_iff.mpr ?_) fun h => by cases h
    intro v _
    obtain ⟨p, hp, -⟩ := v.safe.payload
    exact ⟨p, hp⟩
  | udp =>
    have hiff : Exec.Returns (Transport.payload b .udp) ↔
        ∀ v, UdpView.parse b = .ok v → v.payload.Returns := onParsed_payload_returns_iff
    rw [hiff]
    constructor
    · intro h _ h8
      obtain ⟨v, hv⟩ := (UdpView.parse_accepts_iff b).mpr h8
      have hlen := v.payload_returns_iff.mp (h v hv)
      rwa [UdpView.bytes_of_parse hv] at hlen
    · intro h v hv
      have h8 := h rfl ((UdpView.parse_accepts_iff b).mp ⟨v, hv⟩)
      rw [← UdpView.bytes_of_parse hv] at h8
      exact v.payload_returns_iff.mpr h8

/-- The length fields on the way cover their own headers: that of an IPv4 header, and that of a
UDP header if the payload is taken for UDP and can hold one. -/
def LengthsCover (t : Transport) (b : Bytes) : Prop :=
  ipStart b ≤ ipEnd b ∧
    (t = .udp → ipStart b+8 ≤ ipEnd b → 8 ≤ (wordAt b (ipStart b+4)).toNat)

theorem ipEnd_le (b : Bytes) : ipEnd b ≤ b.length := by
  unfold ipEnd
  split_ifs <;> exact Nat.min_le_right _ _

theorem chain_returns_iff (t : Transport) (b : Bytes) :
    Exec.Returns (chain t b) ↔ ∀ ip, IpView.parse b = .ok ip → LengthsCover t b := by
  have hle := ipEnd_le b
  have hlen := length_slice (ipStart b) hle
  -- a word of the payload is a word of the packet
  have hword (h : ipStart b+8 ≤ ipEnd b) :
      wordAt ((b.take (ipEnd b)).drop (ipStart b)) 4 = wordAt b (ipStart b+4) := by
    rw [wordAt, byteAt_slice (by omega), byteAt_slice (by omega), wordAt, Nat.add_assoc]
  have hstep (ip : IpView) (hip : IpView.parse b = .ok ip) :
      Exec.Returns (ip.payload >>= fun p => t.payload p) ↔ LengthsCover t b := by
    rw [IpView.payload_eq hip, Exec.returns_bind_iff]
    constructor
    · rintro ⟨p, hp, ht⟩
      have hse := (slice_returns_iff _ _ _).mp ⟨p, hp⟩
      rw [slice_eq hse.1 hse.2] at hp
      rw [← Except.ok.inj hp, Transport.payload_returns_iff, hlen] at ht
      refine ⟨hse.1, ?_⟩
      intro hu h8
      have hok := ht hu (by omega)
      rwa [hword h8] at hok
    · rintro ⟨hse, hudp⟩
      refine ⟨_, slice_eq hse hle, ?_⟩
      rw [Transport.payload_returns_iff, hlen]
      intro hu h8
      rw [hword (by omega)]
      exact hudp hu (by omega)
  rw [chain, onParsed_returns_iff]
  exact forall₂_congr hstep

/-- Which views can be used once they parsed: those of IPv6, TCP and ICMP always, those of IPv4
and UDP exactly if their length field covers the header; and when the way from a packet to the
payload of its transport does not panic. -/
theorem views_safe_iff (b : Bytes) :
    (∀ v, Ipv4View.parse b = .ok v → (v.Safe ↔ headerLen b ≤ totalLen b)) ∧
    (∀ v, Ipv6View.parse b = .ok v → v.Safe) ∧
    (∀ v, TcpView.parse b = .ok v → v.Safe) ∧
    (∀ v, UdpView.parse b = .ok v → (v.Safe ↔ 8 ≤ (wordAt b 4).toNat)) ∧
    (∀ v, IcmpView.parse b = .ok v → v.Safe) ∧
    ∀ t, Exec.Returns (chain t b) ↔ ∀ ip, IpView.parse b = .ok ip → LengthsCover t b := by
  refine ⟨?_, fun v _ => v.safe, fun v _ => v.safe, ?_, fun v _ => v.safe, ?_⟩
  · intro v hv
    rw [← Ipv4View.bytes_of_parse hv]
    exact v.safe_iff
  · intro v hv
    rw [← UdpView.bytes_of_parse hv]
    exact v.safe_iff
  · intro t
    exact chain_returns_iff t b

/-- A UDP header to port 53 in an IPv4 packet, with these two length fields. -/
def dnsHeader (total udpLen : UInt8) : Bytes :=
  [0x45, 0, 0, total, 0, 0, 0, 0, 64, 17, 0, 0, 10, 0, 0, 1, 8, 8, 8, 8,
    0x9C, 0x40, 0, 53, 0, udpLen, 0, 0]

theorem dns_header_safe :
    (∃ v, Ipv4View.parse (dnsHeader 28 8) = .ok v ∧ v.Safe) ∧
      Exec.Returns (chain .udp (dnsHeader 28 8)) := by
  obtain ⟨h4, -, -, -, -, hchain⟩ := views_safe_iff (dnsHeader 28 8)
  constructor
  · exact ⟨_, rfl, (h4 _ rfl).mpr (by decide)⟩
  · refine (hchain .udp).mpr fun ip _ => ⟨by decide, fun _ _ => by decide⟩

/-- Both parsers accept a length field that ends inside their own header, and the payload
panics. -/
theorem short_length_panics :
    (∃ v, IpView.parse (dnsHeader 19 8) = .ok (.v4 v) ∧ v.payload = .error .outOfBounds) ∧
      (∃ v, UdpView.parse ((dnsHeader 28 7).drop 20) = .ok v ∧
        v.payload = .error .outOfBounds) ∧
      chain .udp (dnsHeader 19 8) = .error .outOfBounds ∧
      chain .udp (dnsHeader 28 7) = .error .outOfBounds :=
  ⟨⟨_, rfl, rfl⟩, ⟨_, rfl, rfl⟩, rfl, rfl⟩

end GravitalShare.Proto
