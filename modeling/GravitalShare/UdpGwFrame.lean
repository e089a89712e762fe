import GravitalShare.Net
import GravitalShare.PrefixCode

/-! The frames of the UDP gateway. -/
namespace GravitalShare.UdpGw

def VERSION : UInt8 := 1

inductive UdpGwError where
  | truncated
  | invalidVersion (version : UInt8)
  deriving DecidableEq, Repr

-- IPV6 = 0x01, KEEPALIVE = 0x02
structure UdpGwFlags where
  bits : UInt8
  deriving DecidableEq, Repr

namespace UdpGwFlags

def empty : UdpGwFlags := ⟨0⟩

def all : UdpGwFlags := ⟨0x03⟩

def fromBitsTruncate (bits : UInt8) : UdpGwFlags := ⟨bits &&& all.bits⟩

/-- Only the two named flags are set. -/
def Defined (flags : UdpGwFlags) : Prop := fromBitsTruncate flags.bits = flags

theorem fromBitsTruncate_defined (bits : UInt8) : (fromBitsTruncate bits).Defined := by
  rw [Defined, fromBitsTruncate, fromBitsTruncate, UInt8.and_assoc, UInt8.and_self]

end UdpGwFlags

structure UdpGwFrame where
  clientId : UInt32
  flags : UdpGwFlags
  remoteAddr : SocketAddr
  payload : Bytes
  deriving DecidableEq, Repr

namespace UdpGwFrame

-- addr_type and addr
def encodeAddr : IpAddr → Bytes
  | .v4 ip => 0x01 :: ip.octets
  | .v6 ip => 0x04 :: ip.octets

def encode (f : UdpGwFrame) : Bytes :=
  [VERSION, f.flags.bits] ++ u32ToBE f.clientId ++ encodeAddr f.remoteAddr.ip ++
    u16ToBE f.remoteAddr.port ++ u16ToBE (UInt16.ofNat f.payload.length) ++ f.payload

/-- The address behind `offset` with the offset of what follows it. -/
def decodeAddr (data : Bytes) (addrType : UInt8) (offset : ℕ) :
    Exec (Except UdpGwError (IpAddr × ℕ)) :=
  if addrType = 0x01 then do
    if data.length < offset+4 then return .error .truncated
    let ip := ⟨← index data offset, ← index data (offset+1), ← index data (offset+2),
      ← index data (offset+3)⟩
    return .ok (.v4 ip, offset+4)
  else if addrType = 0x04 then do
    if data.length < offset+16 then return .error .truncated
    let b ← slice data offset (offset+16)
    -- copy_from_slice into [0u8; 16]
    if h : b.length = 16 then return .ok (.v6 ⟨b, h⟩, offset+16) else .error .outOfBounds
  else return .error .truncated

def decodePayload (data : Bytes) (flags : UdpGwFlags) (clientId : UInt32) (ip : IpAddr)
    (offset : ℕ) : Exec (Except UdpGwError UdpGwFrame) := do
  if data.length < offset+4 then return .error .truncated
  let port := u16FromBE (← index data offset) (← index data (offset+1))
  let payloadLen := (u16FromBE (← index data (offset+2)) (← index data (offset+3))).toNat
  if data.length < offset+4+payloadLen then return .error .truncated
  let payload ← slice data (offset+4) (offset+4+payloadLen)
  return .ok ⟨clientId, flags, .new ip port, payload⟩

def decode (data : Bytes) : Exec (Except UdpGwError UdpGwFrame) := do
  if data.isEmpty then return .error .truncated
  let version ← index data 0
  if version ≠ VERSION then return .error (.invalidVersion version)
  if data.length < 8 then return .error .truncated
  let flags := UdpGwFlags.fromBitsTruncate (← index data 1)
  let clientId := u32FromBE (← index data 2) (← index data 3) (← index data 4) (← index data 5)
  let addrType ← index data 6
  match ← decodeAddr data addrType 7 with
  | .error e => return .error e
  | .ok (ip, offset) => decodePayload data flags clientId ip offset

/-- A frame that its encoding can carry. -/
structure Sendable (f : UdpGwFrame) : Prop where
  payload : f.payload.length ≤ 65535
  flags : f.flags.Defined
  addr : ∀ ip port flowinfo scopeId, f.remoteAddr = .v6 ip port flowinfo scopeId →
    flowinfo = 0 ∧ scopeId = 0

theorem Sendable.new_addr {f : UdpGwFrame} (h : f.Sendable) :
    SocketAddr.new f.remoteAddr.ip f.remoteAddr.port = f.remoteAddr := by
  have ha := h.addr
  cases haddr : f.remoteAddr with
  | v4 ip port => rfl
  | v6 ip port flowinfo scopeId =>
    obtain ⟨rfl, rfl⟩ := ha ip port flowinfo scopeId haddr
    rfl

/-- The end of a frame behind `xs`. -/
theorem decodePayload_append (xs : Bytes) (p0 p1 l0 l1 : UInt8) (tail : Bytes) (flags : UdpGwFlags)
    (clientId : UInt32) (ip : IpAddr) :
    decodePayload (xs ++ p0 :: p1 :: l0 :: l1 :: tail) flags clientId ip xs.length =
      .ok (if tail.length < (u16FromBE l0 l1).toNat then .error .truncated
        else .ok ⟨clientId, flags, .new ip (u16FromBE p0 p1),
          tail.take (u16FromBE l0 l1).toNat⟩) := by
  have hlen : (xs ++ p0 :: p1 :: l0 :: l1 :: tail).length = xs.length+4+tail.length := by
    simp only [List.length_append, List.length_cons]
    omega
  rw [decodePayload, if_neg (by omega)]
  simp only [index_behind, index_append, index_cons_zero, index_cons_succ, Exec.ok_bind, hlen,
    Nat.add_lt_add_iff_left]
  split_ifs with hp
  · rfl
  · rw [Nat.add_assoc, slice_append, slice_eq (by omega) (by simp only [List.length_cons]; omega),
      List.drop_take, Nat.add_sub_cancel_left]
    rfl

theorem decodePayload_short {data : Bytes} {offset : ℕ} (h : data.length < offset+4)
    (flags : UdpGwFlags) (clientId : UInt32) (ip : IpAddr) :
    decodePayload data flags clientId ip offset = .ok (.error .truncated) := by
  rw [decodePayload, if_pos h]
  rfl

theorem decodeAddr_v4 (xs : Bytes) (a b c d : UInt8) (tail : Bytes) :
    decodeAddr (xs ++ a :: b :: c :: d :: tail) 0x01 xs.length =
      .ok (.ok (.v4 ⟨a, b, c, d⟩, xs.length+4)) := by
  rw [decodeAddr, if_pos rfl, if_neg (by simp only [List.length_append, List.length_cons]; omega)]
  simp only [index_behind, index_append, index_cons_zero, index_cons_succ, Exec.ok_bind]
  rfl

theorem decodeAddr_v6 (xs : Bytes) (ip : Ipv6Addr) (tail : Bytes) :
    decodeAddr (xs ++ (ip.octets ++ tail)) 0x04 xs.length = .ok (.ok (.v6 ip, xs.length+16)) := by
  have hip := ip.length_octets
  have hslice := slice_between xs ip.octets tail
  rw [hip] at hslice
  rw [decodeAddr, if_neg (by decide), if_pos rfl,
    if_neg (by simp only [List.length_append]; omega), hslice, Exec.ok_bind, dif_pos hip]
  rfl

theorem decodeAddr_short {data : Bytes} {addrType : UInt8} {offset : ℕ}
    (h4 : addrType = 0x01 → data.length < offset+4)
    (h16 : addrType = 0x04 → data.length < offset+16) :
    decodeAddr data addrType offset = .ok (.error .truncated) := by
  unfold decodeAddr
  by_cases h1 : addrType = 0x01
  · rw [if_pos h1, if_pos (h4 h1)]
    rfl
  · rw [if_neg h1]
    by_cases h2 : addrType = 0x04
    · rw [if_pos h2, if_pos (h16 h2)]
      rfl
    · rw [if_neg h2]
      rfl

/-- A type byte with enough bytes behind it is an address. -/
theorem encodeAddr_cases (addrType : UInt8) (tail : Bytes) :
    (addrType = 0x01 → tail.length < 4) ∧ (addrType = 0x04 → tail.length < 16) ∨
      ∃ ip tail', addrType :: tail = encodeAddr ip ++ tail' := by
  by_cases h1 : addrType = 0x01
  · subst h1
    match tail with
    | a :: b :: c :: d :: tail => exact Or.inr ⟨.v4 ⟨a, b, c, d⟩, tail, rfl⟩
    | [] | [_] | [_, _] | [_, _, _] => exact Or.inl ⟨fun _ => by simp, nofun⟩
  · by_cases h4 : addrType = 0x04
    · subst h4
      by_cases hlen : tail.length < 16
      · exact Or.inl ⟨nofun, fun _ => hlen⟩
      · have h16 : (tail.take 16).length = 16 := List.length_take_of_le (Nat.not_lt.mp hlen)
        refine Or.inr ⟨.v6 ⟨tail.take 16, h16⟩, tail.drop 16, ?_⟩
        rw [encodeAddr, List.cons_append, List.take_append_drop]
    · exact Or.inl ⟨fun h => absurd h h1, fun h => absurd h h4⟩

section Header

variable (flags c0 c1 c2 c3 : UInt8)

theorem decode_version {version : UInt8} (h : version ≠ VERSION) (data : Bytes) :
    decode (version :: data) = .ok (.error (.invalidVersion version)) := by
  rw [decode, if_neg (by simp)]
  simp only [index_cons_zero, Exec.ok_bind, if_pos h]
  rfl

theorem decode_short {data : Bytes} (h : data.length < 7) :
    decode (VERSION :: data) = .ok (.error .truncated) := by
  rw [decode, if_neg (by simp)]
  simp only [index_cons_zero, Exec.ok_bind, ne_eq, not_true_eq_false, if_false]
  rw [if_pos (by rw [List.length_cons]; omega)]
  rfl

theorem decode_addr_short {addrType : UInt8} {tail : Bytes} (h4 : addrType = 0x01 → tail.length < 4)
    (h16 : addrType = 0x04 → tail.length < 16) :
    decode (VERSION :: flags :: c0 :: c1 :: c2 :: c3 :: addrType :: tail) =
      .ok (.error .truncated) := by
  have haddr : decodeAddr (VERSION :: flags :: c0 :: c1 :: c2 :: c3 :: addrType :: tail)
      addrType 7 = .ok (.error .truncated) := by
    apply decodeAddr_short
    · intro h
      have hlen := h4 h
      simp only [List.length_cons]
      omega
    · intro h
      have hlen := h16 h
      simp only [List.length_cons]
      omega
  rw [decode, if_neg (by simp)]
  simp only [index_cons_zero, index_cons_succ, Exec.ok_bind, ne_eq, not_true_eq_false, if_false,
    haddr]
  split_ifs <;> rfl

theorem decode_of_addr {addrType : UInt8} {tail : Bytes} {ip : IpAddr} {offset : ℕ}
    (htail : tail ≠ [])
    (h : decodeAddr (VERSION :: flags :: c0 :: c1 :: c2 :: c3 :: addrType :: tail) addrType 7 =
      .ok (.ok (ip, offset))) :
    decode (VERSION :: flags :: c0 :: c1 :: c2 :: c3 :: addrType :: tail) =
      decodePayload (VERSION :: flags :: c0 :: c1 :: c2 :: c3 :: addrType :: tail)
        (.fromBitsTruncate flags) (u32FromBE c0 c1 c2 c3) ip offset := by
  have hlen := List.length_pos_of_ne_nil htail
  rw [decode, if_neg (by simp)]
  simp only [index_cons_zero, index_cons_succ, Exec.ok_bind, ne_eq, not_true_eq_false, if_false, h]
  rw [if_neg (by simp only [List.length_cons]; omega)]

theorem decode_addr (ip : IpAddr) (tail : Bytes) :
    decode ([VERSION, flags, c0, c1, c2, c3] ++ encodeAddr ip ++ tail) =
      decodePayload ([VERSION, flags, c0, c1, c2, c3] ++ encodeAddr ip ++ tail)
        (.fromBitsTruncate flags) (u32FromBE c0 c1 c2 c3) ip
        ([VERSION, flags, c0, c1, c2, c3] ++ encodeAddr ip).length := by
  cases ip with
  | v4 ip =>
    exact decode_of_addr flags c0 c1 c2 c3 (List.cons_ne_nil _ _)
      (decodeAddr_v4 [VERSION, flags, c0, c1, c2, c3, 0x01] ip.a ip.b ip.c ip.d tail)
  | v6 ip =>
    have hip := ip.length_octets
    have htail : ip.octets ++ tail ≠ [] := by
      apply List.ne_nil_of_length_pos
      rw [List.length_append]
      omega
    have hlen : ([VERSION, flags, c0, c1, c2, c3] ++ encodeAddr (.v6 ip)).length = 7+16 := by
      simp only [encodeAddr, List.length_append, List.length_cons, List.length_nil, hip]
    rw [hlen]
    exact decode_of_addr flags c0 c1 c2 c3 htail
      (decodeAddr_v6 [VERSION, flags, c0, c1, c2, c3, 0x04] ip tail)

/-- A frame as the decoder sees it once the address is complete. -/
theorem decode_body (ip : IpAddr) (p0 p1 l0 l1 : UInt8) (tail : Bytes) :
    decode ([VERSION, flags, c0, c1, c2, c3] ++ encodeAddr ip ++ p0 :: p1 :: l0 :: l1 :: tail) =
      .ok (if tail.length < (u16FromBE l0 l1).toNat then .error .truncated
        else .ok ⟨u32FromBE c0 c1 c2 c3, .fromBitsTruncate flags, .new ip (u16FromBE p0 p1),
          tail.take (u16FromBE l0 l1).toNat⟩) := by
  rw [decode_addr, decodePayload_append]

end Header

/-- The bytes of `f`, with the flags byte as it may have been received. -/
def layout (flags : UInt8) (f : UdpGwFrame) : Bytes :=
  [VERSION, flags] ++ u32ToBE f.clientId ++ encodeAddr f.remoteAddr.ip ++
    u16ToBE f.remoteAddr.port ++ u16ToBE (UInt16.ofNat f.payload.length) ++ f.payload

theorem layout_bits (f : UdpGwFrame) : layout f.flags.bits f = encode f := rfl

theorem decode_layout {f : UdpGwFrame} {flags : UInt8} (hf : .fromBitsTruncate flags = f.flags)
    (hp : f.payload.length ≤ 65535)
    (ha : SocketAddr.new f.remoteAddr.ip f.remoteAddr.port = f.remoteAddr) (rest : Bytes) :
    decode (layout flags f ++ rest) = .ok (.ok f) := by
  obtain ⟨clientId, _, addr, payload⟩ := f
  subst hf
  have hlen : (UInt16.ofNat payload.length).toNat = payload.length := by
    rw [UInt16.toNat_ofNat', Nat.mod_eq_of_lt]
    change payload.length ≤ 65535 at hp
    omega
  obtain ⟨c0, c1, c2, c3, hid, rfl⟩ := u32ToBE_cases clientId
  obtain ⟨p0, p1, hport, hp01⟩ := u16ToBE_cases addr.port
  obtain ⟨l0, l1, hlen2, hl01⟩ := u16ToBE_cases (UInt16.ofNat payload.length)
  have hbody := decode_body flags c0 c1 c2 c3 addr.ip p0 p1 l0 l1 (payload ++ rest)
  have hdata :
      layout flags ⟨u32FromBE c0 c1 c2 c3, .fromBitsTruncate flags, addr, payload⟩ ++ rest =
      [VERSION, flags, c0, c1, c2, c3] ++ encodeAddr addr.ip ++
        p0 :: p1 :: l0 :: l1 :: (payload ++ rest) := by
    simp only [layout, hid, hport, hlen2, List.append_assoc, List.cons_append, List.nil_append]
  rw [hl01, hp01, hlen, if_neg (by rw [List.length_append]; omega), List.take_left] at hbody
  rw [hdata, hbody]
  exact congrArg (fun a => Except.ok (Except.ok (UdpGwFrame.mk _ _ a _))) ha

/-- What the decoder has accepted is the layout of the frame it returns. -/
theorem layout_of_body (flags c0 c1 c2 c3 : UInt8) (ip : IpAddr) (p0 p1 l0 l1 : UInt8)
    {tail : Bytes} (h : ¬tail.length < (u16FromBE l0 l1).toNat) :
    [VERSION, flags, c0, c1, c2, c3] ++ encodeAddr ip ++ p0 :: p1 :: l0 :: l1 :: tail =
      layout flags ⟨u32FromBE c0 c1 c2 c3, .fromBitsTruncate flags, .new ip (u16FromBE p0 p1),
        tail.take (u16FromBE l0 l1).toNat⟩ ++ tail.drop (u16FromBE l0 l1).toNat ∧
    Sendable ⟨u32FromBE c0 c1 c2 c3, .fromBitsTruncate flags, .new ip (u16FromBE p0 p1),
      tail.take (u16FromBE l0 l1).toNat⟩ := by
  have hlen : (tail.take (u16FromBE l0 l1).toNat).length = (u16FromBE l0 l1).toNat :=
    List.length_take_of_le (Nat.not_lt.mp h)
  constructor
  · simp only [layout, hlen, u32ToBE_u32FromBE, u16ToBE_u16FromBE, UInt16.ofNat_toNat,
      SocketAddr.ip_new, SocketAddr.port_new, List.append_assoc, List.cons_append, List.nil_append,
      List.take_append_drop]
  · refine ⟨?_, UdpGwFlags.fromBitsTruncate_defined flags, ?_⟩
    · have h16 := (u16FromBE l0 l1).toNat_lt
      change (tail.take (u16FromBE l0 l1).toNat).length ≤ 65535
      omega
    · intro ip' port flowinfo scopeId haddr
      cases ip with
      | v4 ip => cases haddr
      | v6 ip =>
        cases haddr
        exact ⟨rfl, rfl⟩

/-- Everything the decoder can do: it finds a frame at the front, or reports what is missing. -/
theorem decode_cases (data : Bytes) :
    (∃ f flags rest, decode data = .ok (.ok f) ∧ data = layout flags f ++ rest ∧
      .fromBitsTruncate flags = f.flags ∧ f.Sendable) ∨
    decode data = .ok (.error .truncated) ∨
    ∃ version rest, data = version :: rest ∧ version ≠ VERSION ∧
      decode data = .ok (.error (.invalidVersion version)) := by
  match data with
  | [] => exact Or.inr (Or.inl rfl)
  | version :: data =>
    by_cases hv : version = VERSION
    · subst hv
      match data with
      | flags :: c0 :: c1 :: c2 :: c3 :: addrType :: tail =>
        rcases encodeAddr_cases addrType tail with ⟨h4, h16⟩ | ⟨ip, tail', htail⟩
        · exact Or.inr (Or.inl (decode_addr_short flags c0 c1 c2 c3 h4 h16))
        · have hdata : VERSION :: flags :: c0 :: c1 :: c2 :: c3 :: addrType :: tail =
              [VERSION, flags, c0, c1, c2, c3] ++ encodeAddr ip ++ tail' := by
            rw [htail]
            simp only [List.cons_append, List.nil_append]
          rw [hdata]
          match tail' with
          | p0 :: p1 :: l0 :: l1 :: tail' =>
            rw [decode_body]
            split_ifs with hlen
            · exact Or.inr (Or.inl rfl)
            · obtain ⟨hbody, hsend⟩ := layout_of_body flags c0 c1 c2 c3 ip p0 p1 l0 l1 hlen
              exact Or.inl ⟨_, flags, _, rfl, hbody, rfl, hsend⟩
          | [] | [_] | [_, _] | [_, _, _] =>
            right; left
            rw [decode_addr]
            apply decodePayload_short
            simp
      | [] | [_] | [_, _] | [_, _, _] | [_, _, _, _] | [_, _, _, _, _] =>
        exact Or.inr (Or.inl (decode_short (by simp)))
    · exact Or.inr (Or.inr ⟨version, data, rfl, hv, decode_version hv data⟩)

/-- The frame at the front of `data`, if there is one. -/
def frameAt (data : Bytes) : Option UdpGwFrame :=
  match decode data with
  | .ok (.ok f) => some f
  | _ => none

theorem frameAt_eq_some {data : Bytes} {f : UdpGwFrame} :
    frameAt data = some f ↔ decode data = .ok (.ok f) := by
  unfold frameAt
  split
  · next f' hd =>
    rw [hd]
    constructor
    · rintro h
      rw [Option.some.inj h]
    · intro h
      rw [Except.ok.inj (Except.ok.inj h)]
  · next hd => exact iff_of_false nofun (hd f)

theorem layout_of_decode {data : Bytes} {f : UdpGwFrame} (h : decode data = .ok (.ok f)) :
    ∃ flags rest, data = layout flags f ++ rest ∧ .fromBitsTruncate flags = f.flags ∧
      f.Sendable := by
  rcases decode_cases data with ⟨f', flags, rest, hd, hdata⟩ | hd | ⟨_, _, _, _, hd⟩
  · cases h.symm.trans hd
    exact ⟨flags, rest, hdata⟩
  · cases h.symm.trans hd
  · cases h.symm.trans hd

theorem reads_encode : PrefixCode.Reads encode frameAt Sendable where
  front f hf rest := frameAt_eq_some.mpr (decode_layout hf.flags hf.payload hf.new_addr rest)
  sound data f h := by
    obtain ⟨flags, rest, rfl, -, hsend⟩ := layout_of_decode (frameAt_eq_some.mp h)
    refine ⟨hsend, ?_⟩
    rw [List.length_append]
    exact Nat.le_add_right _ _
  extend data f h more := by
    obtain ⟨flags, rest, rfl, hflags, hsend⟩ := layout_of_decode (frameAt_eq_some.mp h)
    rw [List.append_assoc]
    exact frameAt_eq_some.mpr (decode_layout hflags hsend.payload hsend.new_addr _)

/-- The frames are a prefix code: decoding finds a frame whatever follows it, reports every
beginning of one as truncated, splits a stream into its frames, and accepts nothing else but
undefined flags. -/
theorem frames_prefix_free :
    (∀ f, Sendable f → (∀ rest, decode (encode f ++ rest) = .ok (.ok f)) ∧
      ∀ p, p <+: encode f → p ≠ encode f → decode p = .ok (.error .truncated)) ∧
    (∀ fs, (∀ f ∈ fs, Sendable f) → ∀ fuel, fs.length ≤ fuel →
      PrefixCode.decodeAll encode frameAt fuel (fs.flatMap encode) = some fs) ∧
    ∀ data f, decode data = .ok (.ok f) → Sendable f ∧
      encode f <+: writeAt data 1 [(UdpGwFlags.fromBitsTruncate (byteAt data 1)).bits] := by
  refine ⟨?_, ?_, ?_⟩
  · intro f hf
    refine ⟨fun rest => frameAt_eq_some.mp (reads_encode.front f hf rest), ?_⟩
    intro p hp hne
    have hnone := reads_encode.strict_prefix hf hp hne
    rcases decode_cases p with ⟨f', _, _, hd, -⟩ | hd | ⟨version, rest, rfl, hv, -⟩
    · rw [frameAt_eq_some.mpr hd] at hnone
      cases hnone
    · exact hd
    · -- what has been read begins like the frame
      obtain ⟨more, hmore⟩ := hp
      exact absurd (List.cons.inj hmore).1 hv
  · intro fs hfs fuel hfuel
    exact reads_encode.decodeAll_flatMap (fun _ _ => List.cons_ne_nil _ _) hfs hfuel
  · intro data f h
    obtain ⟨flags, rest, rfl, hflags, hsend⟩ := layout_of_decode h
    refine ⟨hsend, rest, ?_⟩
    rw [← layout_bits, ← hflags]
    rfl

def exampleFrame : UdpGwFrame := ⟨42, .empty, .v4 ⟨8, 8, 8, 8⟩ 53, [104, 101, 108, 108, 111]⟩

theorem example_frames_split : exampleFrame.Sendable ∧
    decode (encode exampleFrame ++ [1, 2]) = .ok (.ok exampleFrame) ∧
    decode (encode exampleFrame).dropLast = .ok (.error .truncated) ∧
    PrefixCode.decodeAll encode frameAt 2 (encode exampleFrame ++ encode exampleFrame) =
      some [exampleFrame, exampleFrame] := by
  have hsend : exampleFrame.Sendable := ⟨by decide, rfl, nofun⟩
  refine ⟨hsend, (frames_prefix_free.1 _ hsend).1 [1, 2], ?_, ?_⟩
  · exact (frames_prefix_free.1 _ hsend).2 _ (List.dropLast_prefix _) (by decide)
  · apply frames_prefix_free.2.1 [exampleFrame, exampleFrame] _ 2 (by decide)
    intro f hf
    rcases List.mem_pair.mp hf with rfl | rfl <;> exact hsend

theorem length_encodeAddr_le (ip : IpAddr) : (encodeAddr ip).length ≤ 17 := by
  cases ip with
  | v4 ip => exact Nat.le_of_ble_eq_true rfl
  | v6 ip => exact (congrArg (·+1) ip.length_octets).le

/-- Behind a known type of address enough bytes complete a frame, whatever they are. -/
theorem decode_long (flags c0 c1 c2 c3 : UInt8) {addrType : UInt8}
    (h : addrType = 0x01 ∨ addrType = 0x04) {tail : Bytes} (hlen : 65555 ≤ tail.length) :
    ∃ f, decode (VERSION :: flags :: c0 :: c1 :: c2 :: c3 :: addrType :: tail) = .ok (.ok f) := by
  rcases encodeAddr_cases addrType tail with ⟨h4, h16⟩ | ⟨ip, tail', htail⟩
  · rcases h with h | h
    · have := h4 h
      omega
    · have := h16 h
      omega
  · have haddr := length_encodeAddr_le ip
    have hsum := congrArg List.length htail
    rw [List.length_cons, List.length_append] at hsum
    have hrest : 65539 ≤ tail'.length := by omega
    match tail', hrest with
    | p0 :: p1 :: l0 :: l1 :: payload, hrest =>
      have hmax := (u16FromBE l0 l1).toNat_lt
      simp only [List.length_cons] at hrest
      have hbody := decode_body flags c0 c1 c2 c3 ip p0 p1 l0 l1 payload
      rw [if_neg (by omega)] at hbody
      rw [htail]
      exact ⟨_, hbody⟩

/-- The type of an address that no frame has. -/
def Hopeless (data : Bytes) : Prop :=
  ∃ flags c0 c1 c2 c3 addrType tail,
    data = VERSION :: flags :: c0 :: c1 :: c2 :: c3 :: addrType :: tail ∧
      addrType ≠ 0x01 ∧ addrType ≠ 0x04

theorem Hopeless.append {data : Bytes} (h : Hopeless data) (more : Bytes) :
    Hopeless (data ++ more) := by
  obtain ⟨flags, c0, c1, c2, c3, addrType, tail, rfl, h1, h4⟩ := h
  exact ⟨flags, c0, c1, c2, c3, addrType, tail ++ more, rfl, h1, h4⟩

theorem Hopeless.truncated {data : Bytes} (h : Hopeless data) :
    decode data = .ok (.error .truncated) := by
  obtain ⟨flags, c0, c1, c2, c3, addrType, tail, rfl, h1, h4⟩ := h
  exact decode_addr_short flags c0 c1 c2 c3 (fun h => absurd h h1) fun h => absurd h h4

/-- What is missing of a header can be added, for an IPv4 address. -/
theorem header_completable (data : Bytes) (h : data.length < 6) :
    ∃ more flags c0 c1 c2 c3, data ++ more = [flags, c0, c1, c2, c3, 0x01] := by
  match data, h with
  | [], _ => exact ⟨[0, 0, 0, 0, 0, 0x01], 0, 0, 0, 0, 0, rfl⟩
  | [a], _ => exact ⟨[0, 0, 0, 0, 0x01], a, 0, 0, 0, 0, rfl⟩
  | [a, b], _ => exact ⟨[0, 0, 0, 0x01], a, b, 0, 0, 0, rfl⟩
  | [a, b, c], _ => exact ⟨[0, 0, 0x01], a, b, c, 0, 0, rfl⟩
  | [a, b, c, d], _ => exact ⟨[0, 0x01], a, b, c, d, 0, rfl⟩
  | [a, b, c, d, e], _ => exact ⟨[0x01], a, b, c, d, e, rfl⟩

theorem decode_completable {data : Bytes} (h : decode data = .ok (.error .truncated))
    (hhope : ¬Hopeless data) : ∃ more f, decode (data ++ more) = .ok (.ok f) := by
  obtain ⟨zeros, hzeros⟩ : ∃ zeros : Bytes, zeros.length = 65555 :=
    ⟨List.replicate 65555 0, List.length_replicate⟩
  have hshort (data : Bytes) (hlen : data.length < 6) :
      ∃ more f, decode (VERSION :: data ++ more) = .ok (.ok f) := by
    obtain ⟨more, flags, c0, c1, c2, c3, hmore⟩ := header_completable data hlen
    refine ⟨more ++ zeros, ?_⟩
    rw [← List.append_assoc, List.cons_append, hmore]
    exact decode_long flags c0 c1 c2 c3 (.inl rfl) hzeros.ge
  match data with
  | [] =>
    obtain ⟨more, f, hmore⟩ := hshort [] (by decide)
    exact ⟨VERSION :: more, f, hmore⟩
  | version :: data =>
    obtain rfl : version = VERSION := by
      by_contra hv
      cases (decode_version hv data).symm.trans h
    rcases Nat.lt_or_ge data.length 6 with hlen | hlen
    · exact hshort data hlen
    · match data, hlen with
      | a :: b :: c :: d :: e :: addrType :: tail, _ =>
        have hknown : addrType = 0x01 ∨ addrType = 0x04 := by
          by_contra hunknown
          rw [not_or] at hunknown
          exact hhope ⟨a, b, c, d, e, addrType, tail, rfl, hunknown⟩
        have hlen : 65555 ≤ (tail ++ zeros).length := by
          rw [List.length_append]
          omega
        exact ⟨zeros, decode_long a b c d e hknown hlen⟩

/-- `Truncated` tells whether more bytes can complete a frame, except where the type of the address
is there and is an unknown one. -/
theorem truncated_means_more_iff (data : Bytes) :
    (decode data = .ok (.error .truncated) ↔
      (∀ f, decode data ≠ .ok (.ok f)) ∧
        ∃ more f, more ≠ [] ∧ decode (data ++ more) = .ok (.ok f)) ↔
    ¬Hopeless data := by
  constructor
  · intro hiff hhope
    obtain ⟨-, more, f, -, hmore⟩ := hiff.mp hhope.truncated
    cases (hhope.append more).truncated.symm.trans hmore
  · intro hhope
    rcases decode_cases data with ⟨f, -, -, hd, -⟩ | hd | ⟨version, rest, rfl, hv, hd⟩
    · exact iff_of_false (fun h => by cases hd.symm.trans h) fun h => h.1 f hd
    · have hnot (f : UdpGwFrame) : decode data ≠ .ok (.ok f) := fun h => by
        cases hd.symm.trans h
      obtain ⟨more, f, hmore⟩ := decode_completable hd hhope
      refine iff_of_true hd ⟨hnot, more, f, ?_, hmore⟩
      rintro rfl
      rw [List.append_nil] at hmore
      exact hnot f hmore
    · refine iff_of_false (fun h => by cases hd.symm.trans h) ?_
      rintro ⟨-, more, f, -, hmore⟩
      cases (decode_version hv (rest ++ more)).symm.trans hmore

/-- A whole header with address type 3: the decoder asks for more, but nothing can follow. -/
theorem unknown_address_type_truncated :
    decode [1, 0, 0, 0, 0, 42, 3, 8] = .ok (.error .truncated) ∧
      ∀ more f, decode ([1, 0, 0, 0, 0, 42, 3, 8] ++ more) ≠ .ok (.ok f) := by
  have hhope : Hopeless [1, 0, 0, 0, 0, 42, 3, 8] :=
    ⟨0, 0, 0, 0, 42, 3, [8], rfl, by decide, by decide⟩
  refine ⟨hhope.truncated, ?_⟩
  intro more f hmore
  cases (hhope.append more).truncated.symm.trans hmore

end UdpGwFrame

end GravitalShare.UdpGw
