import GravitalShare.SocksTunnel

/-! The header of a UDP ASSOCIATE datagram. Its address is decoded by walking over a buffer, that
of a request by reading a stream; on the same bytes both come to the same result. -/
namespace GravitalShare.Socks

open Duplex

structure UdpHeader where
  frag : UInt8
  addr : AddrSpec
  port : UInt16
  payloadOffset : ℕ

section Decoding

variable (replace : Bytes → String)

/-- The address at `offset`, with the offset of what follows it. -/
def udpAddress (buf : Bytes) (atyp : UInt8) (offset : ℕ) :
    Exec (Except SocksError (AddrSpec × ℕ)) :=
  if atyp = 0x01 then do
    if buf.length < offset+4 then return .error .prematureEof
    let ip := ⟨← index buf offset, ← index buf (offset+1), ← index buf (offset+2),
      ← index buf (offset+3)⟩
    return .ok (.ipv4 ip, offset+4)
  else if atyp = 0x03 then do
    if buf.length < offset+1 then return .error .prematureEof
    let len := (← index buf offset).toNat
    if buf.length < offset+1+len then return .error .prematureEof
    let domain ← slice buf (offset+1) (offset+1+len)
    return .ok (.domain (fromUtf8Lossy replace domain), offset+1+len)
  else if atyp = 0x04 then do
    if buf.length < offset+16 then return .error .prematureEof
    let ip ← slice buf offset (offset+16)
    -- copy_from_slice into [0u8; 16]
    if h : ip.length = 16 then return .ok (.ipv6 ⟨ip, h⟩, offset+16) else .error .outOfBounds
  else return .error (.addressTypeNotSupported atyp)

def udpPort (buf : Bytes) (frag : UInt8) (addr : AddrSpec) (offset : ℕ) :
    Exec (Except SocksError UdpHeader) := do
  if buf.length < offset+2 then return .error .prematureEof
  let port := u16FromBE (← index buf offset) (← index buf (offset+1))
  return .ok ⟨frag, addr, port, offset+2⟩

def parseUdpDatagram (buf : Bytes) : Exec (Except SocksError UdpHeader) := do
  if buf.length < 4 then return .error .prematureEof
  -- the two reserved bytes are not looked at
  let frag ← index buf 2
  let atyp ← index buf 3
  match ← udpAddress replace buf atyp 4 with
  | .error e => return .error e
  | .ok (addr, offset) => udpPort buf frag addr offset

/-- Where the bytes of an address and its port may come to an end too early. -/
inductive Cut : Bytes → Prop
  | atyp : Cut []
  | ipv4 {b : Bytes} (h : b.length < 4) : Cut (0x01 :: b)
  | ipv6 {b : Bytes} (h : b.length < 16) : Cut (0x04 :: b)
  | len : Cut [0x03]
  | domain {len : UInt8} {b : Bytes} (h : b.length < len.toNat) : Cut (0x03 :: len :: b)
  | port {atyp : UInt8} {b rest : Bytes} {addr : AddrSpec} (h : OnWire replace atyp b addr)
      (hr : rest.length < 2) : Cut (atyp :: (b ++ rest))

/-- What bytes can be where an address and a port are expected. -/
inductive Front : Bytes → Prop
  | whole {atyp : UInt8} {b : Bytes} {addr : AddrSpec} (h : OnWire replace atyp b addr)
      (port : UInt16) (rest : Bytes) : Front (atyp :: (b ++ (u16ToBE port ++ rest)))
  | unknown {atyp : UInt8} (h1 : atyp ≠ 0x01) (h3 : atyp ≠ 0x03) (h4 : atyp ≠ 0x04)
      (rest : Bytes) : Front (atyp :: rest)
  | cut {b : Bytes} (h : Cut replace b) : Front b

end Decoding

section Cases

variable {replace : Bytes → String}

/-- After a complete address the port is complete too, or it is cut. -/
theorem front_of_onWire {atyp : UInt8} {b : Bytes} {addr : AddrSpec}
    (h : OnWire replace atyp b addr) (rest : Bytes) : Front replace (atyp :: (b ++ rest)) := by
  match rest with
  | hi :: lo :: rest =>
    have hport := Front.whole h (u16FromBE hi lo) rest
    rw [u16ToBE_u16FromBE] at hport
    exact hport
  | [] | [_] => exact .cut (.port h (by simp))

theorem front_cases (replace : Bytes → String) (t : Bytes) : Front replace t := by
  match t with
  | [] => exact .cut .atyp
  | atyp :: tail =>
    by_cases h1 : atyp = 0x01
    · subst h1
      match tail with
      | a :: b :: c :: d :: rest => exact front_of_onWire (.ipv4 ⟨a, b, c, d⟩) rest
      | [] | [_] | [_, _] | [_, _, _] => exact .cut (.ipv4 (by simp))
    · by_cases h3 : atyp = 0x03
      · subst h3
        match tail with
        | [] => exact .cut .len
        | len :: tail =>
          by_cases hlen : tail.length < len.toNat
          · exact .cut (.domain hlen)
          · have htake : (tail.take len.toNat).length = len.toNat :=
              List.length_take_of_le (Nat.not_lt.mp hlen)
            have hwire : OnWire replace 0x03 _ _ := .domain htake
            have hfront := front_of_onWire hwire (tail.drop len.toNat)
            rw [List.cons_append, List.take_append_drop] at hfront
            exact hfront
      · by_cases h4 : atyp = 0x04
        · subst h4
          by_cases hlen : tail.length < 16
          · exact .cut (.ipv6 hlen)
          · have htake : (tail.take 16).length = 16 :=
              List.length_take_of_le (Nat.not_lt.mp hlen)
            have hwire : OnWire replace 0x04 _ _ := .ipv6 ⟨_, htake⟩
            have hfront := front_of_onWire hwire (tail.drop 16)
            rw [List.take_append_drop] at hfront
            exact hfront
        · exact .unknown h1 h3 h4 tail

end Cases

section Requests

variable {replace : Bytes → String} {cmd rsv atyp : UInt8} {c : Cmd} {t : Bytes}

theorem run_readRequest_body (replace : Bytes → String) (cmd rsv atyp : UInt8) (t : Bytes) :
    (readRequest replace).run.run ([VERSION, cmd, rsv, atyp] ++ t) =
      (readRequestBody replace cmd atyp).run.run t := by
  have hrun := (talks_readExact [VERSION, cmd, rsv, atyp] (n := 4) rfl).run_bind
    (f := fun hdr => do
      if byteAt hdr.1 0 ≠ VERSION then throw (.invalidVersion (byteAt hdr.1 0))
      readRequestBody replace (byteAt hdr.1 1) (byteAt hdr.1 3)) t
  rw [if_neg (by exact fun hv => hv rfl)] at hrun
  exact hrun

/-- A request whose address breaks off. -/
theorem run_readRequest_address (hc : Cmd.tryFrom cmd = .ok c)
    (h : (readAddress replace atyp).run.run t = (.error .prematureEof, [], [])) :
    (readRequest replace).run.run ([VERSION, cmd, rsv, atyp] ++ t) =
      (.error .prematureEof, [], []) := by
  rw [run_readRequest_body, readRequestBody_eq replace hc]
  exact run_bind_error h

theorem run_readRequest_cut (rsv : UInt8) (hc : Cmd.tryFrom cmd = .ok c) (h : Cut replace t) :
    (readRequest replace).run.run ([VERSION, cmd, rsv] ++ t) =
      (.error .prematureEof, [], []) := by
  cases h with
  | atyp => exact run_bind_error (run_readExact_short (Nat.lt_succ_self 3))
  | ipv4 h => exact run_readRequest_address hc (run_bind_error (run_readExact_short h))
  | ipv6 h => exact run_readRequest_address hc (run_bind_error (run_readExact_short h))
  | len =>
    have hlen : readU8.run.run [] = (.error .prematureEof, [], []) :=
      run_bind_error (run_readExact_short (by decide))
    exact run_readRequest_address hc (run_bind_error hlen)
  | @domain len b h =>
    apply run_readRequest_address hc
    have hdomain := (talks_readU8 len).run_bind (f := fun len => do
      let domain ← readExact len.toNat
      return AddrSpec.domain (fromUtf8Lossy replace domain.1)) b
    rw [run_bind_error (run_readExact_short h)] at hdomain
    exact hdomain
  | @port atyp b rest addr h hr =>
    have hport : readU16.run.run rest = (.error .prematureEof, [], []) :=
      run_bind_error (run_readExact_short hr)
    have hrun := (talks_readAddress h).run_bind (f := fun addr => do
      let port ← readU16
      return Request.mk c addr port) rest
    rw [run_bind_error hport] at hrun
    have hbody := run_readRequest_body replace cmd rsv atyp (b ++ rest)
    rw [readRequestBody_eq replace hc] at hbody
    exact hbody.trans hrun

end Requests

section Datagrams

variable {replace : Bytes → String} {atyp : UInt8} {b : Bytes} {addr : AddrSpec}

theorem udpAddress_onWire (h : OnWire replace atyp b addr) (xs rest : Bytes) :
    udpAddress replace (xs ++ (b ++ rest)) atyp xs.length =
      .ok (.ok (addr, xs.length+b.length)) := by
  have hlen : (xs ++ (b ++ rest)).length = xs.length+(b.length+rest.length) := by
    rw [List.length_append, List.length_append]
  cases h with
  | ipv4 ip =>
    have h4 : ip.octets.length = 4 := rfl
    rw [udpAddress, if_pos rfl, if_neg (by omega)]
    simp only [Ipv4Addr.octets, List.cons_append, index_behind, index_append, index_cons_zero,
      index_cons_succ, Exec.ok_bind]
    rfl
  | ipv6 ip =>
    have hip := ip.length_octets
    have hslice := slice_between xs ip.octets rest
    rw [hip] at hlen hslice ⊢
    rw [udpAddress, if_neg (by decide), if_neg (by decide), if_pos rfl, if_neg (by omega), hslice,
      Exec.ok_bind, dif_pos hip]
    rfl
  | @domain len host hhost =>
    have hslice := slice_between (xs ++ [len]) host rest
    simp only [List.append_assoc, List.length_append, List.length_singleton, List.cons_append,
      List.nil_append, hhost] at hslice
    rw [List.length_cons, hhost, List.cons_append] at hlen
    rw [udpAddress, if_neg (by decide), if_pos rfl, List.cons_append, if_neg (by omega),
      index_behind, Exec.ok_bind]
    dsimp only
    rw [if_neg (by omega), hslice, Exec.ok_bind, List.length_cons, hhost, Nat.add_comm len.toNat,
      ← Nat.add_assoc]
    rfl

theorem udpAddress_unknown (h1 : atyp ≠ 0x01) (h3 : atyp ≠ 0x03) (h4 : atyp ≠ 0x04) (buf : Bytes)
    (offset : ℕ) :
    udpAddress replace buf atyp offset = .ok (.error (.addressTypeNotSupported atyp)) := by
  rw [udpAddress, if_neg h1, if_neg h3, if_neg h4]
  rfl

theorem udpPort_append (xs : Bytes) (hi lo : UInt8) (rest : Bytes) (frag : UInt8)
    (addr : AddrSpec) :
    udpPort (xs ++ hi :: lo :: rest) frag addr xs.length =
      .ok (.ok ⟨frag, addr, u16FromBE hi lo, xs.length+2⟩) := by
  rw [udpPort, if_neg (by simp only [List.length_append, List.length_cons]; omega)]
  simp only [index_behind, index_append, index_cons_zero, index_cons_succ, Exec.ok_bind]
  rfl

theorem udpPort_short {buf : Bytes} {offset : ℕ} (h : buf.length < offset+2) (frag : UInt8)
    (addr : AddrSpec) : udpPort buf frag addr offset = .ok (.error .prematureEof) := by
  rw [udpPort, if_pos h]
  rfl

section Header

variable {a r f : UInt8} {t : Bytes}

theorem parseUdpDatagram_eq (replace : Bytes → String) (a r f atyp : UInt8) (t : Bytes) :
    parseUdpDatagram replace ([a, r, f] ++ atyp :: t) =
      udpAddress replace ([a, r, f, atyp] ++ t) atyp 4 >>= fun
      | .error e => .ok (.error e)
      | .ok (addr, offset) => udpPort ([a, r, f, atyp] ++ t) f addr offset := by
  have hlen : ¬([a, r, f] ++ atyp :: t).length < 4 := by simp
  rw [parseUdpDatagram, if_neg hlen]
  simp only [List.cons_append, List.nil_append, index_cons_succ, index_cons_zero, Exec.ok_bind]
  rfl

theorem parseUdpDatagram_error {e : SocksError}
    (h : udpAddress replace ([a, r, f, atyp] ++ t) atyp 4 = .ok (.error e)) :
    parseUdpDatagram replace ([a, r, f] ++ atyp :: t) = .ok (.error e) := by
  rw [parseUdpDatagram_eq, h, Exec.ok_bind]

theorem parseUdpDatagram_port {offset : ℕ}
    (h : udpAddress replace ([a, r, f, atyp] ++ t) atyp 4 = .ok (.ok (addr, offset))) :
    parseUdpDatagram replace ([a, r, f] ++ atyp :: t) =
      udpPort ([a, r, f, atyp] ++ t) f addr offset := by
  rw [parseUdpDatagram_eq, h, Exec.ok_bind]

end Header

variable (a r f : UInt8)

theorem parseUdpDatagram_whole (h : OnWire replace atyp b addr) (port : UInt16) (rest : Bytes) :
    parseUdpDatagram replace ([a, r, f] ++ atyp :: (b ++ (u16ToBE port ++ rest))) =
      .ok (.ok ⟨f, addr, port, 4+b.length+2⟩) := by
  obtain ⟨hi, lo, hbytes, rfl⟩ := u16ToBE_cases port
  have haddr := udpAddress_onWire h [a, r, f, atyp] ([hi, lo] ++ rest)
  have hport := udpPort_append ([a, r, f, atyp] ++ b) hi lo rest f addr
  have hlen : ([a, r, f, atyp] ++ b).length = 4+b.length := List.length_append
  rw [hlen, List.append_assoc] at hport
  rw [hbytes, parseUdpDatagram_port haddr]
  exact hport

theorem parseUdpDatagram_unknown (h1 : atyp ≠ 0x01) (h3 : atyp ≠ 0x03) (h4 : atyp ≠ 0x04)
    (rest : Bytes) : parseUdpDatagram replace ([a, r, f] ++ atyp :: rest) =
      .ok (.error (.addressTypeNotSupported atyp)) :=
  parseUdpDatagram_error (udpAddress_unknown h1 h3 h4 _ _)

theorem parseUdpDatagram_cut {t : Bytes} (h : Cut replace t) :
    parseUdpDatagram replace ([a, r, f] ++ t) = .ok (.error .prematureEof) := by
  have hlen (atyp : UInt8) (b : Bytes) : ([a, r, f, atyp] ++ b).length = 4+b.length :=
    List.length_append
  cases h with
  | atyp => rfl
  | ipv4 h =>
    apply parseUdpDatagram_error
    rw [udpAddress, if_pos rfl, if_pos (by rw [hlen]; omega)]
    rfl
  | ipv6 h =>
    apply parseUdpDatagram_error
    rw [udpAddress, if_neg (by decide), if_neg (by decide), if_pos rfl,
      if_pos (by rw [hlen]; omega)]
    rfl
  | len => rfl
  | @domain len b h =>
    have hl := hlen 0x03 (len :: b)
    rw [List.length_cons] at hl
    apply parseUdpDatagram_error
    rw [udpAddress, if_neg (by decide), if_pos rfl, if_neg (by omega)]
    have hidx : index ([a, r, f, 0x03] ++ len :: b) 4 = .ok len :=
      index_behind [a, r, f, 0x03] len b
    rw [hidx, Exec.ok_bind]
    dsimp only
    rw [if_pos (by omega)]
    rfl
  | @port atyp b rest addr h hr =>
    rw [parseUdpDatagram_port (udpAddress_onWire h [a, r, f, atyp] rest)]
    apply udpPort_short
    rw [hlen, List.length_append]
    exact Nat.add_lt_add_left (Nat.add_lt_add_left hr _) 4

theorem parseUdpDatagram_encoded (replace : Bytes → String) (a r f : UInt8) (h : addr.Fits)
    (port : UInt16) (d : Bytes) :
    parseUdpDatagram replace ([a, r, f] ++ (encodeAddress addr port ++ d)) =
      .ok (.ok ⟨f, addr, port, 3+(encodeAddress addr port).length⟩) := by
  obtain ⟨atyp, b, henc, hwire⟩ := encodeAddress_onWire replace h port
  have hlen : 3+(encodeAddress addr port).length = 4+b.length+2 := by
    rw [henc, List.length_cons, List.length_append, length_u16ToBE]
    omega
  have hdata : encodeAddress addr port ++ d = atyp :: (b ++ (u16ToBE port ++ d)) := by
    rw [henc, List.cons_append, List.append_assoc]
  rw [hlen, hdata]
  exact parseUdpDatagram_whole a r f hwire port d

/-- Everything that can come of a datagram, which never is a panic. -/
theorem parseUdpDatagram_cases (replace : Bytes → String) (buf : Bytes) :
    (∃ e, parseUdpDatagram replace buf = .ok (.error e)) ∨
      ∃ hdr, parseUdpDatagram replace buf = .ok (.ok hdr) ∧ hdr.payloadOffset ≤ buf.length := by
  match buf with
  | [] | [_] | [_, _] => exact Or.inl ⟨.prematureEof, rfl⟩
  | a :: r :: f :: t =>
    cases front_cases replace t with
    | @whole atyp b addr h port rest =>
      refine Or.inr ⟨_, parseUdpDatagram_whole a r f h port rest, ?_⟩
      simp only [List.length_cons, List.length_append, length_u16ToBE]
      omega
    | unknown h1 h3 h4 rest => exact Or.inl ⟨_, parseUdpDatagram_unknown a r f h1 h3 h4 rest⟩
    | cut h => exact Or.inl ⟨_, parseUdpDatagram_cut a r f h⟩

end Datagrams

/-- Both decoders read an address to its end, and no further. -/
theorem decoders_read_whole {replace : Bytes → String} {atyp : UInt8} {x : Bytes} {addr : AddrSpec}
    {c : UInt8} {cmd : Cmd} (a b f r : UInt8) (hc : Cmd.tryFrom c = .ok cmd)
    (h : OnWire replace atyp x addr) (port : UInt16) (rest : Bytes) :
    1+x.length+2 ≤ (atyp :: (x ++ (u16ToBE port ++ rest))).length ∧
    (readRequest replace).run.run ([VERSION, c, r] ++ atyp :: (x ++ (u16ToBE port ++ rest))) =
      (.ok ⟨cmd, addr, port⟩, [],
        (atyp :: (x ++ (u16ToBE port ++ rest))).drop (1+x.length+2)) ∧
    parseUdpDatagram replace ([a, b, f] ++ atyp :: (x ++ (u16ToBE port ++ rest))) =
      .ok (.ok ⟨f, addr, port, 3+(1+x.length+2)⟩) := by
  have hreq := (talks_readRequest r port hc h).run_eq rest
  have hudp := parseUdpDatagram_whole a b f h port rest
  have hlen : (atyp :: (x ++ u16ToBE port)).length = 1+x.length+2 := by
    rw [List.length_cons, List.length_append, length_u16ToBE]
    omega
  have hdata : atyp :: (x ++ (u16ToBE port ++ rest)) = atyp :: (x ++ u16ToBE port) ++ rest := by
    rw [List.cons_append, List.append_assoc]
  refine ⟨?_, ?_, ?_⟩
  · rw [hdata, List.length_append, hlen]
    exact Nat.le_add_right _ _
  · rw [hdata, ← hlen, List.drop_left]
    exact hreq
  · rw [hudp, ← Nat.add_assoc, ← Nat.add_assoc]

/-- The decoder of a request and that of a datagram agree on every address and every end of the
bytes; the latter stays inside its buffer and reads back what `encode_address` has written. -/
theorem address_decoders_agree (replace : Bytes → String) :
    (∀ t c cmd a b f r, Cmd.tryFrom c = .ok cmd →
      (∃ addr port n, n ≤ t.length ∧
        (readRequest replace).run.run ([VERSION, c, r] ++ t) =
          (.ok ⟨cmd, addr, port⟩, [], t.drop n) ∧
        parseUdpDatagram replace ([a, b, f] ++ t) = .ok (.ok ⟨f, addr, port, 3+n⟩)) ∨
      ∃ e unread, (e = .prematureEof ∨ ∃ x, t.head? = some x ∧ e = .addressTypeNotSupported x) ∧
        (readRequest replace).run.run ([VERSION, c, r] ++ t) = (.error e, [], unread) ∧
        parseUdpDatagram replace ([a, b, f] ++ t) = .ok (.error e)) ∧
    (∀ buf, (parseUdpDatagram replace buf).Returns ∧
      ∀ hdr, parseUdpDatagram replace buf = .ok (.ok hdr) → hdr.payloadOffset ≤ buf.length) ∧
    ∀ addr port f d, AddrSpec.Fits addr → ∃ offset,
      parseUdpDatagram replace ([0, 0, f] ++ (encodeAddress addr port ++ d)) =
        .ok (.ok ⟨f, addr, port, offset⟩) ∧
      ([0, 0, f] ++ (encodeAddress addr port ++ d)).drop offset = d := by
  refine ⟨?_, ?_, ?_⟩
  · intro t c cmd a b f r hc
    cases front_cases replace t with
    | @whole atyp x addr h port rest =>
      exact Or.inl ⟨addr, port, 1+x.length+2, decoders_read_whole a b f r hc h port rest⟩
    | @unknown atyp h1 h3 h4 rest =>
      have hreq : Talks (readRequest replace) [VERSION, c, r, atyp] [] _ :=
        talks_readRequest_addressType hc h1 h3 h4
      exact Or.inr ⟨_, rest, Or.inr ⟨atyp, rfl, rfl⟩, hreq.run_eq rest,
        parseUdpDatagram_unknown a b f h1 h3 h4 rest⟩
    | cut h =>
      exact Or.inr ⟨_, [], Or.inl rfl, run_readRequest_cut r hc h, parseUdpDatagram_cut a b f h⟩
  · intro buf
    rcases parseUdpDatagram_cases replace buf with ⟨e, he⟩ | ⟨hdr, hok, hle⟩
    · refine ⟨⟨_, he⟩, ?_⟩
      intro hdr hok
      cases he.symm.trans hok
    · refine ⟨⟨_, hok⟩, ?_⟩
      intro hdr' hok'
      cases hok.symm.trans hok'
      exact hle
  · intro addr port f d hfits
    refine ⟨_, parseUdpDatagram_encoded replace 0 0 f hfits port d, ?_⟩
    rw [← List.append_assoc]
    exact List.drop_left' (by rw [List.length_append]; rfl)

/-- A name and a cut one, with a reserved byte that is not zero. -/
theorem example_decoders_agree :
    (∃ addr port n, n ≤ 9 ∧
      (readRequest fun _ => "").run.run ([VERSION, 0x01, 9] ++ [3, 2, 105, 111, 0, 53, 7, 7, 7]) =
        (.ok ⟨.connect, addr, port⟩, [], [3, 2, 105, 111, 0, 53, 7, 7, 7].drop n) ∧
      parseUdpDatagram (fun _ => "") ([1, 2, 0] ++ [3, 2, 105, 111, 0, 53, 7, 7, 7]) =
        .ok (.ok ⟨0, addr, port, 3+n⟩)) ∧
    (parseUdpDatagram (fun _ => "") [0, 0, 0, 1, 8, 8]).Returns := by
  refine ⟨?_, ((address_decoders_agree _).2.1 _).1⟩
  have hagree := (address_decoders_agree fun _ => "").1 [3, 2, 105, 111, 0, 53, 7, 7, 7] 0x01
    .connect 1 2 0 9 rfl
  rcases hagree with h | ⟨e, unread, -, hreq, -⟩
  · exact h
  · cases hreq

end GravitalShare.Socks
