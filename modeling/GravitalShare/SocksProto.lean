import GravitalShare.Net
import GravitalShare.Duplex

/-! The SOCKS5 messages, and the procedures of both ends that read and write them. -/
namespace GravitalShare.Socks

open Duplex

def VERSION : UInt8 := 0x05
def METHOD_NO_AUTH : UInt8 := 0x00
def METHOD_USERPASS : UInt8 := 0x02
def METHOD_NONE_ACCEPTABLE : UInt8 := 0xFF

-- the kinds of std::io::Error that the proxy tells apart
inductive ErrorKind where
  | connectionRefused
  | timedOut
  | other (kind : ℕ)
  deriving DecidableEq, Repr

inductive SocksError where
  | io (kind : ErrorKind)
  | invalidVersion (version : UInt8)
  | noAcceptableMethod
  | authRejected
  | hostUnreachable
  | commandNotSupported (cmd : UInt8)
  | addressTypeNotSupported (atyp : UInt8)
  | upstream (kind : ErrorKind)
  | serverReply (rep : UInt8)
  | prematureEof
  deriving DecidableEq, Repr

/-- Code that talks over a TCP stream that does not fail, except that it may end. -/
abbrev Sock (α : Type) := ExceptT SocksError (Proc UInt8) α

-- an unexpected end of the stream becomes PrematureEof, as `map_eof` has it
def readExact (n : ℕ) : Sock {bs : Bytes // bs.length = n} :=
  ExceptT.mk (Proc.getExact n >>= fun
    | some bs => .done (.ok bs)
    | none => .done (.error .prematureEof))

def readU8 : Sock UInt8 := do
  let b ← readExact 1
  return byteAt b.1 0

def readU16 : Sock UInt16 := do
  let b ← readExact 2
  return u16FromBE (byteAt b.1 0) (byteAt b.1 1)

def writeAll (bs : Bytes) : Sock Unit := ExceptT.mk (Proc.putAll bs (.done (.ok ())))

inductive Cmd where
  | connect
  | bind
  | udpAssociate
  deriving DecidableEq, Repr

def Cmd.tryFrom (v : UInt8) : Except SocksError Cmd :=
  if v = 0x01 then .ok .connect
  else if v = 0x02 then .ok .bind
  else if v = 0x03 then .ok .udpAssociate
  else .error (.commandNotSupported v)

inductive Rep where
  | succeeded
  | generalFailure
  | notAllowed
  | netUnreachable
  | hostUnreachable
  | connectionRefused
  | ttlExpired
  | commandNotSupported
  | addrTypeNotSupported
  deriving DecidableEq, Repr

def Rep.code : Rep → UInt8
  | .succeeded => 0x00
  | .generalFailure => 0x01
  | .notAllowed => 0x02
  | .netUnreachable => 0x03
  | .hostUnreachable => 0x04
  | .connectionRefused => 0x05
  | .ttlExpired => 0x06
  | .commandNotSupported => 0x07
  | .addrTypeNotSupported => 0x08

inductive AddrSpec where
  | ipv4 (ip : Ipv4Addr)
  | ipv6 (ip : Ipv6Addr)
  | domain (host : String)

structure Request where
  cmd : Cmd
  addr : AddrSpec
  port : UInt16

-- str::as_bytes
def asBytes (s : String) : Bytes := s.toByteArray.data.toList

/-- `String::from_utf8_lossy`. What it puts for bytes that are not UTF-8 is left to `replace`. -/
def fromUtf8Lossy (replace : Bytes → String) (b : Bytes) : String :=
  (String.fromUTF8? ⟨b.toArray⟩).getD (replace b)

theorem fromUtf8Lossy_asBytes (replace : Bytes → String) (s : String) :
    fromUtf8Lossy replace (asBytes s) = s := by
  have hs : String.fromUTF8? s.toByteArray = some s := by
    rw [String.fromUTF8?, dif_pos s.isValidUTF8]
    rfl
  rw [fromUtf8Lossy, asBytes, Array.toArray_toList, hs]
  rfl

section Reading

variable (replace : Bytes → String)

/-- The address of a request, by its type. -/
def readAddress (atyp : UInt8) : Sock AddrSpec :=
  if atyp = 0x01 then do
    let ip ← readExact 4
    return .ipv4 ⟨byteAt ip.1 0, byteAt ip.1 1, byteAt ip.1 2, byteAt ip.1 3⟩
  else if atyp = 0x03 then do
    let len ← readU8
    let domain ← readExact len.toNat
    return .domain (fromUtf8Lossy replace domain.1)
  else if atyp = 0x04 then do
    let ip ← readExact 16
    return .ipv6 ⟨ip.1, ip.2⟩
  else throw (.addressTypeNotSupported atyp)

-- what follows the four bytes of the header
def readRequestBody (cmd atyp : UInt8) : Sock Request := do
  let cmd ← Cmd.tryFrom cmd
  let addr ← readAddress replace atyp
  let port ← readU16
  return ⟨cmd, addr, port⟩

theorem readRequestBody_eq {cmd : UInt8} {c : Cmd} (h : Cmd.tryFrom cmd = .ok c) (atyp : UInt8) :
    readRequestBody replace cmd atyp = (do
      let addr ← readAddress replace atyp
      let port ← readU16
      return ⟨c, addr, port⟩) := by
  rw [readRequestBody, h]
  rfl

def readRequest : Sock Request := do
  let hdr ← readExact 4
  if byteAt hdr.1 0 ≠ VERSION then throw (.invalidVersion (byteAt hdr.1 0))
  -- hdr[2] is RSV and not looked at
  readRequestBody replace (byteAt hdr.1 1) (byteAt hdr.1 3)

end Reading

def encodeAddress (addr : AddrSpec) (port : UInt16) : Bytes :=
  (match addr with
    | .ipv4 ip => 0x01 :: ip.octets
    | .ipv6 ip => 0x04 :: ip.octets
    | .domain d => 0x03 :: UInt8.ofNat (asBytes d).length :: asBytes d) ++ u16ToBE port

def encodeReply (rep : Rep) (bindAddr : SocketAddr) : Bytes :=
  [VERSION, rep.code, 0x00] ++
    (match bindAddr.ip with
      | .v4 ip => 0x01 :: ip.octets
      | .v6 ip => 0x04 :: ip.octets) ++ u16ToBE bindAddr.port

def sendReply (rep : Rep) (bindAddr : SocketAddr) : Sock Unit :=
  writeAll (encodeReply rep bindAddr)

def negotiateMethod (serverAuthEnabled : Bool) : Sock UInt8 := do
  let hdr ← readExact 2
  if byteAt hdr.1 0 ≠ VERSION then throw (.invalidVersion (byteAt hdr.1 0))
  let methods ← readExact (byteAt hdr.1 1).toNat
  if METHOD_NO_AUTH ∈ methods.1 then
    writeAll [VERSION, METHOD_NO_AUTH]
    return METHOD_NO_AUTH
  else if serverAuthEnabled = true ∧ METHOD_USERPASS ∈ methods.1 then
    writeAll [VERSION, METHOD_USERPASS]
    return METHOD_USERPASS
  else
    writeAll [VERSION, METHOD_NONE_ACCEPTABLE]
    throw .noAcceptableMethod

def skipBoundAddress (atyp : UInt8) : Sock Unit := do
  if atyp = 0x01 then
    let _ ← readExact (4+2)
  else if atyp = 0x03 then
    let len ← readU8
    let _ ← readExact (len.toNat+2)
  else if atyp = 0x04 then
    let _ ← readExact (16+2)

section Transcripts

variable {ys : Bytes}

theorem talks_readExact (xs : Bytes) {n : ℕ} (h : xs.length = n) :
    Talks (readExact n) xs [] (.ok ⟨xs, h⟩) :=
  (Says.getExact h).bind _

theorem run_readExact_short {n : ℕ} {s : Bytes} (h : s.length < n) :
    (readExact n).run.run s = (.error .prematureEof, [], []) := by
  have hrun := Proc.run_getExact_short h
  rw [readExact, ExceptT.run_mk, Proc.run_bind, hrun]
  rfl

theorem accepts_readExact_iff {n : ℕ} {s rest : Bytes} {b : {bs : Bytes // bs.length = n}} :
    Accepts (readExact n) s b rest ↔ s = b.1 ++ rest := by
  constructor
  · rintro ⟨ys, h⟩
    rcases Nat.lt_or_ge s.length n with hlt | hge
    · cases (run_readExact_short hlt).symm.trans h
    · have htake : (s.take n).length = n := List.length_take_of_le hge
      have hrun := (talks_readExact _ htake).run_eq (s.drop n)
      rw [List.take_append_drop] at hrun
      cases hrun.symm.trans h
      exact (List.take_append_drop n s).symm
  · rintro rfl
    exact (talks_readExact b.1 b.2).accepts rest

theorem talks_writeAll (bs : Bytes) : Talks (writeAll bs) [] bs (.ok ()) := Says.putAll bs _

theorem talks_readU8 (b : UInt8) : Talks readU8 [b] [] (.ok b) :=
  (talks_readExact [b] rfl).bind_pure _

theorem talks_readU16 (port : UInt16) : Talks readU16 (u16ToBE port) [] (.ok port) := by
  have h : Talks readU16 (u16ToBE port) [] _ :=
    (talks_readExact _ (length_u16ToBE port)).bind_pure _
  rw [u16FromBE_u16ToBE] at h
  exact h

/-- How the address of a request may stand on the wire. -/
inductive OnWire (replace : Bytes → String) : UInt8 → Bytes → AddrSpec → Prop
  | ipv4 (ip : Ipv4Addr) : OnWire replace 0x01 ip.octets (.ipv4 ip)
  | ipv6 (ip : Ipv6Addr) : OnWire replace 0x04 ip.octets (.ipv6 ip)
  | domain {len : UInt8} {host : Bytes} (h : host.length = len.toNat) :
      OnWire replace 0x03 (len :: host) (.domain (fromUtf8Lossy replace host))

variable {replace : Bytes → String} {atyp : UInt8} {b : Bytes} {addr : AddrSpec}

theorem talks_readAddress (h : OnWire replace atyp b addr) :
    Talks (readAddress replace atyp) b [] (.ok addr) := by
  cases h with
  | ipv4 ip => exact (talks_readExact ip.octets (n := 4) rfl).bind_pure _
  | ipv6 ip => exact (talks_readExact _ ip.length_octets).bind_pure _
  | @domain len host hlen =>
    exact (talks_readU8 len).bind ((talks_readExact _ hlen).bind_pure _)

theorem talks_readAddress_unsupported (h1 : atyp ≠ 0x01) (h3 : atyp ≠ 0x03) (h4 : atyp ≠ 0x04) :
    Talks (readAddress replace atyp) [] [] (.error (.addressTypeNotSupported atyp)) := by
  rw [readAddress, if_neg h1, if_neg h3, if_neg h4]
  exact Talks.throw _

theorem talks_header {cmd rsv : UInt8} {r : Except SocksError Request}
    (h : Talks (readRequestBody replace cmd atyp) b ys r) :
    Talks (readRequest replace) ([VERSION, cmd, rsv, atyp] ++ b) ys r := by
  refine (talks_readExact [VERSION, cmd, rsv, atyp] rfl).bind ?_
  rw [if_neg (by exact fun hv => hv rfl)]
  exact h

theorem talks_readRequest {cmd : UInt8} {c : Cmd} (rsv : UInt8) (port : UInt16)
    (hc : Cmd.tryFrom cmd = .ok c) (h : OnWire replace atyp b addr) :
    Talks (readRequest replace) ([VERSION, cmd, rsv, atyp] ++ (b ++ u16ToBE port)) []
      (.ok ⟨c, addr, port⟩) := by
  apply talks_header
  rw [readRequestBody_eq replace hc]
  exact (talks_readAddress h).bind ((talks_readU16 port).bind_pure _)

theorem talks_readRequest_command {cmd rsv : UInt8} {e : SocksError}
    (hc : Cmd.tryFrom cmd = .error e) :
    Talks (readRequest replace) [VERSION, cmd, rsv, atyp] [] (.error e) := by
  apply talks_header (b := [])
  rw [readRequestBody, hc]
  exact (Talks.lift _).bind_error

theorem talks_readRequest_addressType {cmd rsv : UInt8} {c : Cmd} (hc : Cmd.tryFrom cmd = .ok c)
    (h1 : atyp ≠ 0x01) (h3 : atyp ≠ 0x03) (h4 : atyp ≠ 0x04) :
    Talks (readRequest replace) [VERSION, cmd, rsv, atyp] []
      (.error (.addressTypeNotSupported atyp)) := by
  apply talks_header (b := [])
  rw [readRequestBody_eq replace hc]
  exact (talks_readAddress_unsupported h1 h3 h4).bind_error

/-- The server accepts every greeting that offers to go without authentication. -/
theorem talks_negotiateMethod (auth : Bool) {n : UInt8} {methods : Bytes}
    (hlen : methods.length = n.toNat) (h : METHOD_NO_AUTH ∈ methods) :
    Talks (negotiateMethod auth) ([VERSION, n] ++ methods) [VERSION, METHOD_NO_AUTH]
      (.ok METHOD_NO_AUTH) := by
  refine (talks_readExact [VERSION, n] rfl).bind ?_
  rw [if_neg (by exact fun hv => hv rfl)]
  refine (talks_readExact _ hlen).bind_put ?_
  rw [if_pos (by exact h)]
  exact (talks_writeAll _).bind_pure _

theorem talks_sendReply (rep : Rep) (bindAddr : SocketAddr) :
    Talks (sendReply rep bindAddr) [] (encodeReply rep bindAddr) (.ok ()) := talks_writeAll _

/-- A reply is its header and exactly what `skip_bound_address` skips. -/
theorem encodeReply_cases (rep : Rep) (bindAddr : SocketAddr) :
    ∃ atyp b, encodeReply rep bindAddr = [VERSION, rep.code, 0x00, atyp] ++ b ∧
      Talks (skipBoundAddress atyp) b [] (.ok ()) := by
  cases hip : bindAddr.ip with
  | v4 ip =>
    refine ⟨0x01, ip.octets ++ u16ToBE bindAddr.port, ?_, ?_⟩
    · simp only [encodeReply, hip, List.cons_append, List.nil_append]
    · exact (talks_readExact _ (n := 4+2) rfl).bind_pure _
  | v6 ip =>
    refine ⟨0x04, ip.octets ++ u16ToBE bindAddr.port, ?_, ?_⟩
    · simp only [encodeReply, hip, List.cons_append, List.nil_append]
    · have hlen : (ip.octets ++ u16ToBE bindAddr.port).length = 16+2 := by
        rw [List.length_append, ip.length_octets, length_u16ToBE]
      exact (talks_readExact _ hlen).bind_pure _

end Transcripts

end GravitalShare.Socks
