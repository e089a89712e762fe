import GravitalShare.SocksServer

/-! A SOCKS5 tunnel from one end to the other: the client's CONNECT against the server. -/
namespace GravitalShare.Socks

open Duplex

-- the reply of the server, after CONNECT
def connectReply : Sock Unit := do
  let hdr ← readExact 4
  if byteAt hdr.1 1 ≠ 0x00 then throw (.serverReply (byteAt hdr.1 1))
  skipBoundAddress (byteAt hdr.1 3)

-- the answer to the greeting, and the CONNECT request
def connectRequest (target : AddrSpec) (port : UInt16) : Sock Unit := do
  let resp ← readExact 2
  if byteAt resp.1 0 ≠ 0x05 then throw (.invalidVersion (byteAt resp.1 0))
  if byteAt resp.1 1 ≠ METHOD_NO_AUTH then throw .authRejected
  writeAll ([0x05, 0x01, 0x00] ++ encodeAddress target port)
  connectReply

/-- `SocksClient::connect` on a stream to the proxy. -/
def connect (target : AddrSpec) (port : UInt16) : Sock Unit := do
  writeAll [0x05, 0x01, METHOD_NO_AUTH]
  connectRequest target port

/-- What the client sends once it has its tunnel. -/
def sendUp (up : Bytes) : Except SocksError Unit → Proc UInt8 (Except SocksError Unit)
  | .ok () => Proc.putAll up (.done (.ok ()))
  | .error e => .done (.error e)

/-- What the server relays from upstream, if it does. -/
def relayDown (down : Bytes) : Except SocksError Next → Proc UInt8 (Except SocksError Next)
  | .ok (.relay target) => Proc.putAll down (.done (.ok (.relay target)))
  | r => .done r

theorem says_sendUp (up : Bytes) : Says (sendUp up (.ok ())) [] up (.done (.ok ())) :=
  Says.putAll up _

theorem says_relayDown (down : Bytes) (target : SocketAddr) :
    Says (relayDown down (.ok (.relay target))) [] down (.done (.ok (.relay target))) :=
  Says.putAll down _

/-- Both ends of a new connection. -/
def tunnel (env : Env) (target : AddrSpec) (port : UInt16) (up down : Bytes) :
    Config UInt8 (Except SocksError Unit) (Except SocksError Next) :=
  ⟨(connect target port).run >>= sendUp up, (handleConnection env false).run >>= relayDown down,
    [], []⟩

/-- A name fits into a request if its length fits into a byte. -/
def AddrSpec.Fits : AddrSpec → Prop
  | .domain host => (asBytes host).length ≤ 255
  | _ => True

section Agreement

variable {env : Env} {target : AddrSpec} {port : UInt16} {up down : Bytes}

theorem encodeAddress_onWire (replace : Bytes → String) (h : target.Fits) (port : UInt16) :
    ∃ atyp b, encodeAddress target port = atyp :: (b ++ u16ToBE port) ∧
      OnWire replace atyp b target := by
  cases target with
  | ipv4 ip => exact ⟨_, _, rfl, .ipv4 ip⟩
  | ipv6 ip => exact ⟨_, _, rfl, .ipv6 ip⟩
  | domain host =>
    have hlen : (asBytes host).length = (UInt8.ofNat (asBytes host).length).toNat := by
      rw [UInt8.toNat_ofNat', Nat.mod_eq_of_lt]
      exact Nat.lt_succ_of_le h
    have hwire : OnWire replace 0x03 _ _ := .domain hlen
    rw [fromUtf8Lossy_asBytes] at hwire
    exact ⟨_, _, rfl, hwire⟩

/-- The server reads back the request that the client has written. -/
theorem talks_readRequest_connect (replace : Bytes → String) (h : target.Fits) (port : UInt16) :
    Talks (readRequest replace) ([0x05, 0x01, 0x00] ++ encodeAddress target port) []
      (.ok ⟨.connect, target, port⟩) := by
  obtain ⟨atyp, b, henc, hwire⟩ := encodeAddress_onWire replace h port
  rw [henc]
  exact talks_readRequest 0x00 port (show Cmd.tryFrom 0x01 = .ok .connect from rfl) hwire

theorem talks_connectReply (bound : SocketAddr) :
    Talks connectReply (encodeReply .succeeded bound) [] (.ok ()) := by
  obtain ⟨atyp, b, henc, hskip⟩ := encodeReply_cases .succeeded bound
  rw [henc]
  refine (talks_readExact _ (n := 4) rfl).bind ?_
  rw [if_neg (by exact fun hv => hv rfl)]
  exact hskip

theorem connectFailure_code (kind : ErrorKind) : (connectFailure kind).code ≠ 0x00 := by
  cases kind with
  | connectionRefused | timedOut => decide
  | other kind => exact (by decide : (0x04 : UInt8) ≠ 0x00)

/-- A reply that is not a success is not read to its end. -/
theorem talks_connectReply_refused {rep : Rep} (bound : SocketAddr) (h : rep.code ≠ 0x00) :
    ∃ hdr unread, encodeReply rep bound = hdr ++ unread ∧
      Talks connectReply hdr [] (.error (.serverReply rep.code)) := by
  obtain ⟨atyp, b, henc, -⟩ := encodeReply_cases rep bound
  refine ⟨_, _, henc, ?_⟩
  refine (talks_readExact _ (n := 4) rfl).bind_put ?_
  rw [if_pos (by exact h)]
  exact Talks.throw _

theorem says_connectRequest (target : AddrSpec) (port : UInt16) (up : Bytes) :
    Says ((connectRequest target port).run >>= sendUp up)
    [VERSION, METHOD_NO_AUTH] ([0x05, 0x01, 0x00] ++ encodeAddress target port)
    (connectReply.run >>= sendUp up) := by
  have hresp :
      Says ((connectRequest target port).run >>= sendUp up) [VERSION, METHOD_NO_AUTH] [] _ :=
    (talks_readExact [VERSION, METHOD_NO_AUTH] rfl).says_bind _
  rw [if_neg (by exact fun hv => hv rfl), if_neg (by exact fun hv => hv rfl)] at hresp
  exact hresp.trans ((talks_writeAll _).says_bind _)

/-- A run of the tunnel up to the server's reply. -/
theorem tunnel_replied (up down : Bytes) (h : target.Fits) {reply : Bytes}
    {r : Except SocksError Next}
    (hreply : Talks (handleConnect env ⟨.connect, target, port⟩) [] reply r) :
    Relation.ReflTransGen Step (tunnel env target port up down)
      ⟨connectReply.run >>= sendUp up, relayDown down r, [], reply⟩ := by
  have hgreeting := (talks_writeAll [0x05, 0x01, METHOD_NO_AUTH]).says_bind
    (f := fun _ => connectRequest target port) (sendUp up)
  have hmethod := (talks_negotiateMethod false (n := 1) rfl
    (List.mem_singleton_self METHOD_NO_AUTH)).says_bind
    (f := fun _ => readRequest env.replace >>= handleRequest env) (relayDown down)
  have hserved : Talks (readRequest env.replace >>= handleRequest env)
      ([0x05, 0x01, 0x00] ++ encodeAddress target port) reply r :=
    (talks_readRequest_connect env.replace h port).bind_put hreply
  -- client, server, client, server
  have h1 := hgreeting.left ((handleConnection env false).run >>= relayDown down) [] []
  have h2 := hmethod.right ((connectRequest target port).run >>= sendUp up) [] []
  have h3 := (says_connectRequest target port up).left
    ((readRequest env.replace >>= handleRequest env).run >>= relayDown down) [] []
  have h4 := (hserved.and_then (relayDown down)).right (connectReply.run >>= sendUp up) [] []
  simp only [List.append_nil, List.nil_append] at h1 h2 h3 h4
  exact ((h1.trans h2).trans h3).trans h4

/-- The client and the server agree on what belongs to the handshake and on how it ended. -/
theorem client_server_agreement (h : target.Fits) :
    (∀ n methods rest, methods.length = n.toNat → METHOD_NO_AUTH ∈ methods →
      (do let _ ← negotiateMethod false; readRequest env.replace : Sock Request).run.run
        ([VERSION, n] ++ methods ++ ([0x05, 0x01, 0x00] ++ encodeAddress target port) ++ rest) =
        (.ok ⟨.connect, target, port⟩, [VERSION, METHOD_NO_AUTH], rest)) ∧
    ∀ dst, toSocketAddr env target port = .ok dst →
      (env.connect dst = .ok () → ∀ bound, env.localAddr dst = .ok bound →
        EndsIn (tunnel env target port up down)
          ⟨.done (.ok ()), .done (.ok (.relay dst)), up, down⟩) ∧
      ∀ kind, env.connect dst = .error kind → ∃ unread,
        EndsIn (tunnel env target port up down)
          ⟨.done (.error (.serverReply (connectFailure kind).code)),
            .done (.error (.upstream kind)), [], unread⟩ := by
  refine ⟨?_, ?_⟩
  · intro n methods rest hlen hmem
    have htalk := (talks_negotiateMethod false hlen hmem).bind
      (f := fun _ => readRequest env.replace) (talks_readRequest_connect env.replace h port)
    exact htalk.run_eq rest
  · intro dst hdst
    refine ⟨?_, ?_⟩
    · intro hc bound hb
      have h1 := tunnel_replied up down h (talks_handleConnect hdst hc hb)
      have h2 := (says_relayDown down dst).right (connectReply.run >>= sendUp up) []
        (encodeReply .succeeded bound)
      have h3 := ((talks_connectReply bound).and_then (sendUp up)).left
        (Proc.done (Except.ok (Next.relay dst) : Except SocksError Next)) [] down
      have h4 := (says_sendUp up).left
        (Proc.done (Except.ok (Next.relay dst) : Except SocksError Next)) [] down
      exact EndsIn.of_run (((h1.trans h2).trans h3).trans h4) Step.not_done
    · intro kind hc
      have h1 := tunnel_replied up down h (talks_handleConnect_failed hdst hc)
      obtain ⟨hdr, unread, henc, htalk⟩ :=
        talks_connectReply_refused zeroAddr (connectFailure_code kind)
      rw [henc] at h1
      have h2 := (htalk.and_then (sendUp up)).left
        (Proc.done (Except.error (.upstream kind) : Except SocksError Next)) [] unread
      exact ⟨unread, EndsIn.of_run (h1.trans h2) Step.not_done⟩

end Agreement

theorem example_tunnels :
    EndsIn (tunnel exampleEnv (.ipv4 ⟨93, 184, 216, 34⟩) 443 [1, 2, 3] [4, 5])
      ⟨.done (.ok ()), .done (.ok (.relay (.v4 ⟨93, 184, 216, 34⟩ 443))), [1, 2, 3], [4, 5]⟩ ∧
    ∃ unread, EndsIn (tunnel { exampleEnv with connect := fun _ => .error .connectionRefused }
      (.ipv4 ⟨93, 184, 216, 34⟩) 443 [1, 2, 3] [4, 5])
      ⟨.done (.error (.serverReply 0x05)), .done (.error (.upstream .connectionRefused)), [],
        unread⟩ := by
  have hfits : (AddrSpec.ipv4 ⟨93, 184, 216, 34⟩).Fits := trivial
  constructor
  · exact ((client_server_agreement hfits).2 _ rfl).1 rfl _ rfl
  · exact ((client_server_agreement hfits).2 _ rfl).2 .connectionRefused rfl

end GravitalShare.Socks
