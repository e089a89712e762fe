import GravitalShare.SocksProto

/-! A connection to the SOCKS5 server, up to the point where it relays or closes. -/
namespace GravitalShare.Socks

open Duplex

/-- What the world answers the server in one connection. -/
structure Env where
  replace : Bytes → String
  lookupHost : String → UInt16 → Except ErrorKind (List SocketAddr)
  connect : SocketAddr → Except ErrorKind Unit
  localAddr : SocketAddr → Except ErrorKind SocketAddr
  bindUdp : Except ErrorKind Unit
  udpLocalAddr : Except ErrorKind SocketAddr

/-- What becomes of a connection that was served without an error. -/
inductive Next where
  | relay (target : SocketAddr)
  | relayUdp (localAddr : SocketAddr)
  | close
  deriving DecidableEq, Repr

section Server

variable (env : Env)

def toSocketAddr (addr : AddrSpec) (port : UInt16) : Except SocksError SocketAddr :=
  match addr with
  | .ipv4 ip => .ok (.new (.v4 ip) port)
  | .ipv6 ip => .ok (.new (.v6 ip) port)
  | .domain host =>
    match env.lookupHost host port with
    | .error kind => .error (.io kind)
    | .ok [] => .error .hostUnreachable
    | .ok (target :: _) => .ok target

-- 0.0.0.0:0
def zeroAddr : SocketAddr := .v4 ⟨0, 0, 0, 0⟩ 0

def connectFailure : ErrorKind → Rep
  | .connectionRefused => .connectionRefused
  | .timedOut => .ttlExpired
  | .other _ => .hostUnreachable

def handleConnect (req : Request) : Sock Next := do
  let target ← toSocketAddr env req.addr req.port
  match env.connect target with
  | .error kind =>
    sendReply (connectFailure kind) zeroAddr
    throw (.upstream kind)
  | .ok () =>
    let bound ← (env.localAddr target).mapError SocksError.io
    sendReply .succeeded bound
    return .relay target

def handleUdpAssociate : Sock Next := do
  let _ ← env.bindUdp.mapError SocksError.io
  let bound ← env.udpLocalAddr.mapError SocksError.io
  sendReply .succeeded bound
  return .relayUdp bound

def handleRequest (req : Request) : Sock Next :=
  match req.cmd with
  | .connect => handleConnect env req
  | .udpAssociate => handleUdpAssociate env
  | .bind => do
    sendReply .commandNotSupported zeroAddr
    return .close

def handleConnection (authEnabled : Bool) : Sock Next := do
  -- the method makes no difference: authentication always succeeds
  let _ ← negotiateMethod authEnabled
  let req ← readRequest env.replace
  handleRequest env req

end Server

section Transcripts

variable {env : Env} {req : Request} {target bound : SocketAddr} {e : SocksError} {kind : ErrorKind}

theorem talks_handleConnect_unresolved (h : toSocketAddr env req.addr req.port = .error e) :
    Talks (handleConnect env req) [] [] (.error e) := by
  rw [handleConnect, h]
  exact (Talks.lift _).bind_error

theorem talks_handleConnect_failed (h : toSocketAddr env req.addr req.port = .ok target)
    (hc : env.connect target = .error kind) :
    Talks (handleConnect env req) [] (encodeReply (connectFailure kind) zeroAddr)
      (.error (.upstream kind)) := by
  rw [handleConnect, h]
  refine (Talks.lift _).bind_put ?_
  rw [hc]
  exact (talks_sendReply _ _).bind_throw _

theorem talks_handleConnect_unbound (h : toSocketAddr env req.addr req.port = .ok target)
    (hc : env.connect target = .ok ()) (hl : env.localAddr target = .error kind) :
    Talks (handleConnect env req) [] [] (.error (.io kind)) := by
  rw [handleConnect, h]
  refine (Talks.lift _).bind_put ?_
  rw [hc, hl]
  exact (Talks.lift _).bind_error

theorem talks_handleConnect (h : toSocketAddr env req.addr req.port = .ok target)
    (hc : env.connect target = .ok ()) (hl : env.localAddr target = .ok bound) :
    Talks (handleConnect env req) [] (encodeReply .succeeded bound) (.ok (.relay target)) := by
  rw [handleConnect, h]
  refine (Talks.lift _).bind_put ?_
  rw [hc, hl]
  exact (Talks.lift _).bind_put ((talks_sendReply _ _).bind_pure _)

theorem talks_handleUdpAssociate_failed
    (h : ¬(env.bindUdp = .ok () ∧ ∃ bound, env.udpLocalAddr = .ok bound)) :
    ∃ e, Talks (handleUdpAssociate env) [] [] (.error e) := by
  unfold handleUdpAssociate
  cases hb : env.bindUdp with
  | error kind => exact ⟨.io kind, (Talks.lift _).bind_error⟩
  | ok _ =>
    cases hl : env.udpLocalAddr with
    | error kind => exact ⟨.io kind, (Talks.lift _).bind_put (Talks.lift _).bind_error⟩
    | ok bound => exact absurd ⟨hb, bound, hl⟩ h

theorem talks_handleUdpAssociate (h : env.bindUdp = .ok ()) (hl : env.udpLocalAddr = .ok bound) :
    Talks (handleUdpAssociate env) [] (encodeReply .succeeded bound) (.ok (.relayUdp bound)) := by
  rw [handleUdpAssociate, h, hl]
  exact (Talks.lift _).bind_put ((Talks.lift _).bind_put ((talks_sendReply _ _).bind_pure _))

theorem talks_handleConnection {auth : Bool} {greeting hello b ys : Bytes} {method : UInt8}
    {r : Except SocksError Next} (hneg : Talks (negotiateMethod auth) greeting hello (.ok method))
    (hreq : Talks (readRequest env.replace) b [] (.ok req))
    (h : Talks (handleRequest env req) [] ys r) :
    Talks (handleConnection env auth) (greeting ++ b) (hello ++ ys) r :=
  hneg.bind (hreq.bind_put h)

theorem talks_handleConnection_refused {auth : Bool} {greeting hello b : Bytes} {method : UInt8}
    (hneg : Talks (negotiateMethod auth) greeting hello (.ok method))
    (hreq : Talks (readRequest env.replace) b [] (.error e)) :
    Talks (handleConnection env auth) (greeting ++ b) hello (.error e) := by
  have h : Talks (handleConnection env auth) (greeting ++ b) (hello ++ []) (.error e) :=
    hneg.bind hreq.bind_error
  rwa [List.append_nil] at h

end Transcripts

/-- What follows the header of a request: a complete address and port, or nothing that matters
if the type of the address is unknown. -/
inductive RequestBody (env : Env) (atyp : UInt8) : Bytes → Option (AddrSpec × UInt16) → Prop
  | known {b addr} (h : OnWire env.replace atyp b addr) (port : UInt16) :
      RequestBody env atyp (b ++ u16ToBE port) (some (addr, port))
  | unknown (h1 : atyp ≠ 0x01) (h3 : atyp ≠ 0x03) (h4 : atyp ≠ 0x04) : RequestBody env atyp [] none

/-- A reply that tells the client what has become of its request. -/
structure Answers (env : Env) (cmd : UInt8) (target : Option (AddrSpec × UInt16)) (rep : Rep) :
    Prop where
  succeeded : rep.code = 0x00 →
    cmd = 0x01 ∧ (∃ addr port dst, target = some (addr, port) ∧
      toSocketAddr env addr port = .ok dst ∧ env.connect dst = .ok ()) ∨
    cmd = 0x03 ∧ env.bindUdp = .ok ()
  command : cmd ≠ 0x01 → cmd ≠ 0x03 → target ≠ none → rep.code = 0x07
  addressType : target = none → rep.code = 0x08
  unresolved : cmd = 0x01 → ∀ addr port e, target = some (addr, port) →
    toSocketAddr env addr port = .error e → rep.code = 0x04
  unreachable : cmd = 0x01 → ∀ addr port dst kind, target = some (addr, port) →
    toSocketAddr env addr port = .ok dst → env.connect dst = .error (.other kind) →
    rep.code = 0x04

/-- The requests the server has a reply for: a BIND, a CONNECT whose target resolves and whose
upstream socket, if there is one, knows its address, and a UDP ASSOCIATE that gets its socket. -/
def Served (env : Env) (cmd : UInt8) (target : Option (AddrSpec × UInt16)) : Prop :=
  ∃ addr port, target = some (addr, port) ∧
    (cmd = 0x02 ∨
      cmd = 0x01 ∧ (∃ dst, toSocketAddr env addr port = .ok dst ∧
        (env.connect dst = .ok () → ∃ bound, env.localAddr dst = .ok bound)) ∨
      cmd = 0x03 ∧ env.bindUdp = .ok () ∧ ∃ bound, env.udpLocalAddr = .ok bound)

section Answering

variable {env : Env} {addr : AddrSpec} {port : UInt16} {dst : SocketAddr}

/-- A CONNECT is answered according to what came of it. -/
theorem handleConnect_answers (h : toSocketAddr env addr port = .ok dst)
    (hl : env.connect dst = .ok () → ∃ bound, env.localAddr dst = .ok bound) :
    ∃ rep bound r, Talks (handleConnect env ⟨.connect, addr, port⟩) [] (encodeReply rep bound) r ∧
      Answers env 0x01 (some (addr, port)) rep := by
  have hdst {dst'} (h' : toSocketAddr env addr port = .ok dst') : dst' = dst :=
    Except.ok.inj (h'.symm.trans h)
  cases hc : env.connect dst with
  | error kind =>
    refine ⟨_, _, _, talks_handleConnect_failed h hc, ?_, nofun, nofun, ?_, ?_⟩
    · intro hrep
      cases kind <;> cases hrep
    · rintro _ _ _ e heq he
      cases heq
      cases h.symm.trans he
    · rintro _ _ _ dst' kind' heq h' hc'
      cases heq
      obtain rfl := hdst h'
      cases hc.symm.trans hc'
      rfl
  | ok _ =>
    obtain ⟨bound, hb⟩ := hl hc
    refine ⟨_, _, _, talks_handleConnect h hc hb, ?_, nofun, nofun, ?_, ?_⟩
    · exact fun _ => Or.inl ⟨rfl, addr, port, dst, rfl, h, hc⟩
    · rintro _ _ _ e heq he
      cases heq
      cases h.symm.trans he
    · rintro _ _ _ dst' kind' heq h' hc'
      cases heq
      obtain rfl := hdst h'
      cases hc.symm.trans hc'

theorem Cmd.tryFrom_cases (v : UInt8) :
    v = 0x01 ∧ tryFrom v = .ok .connect ∨ v = 0x02 ∧ tryFrom v = .ok .bind ∨
      v = 0x03 ∧ tryFrom v = .ok .udpAssociate ∨
      (v ≠ 0x01 ∧ v ≠ 0x02 ∧ v ≠ 0x03) ∧ tryFrom v = .error (.commandNotSupported v) := by
  by_cases h1 : v = 0x01
  · exact Or.inl ⟨h1, if_pos h1⟩
  · by_cases h2 : v = 0x02
    · subst h2
      exact Or.inr (Or.inl ⟨rfl, rfl⟩)
    · by_cases h3 : v = 0x03
      · subst h3
        exact Or.inr (Or.inr (Or.inl ⟨rfl, rfl⟩))
      · refine Or.inr (Or.inr (Or.inr ⟨⟨h1, h2, h3⟩, ?_⟩))
        rw [tryFrom, if_neg h1, if_neg h2, if_neg h3]

variable {auth : Bool} {greeting hello body : Bytes} {method cmd rsv atyp : UInt8}
  {target : Option (AddrSpec × UInt16)}

theorem served_answered (hneg : Talks (negotiateMethod auth) greeting hello (.ok method))
    (hbody : RequestBody env atyp body target) (hs : Served env cmd target) :
    ∃ rep bound r, Talks (handleConnection env auth)
      (greeting ++ ([VERSION, cmd, rsv, atyp] ++ body)) (hello ++ encodeReply rep bound) r ∧
      Answers env cmd target rep := by
  obtain ⟨addr, port, rfl, hs⟩ := hs
  cases hbody with
  | known hwire port =>
    rcases hs with rfl | ⟨rfl, dst, hdst, hl⟩ | ⟨rfl, hb, bound, hl⟩
    · have hreq := talks_readRequest rsv port (show Cmd.tryFrom 0x02 = .ok .bind from rfl) hwire
      refine ⟨_, _, _, talks_handleConnection hneg hreq ((talks_sendReply _ _).bind_pure _), ?_⟩
      exact ⟨nofun, fun _ _ _ => rfl, nofun, nofun, nofun⟩
    · have hreq := talks_readRequest rsv port (show Cmd.tryFrom 0x01 = .ok .connect from rfl) hwire
      obtain ⟨rep, bound, r, htalk, hans⟩ := handleConnect_answers hdst hl
      exact ⟨rep, bound, r, talks_handleConnection hneg hreq htalk, hans⟩
    · have hreq := talks_readRequest rsv port
        (show Cmd.tryFrom 0x03 = .ok .udpAssociate from rfl) hwire
      refine ⟨_, _, _, talks_handleConnection hneg hreq (talks_handleUdpAssociate hb hl), ?_⟩
      exact ⟨fun _ => Or.inr ⟨rfl, hb⟩, fun _ h3 => absurd rfl h3, nofun, nofun, nofun⟩

/-- What the server has written when it closes the connection or goes on to relay. -/
def written (env : Env) (auth : Bool) (stream : Bytes) : Bytes :=
  ((handleConnection env auth).run.run stream).2.1

theorem written_eq {b ys : Bytes} {r : Except SocksError Next}
    (h : Talks (handleConnection env auth) b ys r) (rest : Bytes) :
    written env auth (b ++ rest) = ys := by
  rw [written, h.run_eq]

/-- Every other request ends the connection without a reply. -/
theorem unserved_unanswered (hneg : Talks (negotiateMethod auth) greeting hello (.ok method))
    (hbody : RequestBody env atyp body target) (hs : ¬Served env cmd target) (rest : Bytes) :
    written env auth (greeting ++ ([VERSION, cmd, rsv, atyp] ++ body) ++ rest) = hello := by
  -- an error in the header is found before the address is read
  have hheader {e : SocksError} (h : Talks (readRequest env.replace) [VERSION, cmd, rsv, atyp] []
      (.error e)) :
      written env auth (greeting ++ ([VERSION, cmd, rsv, atyp] ++ body) ++ rest) = hello := by
    have hw := written_eq (talks_handleConnection_refused hneg h) (body ++ rest)
    simp only [List.append_assoc] at hw ⊢
    exact hw
  rcases Cmd.tryFrom_cases cmd with ⟨rfl, hcmd⟩ | ⟨rfl, hcmd⟩ | ⟨rfl, hcmd⟩ | ⟨-, hcmd⟩
  · cases hbody with
    | unknown h1 h3 h4 => exact hheader (talks_readRequest_addressType hcmd h1 h3 h4)
    | @known b addr hwire port =>
      have hreq := talks_readRequest rsv port hcmd hwire
      have hfail : ∃ e, Talks (handleConnect env ⟨.connect, addr, port⟩) [] [] (.error e) := by
        cases hdst : toSocketAddr env addr port with
        | error e => exact ⟨e, talks_handleConnect_unresolved hdst⟩
        | ok dst =>
          cases hc : env.connect dst with
          | error kind =>
            refine absurd ⟨addr, port, rfl, Or.inr (Or.inl ⟨rfl, dst, hdst, ?_⟩)⟩ hs
            rw [hc]
            nofun
          | ok _ =>
            cases hl : env.localAddr dst with
            | error kind => exact ⟨_, talks_handleConnect_unbound hdst hc hl⟩
            | ok bound =>
              exact absurd ⟨addr, port, rfl, Or.inr (Or.inl ⟨rfl, dst, hdst, fun _ => ⟨bound, hl⟩⟩)⟩
                hs
      obtain ⟨e, htalk⟩ := hfail
      have hw := written_eq (talks_handleConnection hneg hreq htalk) rest
      rwa [List.append_nil] at hw
  · cases hbody with
    | unknown h1 h3 h4 => exact hheader (talks_readRequest_addressType hcmd h1 h3 h4)
    | @known b addr hwire port => exact absurd ⟨addr, port, rfl, Or.inl rfl⟩ hs
  · cases hbody with
    | unknown h1 h3 h4 => exact hheader (talks_readRequest_addressType hcmd h1 h3 h4)
    | @known b addr hwire port =>
      have hreq := talks_readRequest rsv port hcmd hwire
      obtain ⟨e, htalk⟩ : ∃ e, Talks (handleUdpAssociate env) [] [] (.error e) := by
        apply talks_handleUdpAssociate_failed
        exact fun h => hs ⟨addr, port, rfl, Or.inr (Or.inr ⟨rfl, h⟩)⟩
      have hw := written_eq (talks_handleConnection hneg hreq htalk) rest
      rwa [List.append_nil] at hw
  · exact hheader (talks_readRequest_command hcmd)

/-- A request is answered by exactly one reply, and by the right one, exactly if it is one that
the server has a reply for. -/
theorem request_answered_iff (hneg : Talks (negotiateMethod auth) greeting hello (.ok method))
    (hbody : RequestBody env atyp body target) (rest : Bytes) :
    (∃ rep bound, written env auth (greeting ++ ([VERSION, cmd, rsv, atyp] ++ body) ++ rest) =
      hello ++ encodeReply rep bound ∧ Answers env cmd target rep) ↔ Served env cmd target := by
  constructor
  · rintro ⟨rep, bound, hw, -⟩
    by_contra hs
    rw [unserved_unanswered hneg hbody hs, List.self_eq_append_right] at hw
    exact absurd hw (List.cons_ne_nil _ _)
  · intro hs
    obtain ⟨rep, bound, r, htalk, hans⟩ := served_answered hneg hbody hs
    exact ⟨rep, bound, written_eq htalk rest, hans⟩

end Answering

/-- A world in which upstream connections and UDP sockets work but no name resolves. -/
def exampleEnv : Env where
  replace _ := ""
  lookupHost _ _ := .error (.other 0)
  connect _ := .ok ()
  localAddr _ := .ok (.v4 ⟨10, 0, 0, 2⟩ 50000)
  bindUdp := .ok ()
  udpLocalAddr := .ok (.v4 ⟨0, 0, 0, 0⟩ 50001)

theorem connect_answered : ∃ rep bound,
    written exampleEnv false ([VERSION, 1] ++ [METHOD_NO_AUTH] ++ ([VERSION, 0x01, 0x00, 0x01] ++
      ((Ipv4Addr.mk 93 184 216 34).octets ++ u16ToBE 443)) ++ [1, 2, 3]) =
      [VERSION, METHOD_NO_AUTH] ++ encodeReply rep bound ∧
    Answers exampleEnv 0x01 (some (.ipv4 ⟨93, 184, 216, 34⟩, 443)) rep := by
  apply (request_answered_iff (talks_negotiateMethod false rfl (List.mem_singleton_self _))
    (.known (.ipv4 ⟨93, 184, 216, 34⟩) 443) [1, 2, 3]).mpr
  exact ⟨_, _, rfl, Or.inr (Or.inl ⟨rfl, _, rfl, fun _ => ⟨_, rfl⟩⟩)⟩

/-- A CONNECT to a name that does not resolve, a request with command 9 and a CONNECT with
address type 2: in all three cases the reply to the greeting is all the client ever gets, and no
reply to its request. -/
theorem requests_unanswered :
    (written exampleEnv false [5, 1, 0, 5, 1, 0, 3, 2, 110, 111, 1, 187] = [5, 0] ∧
      ¬∃ rep bound, written exampleEnv false [5, 1, 0, 5, 1, 0, 3, 2, 110, 111, 1, 187] =
        [5, 0] ++ encodeReply rep bound ∧ Answers exampleEnv 0x01 (some (.domain "no", 443)) rep) ∧
    (written exampleEnv false [5, 1, 0, 5, 9, 0, 1, 93, 184, 216, 34, 1, 187] = [5, 0] ∧
      ¬∃ rep bound, written exampleEnv false [5, 1, 0, 5, 9, 0, 1, 93, 184, 216, 34, 1, 187] =
        [5, 0] ++ encodeReply rep bound ∧
        Answers exampleEnv 0x09 (some (.ipv4 ⟨93, 184, 216, 34⟩, 443)) rep) ∧
    (written exampleEnv false [5, 1, 0, 5, 1, 0, 2, 93, 184, 216, 34, 1, 187] = [5, 0] ∧
      ¬∃ rep bound, written exampleEnv false [5, 1, 0, 5, 1, 0, 2, 93, 184, 216, 34, 1, 187] =
        [5, 0] ++ encodeReply rep bound ∧ Answers exampleEnv 0x01 none rep) := by
  have hnone {stream : Bytes} {cmd : UInt8} {target : Option (AddrSpec × UInt16)}
      (h : written exampleEnv false stream = [5, 0]) :
      ¬∃ rep bound, written exampleEnv false stream = [5, 0] ++ encodeReply rep bound ∧
        Answers exampleEnv cmd target rep := by
    rintro ⟨rep, bound, hw, -⟩
    rw [h, List.self_eq_append_right] at hw
    exact absurd hw (List.cons_ne_nil _ _)
  exact ⟨⟨rfl, hnone rfl⟩, ⟨rfl, hnone rfl⟩, ⟨rfl, hnone rfl⟩⟩

end GravitalShare.Socks
