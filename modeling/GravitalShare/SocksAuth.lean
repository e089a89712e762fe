import GravitalShare.SocksConnect

/-! What a SOCKS5 server that asks for authentication lets its clients do. The handler of a
connection is followed by a log of what it does; nothing in it ever verifies a password. -/
namespace GravitalShare.Socks

open Duplex

/-- What the handler of a connection does. -/
inductive Deed where
  | selected (method : UInt8)
  -- a sub-negotiation that was read from the stream and found to be right
  | verified (username password : Bytes)
  -- TcpStream::connect was called for a CONNECT
  | connect (target : SocketAddr)
  -- a socket was bound for a UDP ASSOCIATE
  | udpAssociate

def Deed.Executes : Deed → Prop
  | .connect _ | .udpAssociate => True
  | _ => False

/-- The code of a handler, with a log of what it has done. -/
abbrev Logged (α : Type) := ExceptT SocksError (StateT (List Deed) (Proc UInt8)) α

instance : MonadLift Sock Logged where
  monadLift x := ExceptT.mk fun log => do return (← x.run, log)

def note (deed : Deed) : Logged Unit := ExceptT.mk fun log => return (.ok (), log ++ [deed])

section Server

variable (env : Env)

-- the handlers again, each with a note where it does something

def handleConnectLogged (req : Request) : Logged Next := do
  let target ← toSocketAddr env req.addr req.port
  note (.connect target)
  match env.connect target with
  | .error kind =>
    sendReply (connectFailure kind) zeroAddr
    throw (.upstream kind)
  | .ok () =>
    let bound ← (env.localAddr target).mapError SocksError.io
    sendReply .succeeded bound
    return .relay target

def handleUdpAssociateLogged : Logged Next := do
  let _ ← env.bindUdp.mapError SocksError.io
  note .udpAssociate
  let bound ← env.udpLocalAddr.mapError SocksError.io
  sendReply .succeeded bound
  return .relayUdp bound

def handleRequestLogged (req : Request) : Logged Next :=
  match req.cmd with
  | .connect => handleConnectLogged env req
  | .udpAssociate => handleUdpAssociateLogged env
  | .bind => do
    sendReply .commandNotSupported zeroAddr
    return .close

def handleConnectionLogged (authEnabled : Bool) : Logged Next := do
  let method ← negotiateMethod authEnabled
  note (.selected method)
  -- the branch for METHOD_USERPASS is empty
  let req ← readRequest env.replace
  handleRequestLogged env req

/-- The log of a connection on which the client sends `stream`. -/
def log (authEnabled : Bool) (stream : Bytes) : List Deed :=
  (((handleConnectionLogged env authEnabled).run []).run stream).1.2

/-- What is done about a request: a CONNECT gets as far as its target resolves, a UDP ASSOCIATE as
far as a socket can be bound. -/
def Request.deeds (req : Request) : List Deed :=
  match req.cmd with
  | .connect =>
    match toSocketAddr env req.addr req.port with
    | .ok target => [.connect target]
    | .error _ => []
  | .udpAssociate => if env.bindUdp = .ok () then [.udpAssociate] else []
  | .bind => []

end Server

section Log

variable {α γ : Type} {env : Env} {auth : Bool} {s mid rest ys : Bytes} {e : SocksError} {a : α}
  {deeds deeds' : List Deed} {x : Logged α} {y : Sock α} {f : α → Logged γ} {g : α → Sock γ}

/-- On the stream `s` the code with a log does what the one without does, and logs `deeds`. -/
def Logs (x : Logged α) (y : Sock α) (s : Bytes) (deeds : List Deed) : Prop :=
  ∀ log, (x.run log).run s = (((y.run.run s).1, log ++ deeds), (y.run.run s).2)

theorem Logs.lift (y : Sock α) (s : Bytes) : Logs (liftM y) y s [] := by
  intro log
  have hrun := Proc.run_bind y.run (fun r => pure (r, log)) s
  rw [List.append_nil]
  refine hrun.trans (Prod.ext rfl (Prod.ext ?_ rfl))
  exact List.append_nil _

theorem Logs.bind_ok (h : Logs x y s deeds) (hy : y.run.run s = (.ok a, ys, mid))
    (h' : Logs (f a) (g a) mid deeds') : Logs (x >>= f) (y >>= g) s (deeds ++ deeds') := by
  intro log
  have hx := h log
  rw [hy] at hx
  have hrun := Proc.run_bind (x.run log) (fun p => ExceptT.bindCont f p.1 p.2) s
  rw [hx] at hrun
  have hf := h' (log ++ deeds)
  rw [run_bind_ok hy, ← List.append_assoc]
  refine hrun.trans (Prod.ext (congrArg (·.1) hf) (Prod.ext ?_ (congrArg (·.2.2) hf)))
  exact congrArg (fun p => ys ++ p.2.1) hf

theorem Logs.bind_error (h : Logs x y s deeds) (hy : y.run.run s = (.error e, ys, mid)) :
    Logs (x >>= f) (y >>= g) s deeds := by
  intro log
  have hx := h log
  rw [hy] at hx
  have hrun := Proc.run_bind (x.run log) (fun p => ExceptT.bindCont f p.1 p.2) s
  rw [hx] at hrun
  rw [run_bind_error hy]
  refine hrun.trans (Prod.ext rfl (Prod.ext ?_ rfl))
  exact List.append_nil ys

theorem Logs.noted (deed : Deed) {x : Logged α} (h : Logs x y s deeds) :
    Logs (do note deed; x) y s (deed :: deeds) := by
  intro log
  have hx := h (log ++ [deed])
  rw [List.append_assoc] at hx
  exact hx

/-- A call of the operating system that does not touch the stream. -/
theorem Logs.called (a : α) (h : Logs (f a) (g a) s deeds) :
    Logs (liftM (Except.ok a : Except SocksError α) >>= f)
      (liftM (Except.ok a : Except SocksError α) >>= g) s deeds := h

theorem Logs.failed (e : SocksError) :
    Logs (liftM (Except.error e : Except SocksError α) >>= f)
      (liftM (Except.error e : Except SocksError α) >>= g) s [] := by
  intro log
  rw [List.append_nil]
  rfl

theorem logs_reply (rep : Rep) (bound : SocketAddr) (s : Bytes) (r : Except SocksError Next) :
    Logs (do sendReply rep bound; liftM r) (do sendReply rep bound; liftM r) s [] :=
  (Logs.lift (sendReply rep bound) s).bind_ok ((talks_sendReply rep bound).run_eq s)
    (Logs.lift (liftM r) s)

theorem logs_handleConnect (env : Env) (req : Request) (s : Bytes) :
    Logs (handleConnectLogged env req) (handleConnect env req) s
      (match toSocketAddr env req.addr req.port with
        | .ok target => [.connect target]
        | .error _ => []) := by
  unfold handleConnectLogged handleConnect
  cases htarget : toSocketAddr env req.addr req.port with
  | error e => exact Logs.failed e
  | ok target =>
    apply Logs.called target
    apply Logs.noted (.connect target)
    cases hc : env.connect target with
    | error kind => exact logs_reply _ _ s (.error (.upstream kind))
    | ok u =>
      cases hl : env.localAddr target with
      | error kind => exact Logs.failed (.io kind)
      | ok bound => exact Logs.called bound (logs_reply _ _ s (.ok (.relay target)))

theorem logs_handleUdpAssociate (env : Env) (s : Bytes) :
    Logs (handleUdpAssociateLogged env) (handleUdpAssociate env) s
      (if env.bindUdp = .ok () then [.udpAssociate] else []) := by
  unfold handleUdpAssociateLogged handleUdpAssociate
  cases hb : env.bindUdp with
  | error kind =>
    rw [if_neg (fun h => by cases h)]
    exact Logs.failed (.io kind)
  | ok u =>
    rw [if_pos rfl]
    apply Logs.called ()
    apply Logs.noted .udpAssociate
    cases hl : env.udpLocalAddr with
    | error kind => exact Logs.failed (.io kind)
    | ok bound => exact Logs.called bound (logs_reply _ _ s (.ok (.relayUdp bound)))

theorem logs_handleRequest (env : Env) (req : Request) (s : Bytes) :
    Logs (handleRequestLogged env req) (handleRequest env req) s (req.deeds env) := by
  unfold handleRequestLogged handleRequest Request.deeds
  cases req.cmd with
  | connect => exact logs_handleConnect env req s
  | udpAssociate => exact logs_handleUdpAssociate env s
  | bind => exact logs_reply _ _ s (.ok .close)

/-- The handler without its log is that of before; and the log is empty, or it begins with the
method that was selected and goes on with what was done about the request, if one was read. -/
theorem logs_handleConnection (env : Env) (auth : Bool) (s : Bytes) :
    ∃ deeds, Logs (handleConnectionLogged env auth) (handleConnection env auth) s deeds ∧
      (deeds = [] ∨ (∃ method, deeds = [.selected method]) ∨
        ∃ method mid req rest, Accepts (negotiateMethod auth) s method mid ∧
          Accepts (readRequest env.replace) mid req rest ∧
          deeds = .selected method :: req.deeds env) := by
  have hneg := Logs.lift (negotiateMethod auth) s
  obtain ⟨⟨r, hello, mid⟩, hs⟩ : ∃ out, (negotiateMethod auth).run.run s = out := ⟨_, rfl⟩
  cases r with
  | error e => exact ⟨[], hneg.bind_error hs, Or.inl rfl⟩
  | ok method =>
    have hread := Logs.lift (readRequest env.replace) mid
    obtain ⟨⟨r, ys, rest⟩, hm⟩ : ∃ out, (readRequest env.replace).run.run mid = out := ⟨_, rfl⟩
    cases r with
    | error e =>
      exact ⟨_, hneg.bind_ok hs ((hread.bind_error hm).noted _), Or.inr (Or.inl ⟨method, rfl⟩)⟩
    | ok req =>
      refine ⟨_, hneg.bind_ok hs ((hread.bind_ok hm (logs_handleRequest env req rest)).noted _), ?_⟩
      exact Or.inr (Or.inr ⟨method, mid, req, rest, ⟨hello, hs⟩, ⟨ys, hm⟩, rfl⟩)

/-- The log changes nothing else about the handler. -/
theorem logged_erases (env : Env) (auth : Bool) (s : Bytes) :
    ((((handleConnectionLogged env auth).run []).run s).1.1,
      (((handleConnectionLogged env auth).run []).run s).2) =
      (handleConnection env auth).run.run s := by
  obtain ⟨deeds, hlogs, -⟩ := logs_handleConnection env auth s
  rw [hlogs []]

theorem Logs.log_eq
    (h : Logs (handleConnectionLogged env auth) (handleConnection env auth) s deeds) :
    log env auth s = deeds := congrArg (·.1.2) (h [])

/-- A request that was read is acted upon. -/
theorem log_served {method : UInt8} {req : Request}
    (hneg : Accepts (negotiateMethod auth) s method mid)
    (hreq : Accepts (readRequest env.replace) mid req rest) :
    log env auth s = .selected method :: req.deeds env := by
  obtain ⟨hello, hneg⟩ := hneg
  obtain ⟨ys, hreq⟩ := hreq
  have hread := (Logs.lift (readRequest env.replace) mid).bind_ok hreq
    (logs_handleRequest env req rest)
  exact ((Logs.lift (negotiateMethod auth) s).bind_ok hneg (hread.noted (.selected method))).log_eq

end Log

section Acceptance

variable {s unread : Bytes} {replace : Bytes → String}

theorem accepts_lift_iff {α : Type} {r : Except SocksError α} {a : α} :
    Accepts (liftM r : Sock α) s a unread ↔ r = .ok a ∧ s = unread := by
  constructor
  · rintro ⟨ys, h⟩
    cases (Talks.lift r).run_eq s |>.symm.trans h
    exact ⟨rfl, rfl⟩
  · rintro ⟨rfl, rfl⟩
    exact (Talks.lift _).accepts s

theorem not_accepts_throw {α : Type} {e : SocksError} {a : α} :
    ¬Accepts (throw e : Sock α) s a unread := by
  rintro ⟨ys, h⟩
  cases h

theorem accepts_readU16_iff {port : UInt16} :
    Accepts readU16 s port unread ↔ s = u16ToBE port ++ unread := by
  constructor
  · simp only [readU16, accepts_bind_iff, accepts_readExact_iff, accepts_pure_iff]
    rintro ⟨⟨b, hb⟩, mid, rfl, rfl, rfl⟩
    match b, hb with
    | [hi, lo], _ => exact congrArg (· ++ mid) (u16ToBE_u16FromBE hi lo).symm
  · rintro rfl
    exact (talks_readU16 port).accepts unread

theorem accepts_readAddress_iff {atyp : UInt8} {addr : AddrSpec} :
    Accepts (readAddress replace atyp) s addr unread ↔
      ∃ b, s = b ++ unread ∧ OnWire replace atyp b addr := by
  constructor
  · intro h
    unfold readAddress at h
    split_ifs at h with h1 h3 h4
    · simp only [accepts_bind_iff, accepts_readExact_iff, accepts_pure_iff] at h
      obtain ⟨⟨ip, hip⟩, mid, rfl, rfl, rfl⟩ := h
      match ip, hip with
      | [a, b, c, d], _ => exact ⟨[a, b, c, d], rfl, h1 ▸ .ipv4 ⟨a, b, c, d⟩⟩
    · simp only [accepts_bind_iff, accepts_readU8_iff, accepts_readExact_iff,
        accepts_pure_iff] at h
      obtain ⟨len, mid, rfl, ⟨host, hhost⟩, mid', rfl, rfl, rfl⟩ := h
      exact ⟨len :: host, rfl, h3 ▸ .domain hhost⟩
    · simp only [accepts_bind_iff, accepts_readExact_iff, accepts_pure_iff] at h
      obtain ⟨⟨ip, hip⟩, mid, rfl, rfl, rfl⟩ := h
      exact ⟨ip, rfl, h4 ▸ .ipv6 ⟨ip, hip⟩⟩
    · exact absurd h not_accepts_throw
  · rintro ⟨b, rfl, hb⟩
    exact (talks_readAddress hb).accepts unread

theorem exists_of_length_four {l : Bytes} (h : l.length = 4) :
    ∃ b₀ b₁ b₂ b₃, l = [b₀, b₁, b₂, b₃] := by
  match l, h with
  | [b₀, b₁, b₂, b₃], _ => exact ⟨b₀, b₁, b₂, b₃, rfl⟩

theorem accepts_readRequest_iff {req : Request} :
    Accepts (readRequest replace) s req unread ↔ ∃ cmd rsv atyp b,
      s = [VERSION, cmd, rsv, atyp] ++ (b ++ (u16ToBE req.port ++ unread)) ∧
      Cmd.tryFrom cmd = .ok req.cmd ∧ OnWire replace atyp b req.addr := by
  constructor
  · simp only [readRequest, readRequestBody, accepts_bind_iff (x := readExact 4),
      accepts_guard_iff, accepts_bind_iff (x := liftM _), accepts_bind_iff (x := readAddress _ _),
      accepts_bind_iff (x := readU16), accepts_readExact_iff, accepts_lift_iff,
      accepts_readAddress_iff, accepts_readU16_iff, accepts_pure_iff]
    rintro ⟨⟨hdr, hlen⟩, mid, rfl, hver, cmd, _, ⟨hcmd, rfl⟩, addr, _, ⟨b, rfl, hb⟩, port, _, rfl,
      rfl, rfl⟩
    obtain ⟨ver, cmd', rsv, atyp, rfl⟩ := exists_of_length_four hlen
    obtain rfl : ver = VERSION := not_not.mp hver
    exact ⟨cmd', rsv, atyp, b, rfl, hcmd, hb⟩
  · rintro ⟨cmd, rsv, atyp, b, rfl, hcmd, hb⟩
    have h := (talks_readRequest rsv req.port hcmd hb).accepts unread
    simp only [List.append_assoc] at h ⊢
    exact h

/-- The answer to a greeting, and the method that was chosen. -/
theorem accepts_choose_iff {method m : UInt8} :
    Accepts (do writeAll [VERSION, m]; return m : Sock UInt8) s method unread ↔
      method = m ∧ s = unread := by
  simp only [accepts_bind_iff, accepts_writeAll_iff, accepts_pure_iff]
  constructor
  · rintro ⟨_, mid, rfl, rfl, rfl⟩
    exact ⟨rfl, rfl⟩
  · rintro ⟨rfl, rfl⟩
    exact ⟨(), s, rfl, rfl, rfl⟩

/-- With authentication enabled, a greeting gets one of two methods. -/
theorem accepts_negotiateMethod_iff {method : UInt8} :
    Accepts (negotiateMethod true) s method unread ↔ ∃ n methods,
      s = [VERSION, n] ++ (methods ++ unread) ∧ methods.length = n.toNat ∧
      (METHOD_NO_AUTH ∈ methods ∧ method = METHOD_NO_AUTH ∨
        METHOD_NO_AUTH ∉ methods ∧ METHOD_USERPASS ∈ methods ∧ method = METHOD_USERPASS) := by
  simp only [negotiateMethod, accepts_bind_iff (x := readExact _), accepts_guard_iff,
    accepts_readExact_iff, true_and]
  constructor
  · rintro ⟨⟨hdr, hlen⟩, mid, rfl, hver, ⟨methods, hmethods⟩, mid', rfl, h⟩
    match hdr, hlen, hver, methods, hmethods, h with
    | [ver, n], _, hver, methods, hmethods, h =>
      obtain rfl : ver = VERSION := not_not.mp hver
      split_ifs at h with h0 h2
      · obtain ⟨rfl, rfl⟩ := accepts_choose_iff.mp h
        exact ⟨n, methods, rfl, hmethods, Or.inl ⟨h0, rfl⟩⟩
      · obtain ⟨rfl, rfl⟩ := accepts_choose_iff.mp h
        exact ⟨n, methods, rfl, hmethods, Or.inr ⟨h0, h2, rfl⟩⟩
      · obtain ⟨_, _, -, h⟩ := accepts_bind_iff.mp h
        exact absurd h not_accepts_throw
  · rintro ⟨n, methods, rfl, hmethods, h⟩
    refine ⟨⟨[VERSION, n], rfl⟩, _, rfl, not_not.mpr rfl, ⟨methods, hmethods⟩, _, rfl, ?_⟩
    rcases h with ⟨h0, rfl⟩ | ⟨h0, h2, rfl⟩
    · rw [if_pos h0]
      exact accepts_choose_iff.mpr ⟨rfl, rfl⟩
    · rw [if_neg h0, if_pos h2]
      exact accepts_choose_iff.mpr ⟨rfl, rfl⟩

theorem accepts_greeting {n : UInt8} {methods : Bytes} (hlen : methods.length = n.toNat)
    (h : METHOD_NO_AUTH ∈ methods ∨ METHOD_USERPASS ∈ methods) (unread : Bytes) :
    ∃ method, Accepts (negotiateMethod true) ([VERSION, n] ++ (methods ++ unread)) method
      unread := by
  by_cases h0 : METHOD_NO_AUTH ∈ methods
  · exact ⟨_, accepts_negotiateMethod_iff.mpr ⟨n, methods, rfl, hlen, Or.inl ⟨h0, rfl⟩⟩⟩
  · have h2 := h.resolve_left h0
    exact ⟨_, accepts_negotiateMethod_iff.mpr ⟨n, methods, rfl, hlen, Or.inr ⟨h0, h2, rfl⟩⟩⟩

end Acceptance

/-- Nothing is executed before the method was METHOD_USERPASS and a sub-negotiation was found to
be right. -/
def Authorized (log : List Deed) : Prop :=
  ∀ pre deed post, log = pre ++ deed :: post → deed.Executes →
    .selected METHOD_USERPASS ∈ pre ∧ ∃ username password, .verified username password ∈ pre

/-- The stream of a client that offers either method and then asks for something that can be
done: a CONNECT to a target that resolves, or a UDP ASSOCIATE while a socket can be bound. -/
def AsksToExecute (env : Env) (stream : Bytes) : Prop :=
  ∃ n methods cmd rsv atyp b addr port rest,
    stream = [VERSION, n] ++ (methods ++ ([VERSION, cmd, rsv, atyp] ++
      (b ++ (u16ToBE port ++ rest)))) ∧
    methods.length = n.toNat ∧ (METHOD_NO_AUTH ∈ methods ∨ METHOD_USERPASS ∈ methods) ∧
    OnWire env.replace atyp b addr ∧
    (cmd = 0x01 ∧ (∃ target, toSocketAddr env addr port = .ok target) ∨
      cmd = 0x03 ∧ env.bindUdp = .ok ())

theorem Request.deeds_ne_nil_iff (env : Env) (req : Request) :
    req.deeds env ≠ [] ↔
      req.cmd = .connect ∧ (∃ target, toSocketAddr env req.addr req.port = .ok target) ∨
        req.cmd = .udpAssociate ∧ env.bindUdp = .ok () := by
  unfold deeds
  cases req.cmd with
  | connect => cases toSocketAddr env req.addr req.port <;> simp
  | udpAssociate => simp
  | bind => simp

/-- What is done about a request is not one of the steps of a sub-negotiation. -/
theorem Request.executes_of_mem {env : Env} {req : Request} {deed : Deed}
    (h : deed ∈ req.deeds env) : deed.Executes := by
  unfold deeds at h
  split at h
  · split at h
    · rw [List.mem_singleton.mp h]
      trivial
    · cases h
  · split at h
    · rw [List.mem_singleton.mp h]
      trivial
    · cases h
  · cases h

theorem asksToExecute_iff (env : Env) (s : Bytes) :
    AsksToExecute env s ↔ ∃ method mid req rest, Accepts (negotiateMethod true) s method mid ∧
      Accepts (readRequest env.replace) mid req rest ∧ req.deeds env ≠ [] := by
  simp only [Request.deeds_ne_nil_iff]
  constructor
  · rintro ⟨n, methods, cmd, rsv, atyp, b, addr, port, rest, rfl, hlen, hoffer, hb, hcmd⟩
    obtain ⟨c, hc, hdone⟩ : ∃ c, Cmd.tryFrom cmd = .ok c ∧
        (c = .connect ∧ (∃ target, toSocketAddr env addr port = .ok target) ∨
          c = .udpAssociate ∧ env.bindUdp = .ok ()) := by
      rcases hcmd with ⟨rfl, htarget⟩ | ⟨rfl, hbind⟩
      · exact ⟨.connect, rfl, Or.inl ⟨rfl, htarget⟩⟩
      · exact ⟨.udpAssociate, rfl, Or.inr ⟨rfl, hbind⟩⟩
    have hreq : Accepts (readRequest env.replace) _ ⟨c, addr, port⟩ rest :=
      accepts_readRequest_iff.mpr ⟨cmd, rsv, atyp, b, rfl, hc, hb⟩
    obtain ⟨method, hneg⟩ := accepts_greeting hlen hoffer _
    exact ⟨method, _, _, rest, hneg, hreq, hdone⟩
  · rintro ⟨method, mid, req, rest, hneg, hreq, hdone⟩
    obtain ⟨n, methods, rfl, hlen, hmethod⟩ := accepts_negotiateMethod_iff.mp hneg
    obtain ⟨cmd, rsv, atyp, b, rfl, hc, hb⟩ := accepts_readRequest_iff.mp hreq
    refine ⟨n, methods, cmd, rsv, atyp, b, req.addr, req.port, rest, rfl, hlen, ?_, hb, ?_⟩
    · rcases hmethod with ⟨h0, -⟩ | ⟨-, h2, -⟩
      · exact Or.inl h0
      · exact Or.inr h2
    · rcases Cmd.tryFrom_cases cmd with ⟨rfl, hc'⟩ | ⟨rfl, hc'⟩ | ⟨rfl, hc'⟩ | ⟨-, hc'⟩ <;>
        rw [hc'] at hc
      · simpa [← Except.ok.inj hc] using hdone
      · simp [← Except.ok.inj hc] at hdone
      · simpa [← Except.ok.inj hc] using hdone
      · cases hc

/-- A server with authentication enabled keeps its promise exactly to the clients that do not ask
it for anything it could do. -/
theorem authorized_iff (env : Env) (stream : Bytes) :
    Authorized (log env true stream) ↔ ¬AsksToExecute env stream := by
  rw [asksToExecute_iff]
  constructor
  · rintro h ⟨method, mid, req, rest, hneg, hreq, hdone⟩
    obtain ⟨deed, deeds, hdeeds⟩ := List.exists_cons_of_ne_nil hdone
    have hlog : log env true stream = [.selected method] ++ deed :: deeds := by
      rw [log_served hneg hreq, hdeeds]
      rfl
    have hexec := Request.executes_of_mem (hdeeds ▸ List.mem_cons_self)
    obtain ⟨-, username, password, hver⟩ := h _ _ _ hlog hexec
    cases List.mem_singleton.mp hver
  · intro hno pre deed post hlog hexec
    have hmem : deed ∈ log env true stream := by
      rw [hlog]
      exact List.mem_append_right _ List.mem_cons_self
    obtain ⟨deeds, hlogs, hcases⟩ := logs_handleConnection env true stream
    rw [hlogs.log_eq] at hmem
    -- only a method was selected, or nothing could be done about the request
    have hselected : ∃ method, deed = .selected method := by
      rcases hcases with rfl | ⟨method, rfl⟩ | ⟨method, mid, req, rest, hneg, hreq, rfl⟩
      · cases hmem
      · exact ⟨method, List.mem_singleton.mp hmem⟩
      · have hnil : req.deeds env = [] := by
          by_contra hdone
          exact hno ⟨method, mid, req, rest, hneg, hreq, hdone⟩
        rw [hnil] at hmem
        exact ⟨method, List.mem_singleton.mp hmem⟩
    obtain ⟨method, rfl⟩ := hselected
    exact hexec.elim

/-- A client that offers to go without authentication and one that offers METHOD_USERPASS only:
both get their CONNECT with nothing asked in between. -/
theorem connects_unauthenticated :
    log exampleEnv true [5, 1, 0, 5, 1, 0, 1, 93, 184, 216, 34, 1, 187] =
      [.selected METHOD_NO_AUTH, .connect (.v4 ⟨93, 184, 216, 34⟩ 443)] ∧
    log exampleEnv true [5, 1, 2, 5, 1, 0, 1, 93, 184, 216, 34, 1, 187] =
      [.selected METHOD_USERPASS, .connect (.v4 ⟨93, 184, 216, 34⟩ 443)] ∧
    (∃ ys, (handleConnection exampleEnv true).run.run
      [5, 1, 0, 5, 1, 0, 1, 93, 184, 216, 34, 1, 187] =
        (.ok (.relay (.v4 ⟨93, 184, 216, 34⟩ 443)), ys, [])) ∧
    ¬Authorized (log exampleEnv true [5, 1, 0, 5, 1, 0, 1, 93, 184, 216, 34, 1, 187]) ∧
    ¬Authorized (log exampleEnv true [5, 1, 2, 5, 1, 0, 1, 93, 184, 216, 34, 1, 187]) := by
  have hunverified (method : UInt8) (target : SocketAddr) :
      ¬Authorized [.selected method, .connect target] := by
    intro h
    obtain ⟨-, username, password, hver⟩ := h [.selected method] (.connect target) [] rfl trivial
    cases List.mem_singleton.mp hver
  exact ⟨rfl, rfl, ⟨_, rfl⟩, hunverified _ _, hunverified _ _⟩

end GravitalShare.Socks
