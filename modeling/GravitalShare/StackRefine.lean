import GravitalShare.StackWorld

/-! Two links between the views of the stack: the code of `poll` is a run of the transition
system, and every run of the system is, for each connection, a run of that connection. -/
namespace GravitalShare.Stack

section Poll

/-- Taking in a packet concerns neither of the two queues of the TUN device. -/
theorem Inner.processInbound_queues {alloc : Allocator} {s s' : Inner} {raw : Bytes}
    (hs : s.Wf) (h : processInbound alloc s raw = .ok s') :
    s'.tunTx = s.tunTx ∧ s'.tunRx = s.tunRx := by
  obtain ⟨rfl, -⟩ | ⟨nat, -, -, _, rfl⟩ | ⟨vp, pkt, -, -, -, rfl⟩ |
      ⟨nat, vp, pkt, _, _, hins, _, rfl⟩ :=
    processInbound_cases h
  · exact ⟨rfl, rfl⟩
  · exact ⟨rfl, rfl⟩
  · exact ⟨rfl, rfl⟩
  · have hr := (NatTable.insert_some hs.nat hins).2.2.2
    show (admitted alloc s nat vp (dstEndpoint raw)).tunTx = s.tunTx ∧
      (admitted alloc s nat vp (dstEndpoint raw)).tunRx = s.tunRx
    rcases admitted_cases alloc s nat (dstEndpoint raw) hr.ne_zero with hsame | ho
    · rw [hsame]
      exact ⟨rfl, rfl⟩
    · exact ho.queues

variable (alloc : Allocator) (relays : List VirtualConnection)

theorem ingestLoop_run {rx : List Bytes} {s s' : Inner} (hs : s.Wf) (hrx : s.tunRx = rx)
    (h : Inner.ingestLoop alloc rx s = .ok s') :
    s'.tunRx = [] ∧ s'.Wf ∧
      ∃ tr, Run (Step alloc) ⟨s, .ingest, relays⟩ tr ⟨s', .ingest, relays⟩ := by
  induction rx generalizing s with
  | nil =>
    obtain rfl := Except.ok.inj h
    exact ⟨hrx, hs, [], Run.nil⟩
  | cons raw rest ih =>
    obtain ⟨t, hproc, hloop⟩ := Exec.bind_eq_ok.mp h
    have hpop := hs.frame (Inner.Frame.popRx s rest)
    have hstep : Step alloc ⟨s, .ingest, relays⟩ (.ingest raw) ⟨t, .ingest, relays⟩ :=
      .ingest hrx hproc
    obtain ⟨hnil, hwf, tr, hrun⟩ := ih (hpop.processInbound hproc)
      (Inner.processInbound_queues hpop hproc).2 hloop
    exact ⟨hnil, hwf, _, (Run.single hstep).append hrun⟩

section Service

variable {s : Inner} {handle : SocketHandle} (rest : List SocketHandle) {remote : SocketAddr}
  {peer : VirtualConnectionPeer} (ha : s.active.lookup handle = some (remote, peer))
include ha

/-- A step of `service_socket`, taken by the poll that serves the socket. -/
theorem lift_service_step {c c' : Conn} {a : ServiceAct} (h : ServiceStep c a c') :
    Step alloc ⟨(s.setSocket handle c.sock).setLink peer.link c.link,
        .serve c.phase (handle :: rest), relays⟩ (.service handle a)
      ⟨(s.setSocket handle c'.sock).setLink peer.link c'.link, .next c'.phase handle rest,
        relays⟩ := by
  have hlink : ((s.setSocket handle c.sock).setLink peer.link c.link).links peer.link = c.link :=
    Function.update_self _ _ _
  have hstep : Step alloc ⟨(s.setSocket handle c.sock).setLink peer.link c.link,
      .serve c.phase (handle :: rest), relays⟩ (.service handle a) _ :=
    .service (Finmap.lookup_insert _) ha (by rw [hlink]; exact h)
  -- the second update of each table overwrites the first
  have hmerge : (((s.setSocket handle c.sock).setLink peer.link c.link).setSocket handle
      c'.sock).setLink peer.link c'.link =
      (s.setSocket handle c'.sock).setLink peer.link c'.link := by
    simp only [Inner.setSocket, Inner.setLink, Finmap.insert_insert, Function.update_idem]
  rwa [hmerge] at hstep

theorem lift_service {c c' : Conn} {ctr : List (Conn × ServiceAct)}
    (hrun : Run ServiceInside c ctr c') :
    ∃ tr, Run (Step alloc) ⟨(s.setSocket handle c.sock).setLink peer.link c.link,
        .serve c.phase (handle :: rest), relays⟩ tr
      ⟨(s.setSocket handle c'.sock).setLink peer.link c'.link,
        .serve c'.phase (handle :: rest), relays⟩ := by
  induction hrun with
  | nil => exact ⟨[], Run.nil⟩
  | snoc _ hstep ih =>
    obtain ⟨tr, hrun⟩ := ih
    have hnext := lift_service_step alloc relays rest ha hstep.1
    rw [Pc.next, if_neg hstep.2] at hnext
    exact ⟨_, hrun.snoc hnext⟩

theorem serviceSocket_run {sock : TcpSocket} (contig : ℕ)
    (hs : s.sockets.lookup handle = some sock) (hg : sock.isGone = false) :
    ∃ tr, Run (Step alloc) ⟨s, .serve .idle (handle :: rest), relays⟩ tr
      ⟨(s.setSocket handle (serviceLink contig sock (s.links peer.link)).1).setLink peer.link
        (serviceLink contig sock (s.links peer.link)).2, .serve .idle rest, relays⟩ := by
  -- the service starts from the socket and the link of the state itself
  have hsame : (s.setSocket handle sock).setLink peer.link (s.links peer.link) = s := by
    have hins : s.sockets.insert handle sock = s.sockets := by
      apply Finmap.ext_lookup
      intro h
      rw [Table.lookup_insert_eq]
      split_ifs with hh
      · rw [hh, hs]
      · rfl
    simp only [Inner.setSocket, Inner.setLink, hins, Function.update_eq_self]
  obtain ⟨ctr, c, hinside, hfinish⟩ := serviceLink_run contig sock (s.links peer.link) hg
  obtain ⟨tr, hrun⟩ := lift_service alloc relays rest ha hinside
  have hlast := lift_service_step alloc relays rest ha hfinish
  rw [hsame] at hrun
  exact ⟨_, hrun.snoc hlast⟩

end Service

theorem serviceLoop_run {contig : SocketHandle → ℕ} {order : List SocketHandle}
    {more more' : Bool} {s s' : Inner}
    (h : Inner.serviceLoop contig order more s = .ok (more', s')) :
    ∃ tr, Run (Step alloc) ⟨s, .serve .idle order, relays⟩ tr ⟨s', .serve .idle [], relays⟩ := by
  induction order generalizing s more with
  | nil =>
    obtain ⟨-, rfl⟩ := Prod.mk.inj (Except.ok.inj h)
    exact ⟨[], Run.nil⟩
  | cons handle rest ih =>
    obtain ⟨⟨closed, t⟩, hserve, hrest⟩ := Exec.bind_eq_ok.mp h
    obtain ⟨sock, hs, ⟨hc, rfl, hgone⟩ | ⟨hc, hg, remote, peer, ha, rfl⟩⟩ :=
      Inner.serviceSocket_cases hserve
    · -- the socket is gone and has an entry, or `closeSocket` would have panicked
      simp only [hc, ↓reduceIte] at hrest
      obtain ⟨u, hclose, hloop⟩ := Exec.bind_eq_ok.mp hrest
      obtain ⟨remote, peer, ha, -⟩ := Inner.closeSocket_ok hclose
      have hg : sock.isGone = true :=
        hgone.resolve_right fun hn => Option.some_ne_none _ (ha.symm.trans hn)
      obtain ⟨tr, hrun⟩ := ih hloop
      exact ⟨_, (Run.single (Step.close hs hg hclose)).append hrun⟩
    · simp only [hc, Bool.false_eq_true, ↓reduceIte] at hrest
      obtain ⟨tr, hrun⟩ := ih hrest
      obtain ⟨tr', hrun'⟩ := serviceSocket_run alloc relays rest ha (contig handle) hs hg
      exact ⟨_, hrun'.append hrun⟩

theorem drainLoop_run {tx out : List Bytes} {s : Inner} (htx : s.device.tx = tx)
    (h : Inner.drainLoop s.nat tx s.tunTx = .ok out) :
    ∃ tr, Run (Step alloc) ⟨s, .drain, relays⟩ tr
      ⟨{ s with tunTx := out, device := { s.device with tx := [] } }, .drain, relays⟩ := by
  induction tx generalizing s with
  | nil =>
    obtain rfl := Except.ok.inj h
    rw [← htx]
    exact ⟨[], Run.nil⟩
  | cons pkt rest ih =>
    obtain ⟨fwd, hfwd, hloop⟩ := Exec.bind_eq_ok.mp h
    have hstep : Step alloc ⟨s, .drain, relays⟩ _ _ := .forward htx hfwd
    obtain ⟨tr, hrun⟩ := ih (s := { s with
      tunTx := s.tunTx ++ fwd.toList, device := { s.device with tx := rest } }) rfl hloop
    exact ⟨_, (Run.single hstep).append hrun⟩

/-- The code of `poll` takes the stack where one poll of the system takes it. -/
theorem poll_run {env : Inner.PollEnv} {s s' : Inner} {more : Bool} (hs : s.Wf)
    (hfit : ∀ mid, Inner.ingestLoop alloc s.tunRx s = .ok mid → env.Fits mid)
    (h : Inner.poll alloc env s = .ok (more, s')) :
    ∃ tr, Run (Step alloc) ⟨s, .idle, relays⟩ tr ⟨s', .idle, relays⟩ := by
  obtain ⟨mid, hingest, h⟩ := Exec.bind_eq_ok.mp h
  obtain ⟨⟨more', t⟩, hserve, h⟩ := Exec.bind_eq_ok.mp h
  obtain ⟨out, hdrain, h⟩ := Exec.bind_eq_ok.mp h
  obtain ⟨-, rfl⟩ := Prod.mk.inj (Except.ok.inj h)
  obtain ⟨hnil, -, tr1, hrun1⟩ := ingestLoop_run alloc relays hs rfl hingest
  obtain ⟨tr2, hrun2⟩ := serviceLoop_run alloc relays hserve
  obtain ⟨tr3, hrun3⟩ := drainLoop_run alloc relays rfl hdrain
  have hbegin : Step alloc ⟨s, .idle, relays⟩ .beginPoll ⟨s, .ingest, relays⟩ := .beginPoll
  have hsmol : Step alloc ⟨mid, .ingest, relays⟩ _ _ := .smoltcp hnil (hfit mid hingest)
  exact ⟨_, (((((Run.single hbegin).append hrun1).snoc hsmol).append hrun2).snoc
    .endService).append hrun3 |>.snoc (.endPoll rfl)⟩

end Poll

/-- Where the poll stands in the servicing of this socket. -/
def Pc.phaseOf (handle : SocketHandle) : Pc → Phase
  | .serve phase (h :: _) => if h = handle then phase else .idle
  | _ => .idle

theorem Pc.phaseOf_idle (handle : SocketHandle) (rest : List SocketHandle) :
    phaseOf handle (.serve .idle rest) = .idle := by
  cases rest with
  | nil => rfl
  | cons h rest => exact ite_self _

theorem Pc.phaseOf_next (phase : Phase) (handle : SocketHandle) (rest : List SocketHandle) :
    phaseOf handle (.next phase handle rest) = phase := by
  unfold next
  split_ifs with hp
  · rw [hp, phaseOf_idle]
  · exact if_pos rfl

theorem Pc.phaseOf_next_of_ne {phase : Phase} {handle h : SocketHandle}
    {rest : List SocketHandle} (hne : handle ≠ h) :
    phaseOf h (.next phase handle rest) = .idle := by
  unfold next
  split_ifs with hp
  · rw [hp, phaseOf_idle]
  · exact if_neg hne

/-- The connection behind an active socket. -/
structure IsConn (w : World) (handle : SocketHandle) (remote : SocketAddr) (c : Conn) : Prop where
  entry : ∃ peer, w.inner.active.lookup handle = some (remote, peer) ∧
    c.link = w.inner.links peer.link
  sock : w.inner.sockets.lookup handle = some c.sock
  phase : c.phase = w.pc.phaseOf handle

/-- Reached by the steps of a connection that was created for `remote`. -/
def ConnReachable (remote : SocketAddr) (c : Conn) : Prop :=
  ∃ vport tr, Run ConnStep (Conn.fresh ifaceIp vport remote) tr c

section Projection

variable {alloc : Allocator} {w w' : World} {a : Act}

theorem IsConn.carry {handle : SocketHandle} {remote : SocketAddr} {c : Conn}
    (hc : IsConn w' handle remote c)
    (ha : w'.inner.active.lookup handle = w.inner.active.lookup handle)
    (hs : w'.inner.sockets.lookup handle = w.inner.sockets.lookup handle)
    (hl : ∀ peer, w.inner.active.lookup handle = some (remote, peer) →
      w'.inner.links peer.link = w.inner.links peer.link)
    (hp : w'.pc.phaseOf handle = w.pc.phaseOf handle) : IsConn w handle remote c := by
  obtain ⟨peer, he, hlink⟩ := hc.entry
  rw [ha] at he
  exact ⟨⟨peer, he, hlink.trans (hl peer he)⟩, hs ▸ hc.sock, hc.phase.trans hp⟩

/-- A connection right after `create_listener`. -/
theorem connReachable_of_opened {s s' : Inner} {handle : SocketHandle} {vport : UInt16}
    {remote : SocketAddr} (ho : Inner.Opened s s' handle vport remote) :
    ConnReachable remote
      ⟨⟨.listen, some (ifaceIp, vport), [], []⟩, s'.links s.made, .idle⟩ := by
  rcases ho.link with hl | hl
  · rw [hl]
    exact ⟨vport, [], Run.nil⟩
  · -- the connection overflowed `pending` and lost its far end at once
    rw [hl]
    have hrx : ConnStep (Conn.fresh ifaceIp vport remote) (.relay .dropRx) _ := .relay .dropRx
    exact ⟨vport, _, (Run.single hrx).snoc (.relay .dropTx)⟩

theorem project_opened {s s' : Inner} {relays : List VirtualConnection}
    {handle new : SocketHandle} {vport : UInt16} {remote dst : SocketAddr} {c : Conn} (hw : s.Wf)
    (ho : Inner.Opened s s' new vport dst) (hc : IsConn ⟨s', .ingest, relays⟩ handle remote c) :
    ConnReachable remote c ∨ IsConn ⟨s, .ingest, relays⟩ handle remote c := by
  obtain ⟨sock, link, phase⟩ := c
  rcases eq_or_ne handle new with rfl | hne
  · -- this is the connection that was just made
    left
    obtain ⟨peer, he, rfl⟩ := hc.entry
    have hentry : some (remote, peer) = some (dst, ⟨s.made⟩) := by
      calc
        _ = s'.active.lookup handle := he.symm
        _ = some (dst, ⟨s.made⟩) := by rw [ho.active, Finmap.lookup_insert]
    have hsock : some sock = some ⟨.listen, some (ifaceIp, vport), [], []⟩ := by
      calc
        _ = s'.sockets.lookup handle := hc.sock.symm
        _ = _ := by rw [ho.sockets, Finmap.lookup_insert]
    obtain ⟨rfl, rfl⟩ := Prod.mk.inj (Option.some.inj hentry)
    obtain rfl := Option.some.inj hsock
    obtain rfl : phase = .idle := hc.phase
    exact connReachable_of_opened ho
  · right
    have ha : s'.active.lookup handle = s.active.lookup handle := by
      rw [ho.active, Finmap.lookup_insert_of_ne _ hne]
    have hs : s'.sockets.lookup handle = s.sockets.lookup handle := by
      rw [ho.sockets, Finmap.lookup_insert_of_ne _ hne]
    exact hc.carry ha hs (fun peer he => ho.links _ (Nat.ne_of_lt (hw.made _ _ he))) rfl

theorem project_smoltcp {s : Inner} {relays : List VirtualConnection} {env : Inner.PollEnv}
    {handle : SocketHandle} {remote : SocketAddr} {c : Conn} (hfit : env.Fits s)
    (hc : IsConn ⟨s.drive env, .serve .idle env.order, relays⟩ handle remote c) :
    ∃ sock, IsConn ⟨s, .ingest, relays⟩ handle remote ⟨sock, c.link, .idle⟩ ∧
      ConnStep ⟨sock, c.link, .idle⟩ (.smoltcp c.sock) c := by
  obtain ⟨sock, link, phase⟩ := c
  obtain rfl : phase = .idle := hc.phase.trans (Pc.phaseOf_idle handle env.order)
  have hmem : handle ∈ s.sockets :=
    (hfit.handles handle).mp (Finmap.mem_of_lookup_eq_some hc.sock)
  obtain ⟨sock0, hs⟩ := Finmap.mem_iff.mp hmem
  exact ⟨sock0, ⟨hc.entry, hs, rfl⟩, .smoltcp sock⟩

theorem project_service {s : Inner} {relays : List VirtualConnection}
    {handle served : SocketHandle} {rest : List SocketHandle} {sock : TcpSocket}
    {remote dst : SocketAddr} {peer : VirtualConnectionPeer} {phase : Phase} {act : ServiceAct}
    {c d : Conn} (hw : s.Wf) (hs : s.sockets.lookup served = some sock)
    (ha : s.active.lookup served = some (dst, peer))
    (h : ServiceStep ⟨sock, s.links peer.link, phase⟩ act d)
    (hc : IsConn ⟨(s.setSocket served d.sock).setLink peer.link d.link,
      .next d.phase served rest, relays⟩ handle remote c) :
    ∃ c0, IsConn ⟨s, .serve phase (served :: rest), relays⟩ handle remote c0 ∧
      (c = c0 ∨ ∃ act, ConnStep c0 act c) := by
  -- the socket under service makes the step, the others have other links
  rcases eq_or_ne served handle with rfl | hne
  · obtain ⟨peer', he, hlink⟩ := hc.entry
    obtain ⟨rfl, rfl⟩ := Prod.mk.inj (Option.some.inj (ha.symm.trans he))
    have hcd : c = d := by
      have hsock : d.sock = c.sock :=
        Option.some.inj ((Finmap.lookup_insert _).symm.trans hc.sock)
      have hl : c.link = d.link := hlink.trans (Function.update_self _ _ _)
      have hp : c.phase = d.phase := hc.phase.trans (Pc.phaseOf_next _ _ _)
      exact Conn.ext hsock.symm hl hp
    rw [hcd]
    exact ⟨⟨sock, s.links peer.link, phase⟩, ⟨⟨peer, ha, rfl⟩, hs, (if_pos rfl).symm⟩,
      Or.inr ⟨.poll act, .poll h⟩⟩
  · refine ⟨c, hc.carry rfl (Finmap.lookup_insert_of_ne _ hne.symm) (?_) ?_,
      Or.inl rfl⟩
    · intro peer' he
      exact Function.update_of_ne (fun heq => hne (hw.own _ _ _ _ ha he heq.symm)) _ _
    · exact (Pc.phaseOf_next_of_ne hne).trans (if_neg hne).symm

theorem project_close {s s' : Inner} {relays : List VirtualConnection}
    {handle closed : SocketHandle} {rest : List SocketHandle} {remote : SocketAddr} {c : Conn}
    (hw : s.Wf) (h : s.closeSocket closed = .ok s')
    (hc : IsConn ⟨s', .serve .idle rest, relays⟩ handle remote c) :
    IsConn ⟨s, .serve .idle (closed :: rest), relays⟩ handle remote c := by
  obtain ⟨dst, peer, ha, rfl⟩ := Inner.closeSocket_ok h
  obtain ⟨peer', he, -⟩ := hc.entry
  -- the removed socket is not among the active ones
  have hne : handle ≠ closed := by
    rintro rfl
    exact absurd (he.symm.trans (Finmap.lookup_erase _ _)) (Option.some_ne_none _)
  refine hc.carry (Finmap.lookup_erase_ne hne) (Finmap.lookup_erase_ne hne) (?_) ?_
  · intro p hp
    exact Function.update_of_ne (fun heq => hne (hw.own _ _ _ _ hp ha heq)) _ _
  · exact (Pc.phaseOf_idle _ _).trans (Pc.phaseOf_idle _ _).symm

theorem project_relay {s : Inner} {pc : Pc} {relays : List VirtualConnection} {id : ℕ}
    {link : Link} {act : RelayAct} {handle : SocketHandle} {remote : SocketAddr} {c : Conn}
    (h : RelayStep (s.links id) act link)
    (hc : IsConn ⟨s.setLink id link, pc, relays⟩ handle remote c) :
    ∃ c0, IsConn ⟨s, pc, relays⟩ handle remote c0 ∧ (c = c0 ∨ ∃ act, ConnStep c0 act c) := by
  obtain ⟨sock, l, phase⟩ := c
  obtain ⟨peer, he, rfl⟩ := hc.entry
  rcases eq_or_ne peer.link id with rfl | hne
  · refine ⟨⟨sock, s.links peer.link, phase⟩, ⟨⟨peer, he, rfl⟩, hc.sock, hc.phase⟩,
      Or.inr ⟨.relay act, ?_⟩⟩
    show ConnStep _ _ ⟨sock, Function.update s.links peer.link link peer.link, phase⟩
    rw [Function.update_self]
    exact .relay h
  · refine ⟨_, hc.carry rfl rfl (?_) rfl, Or.inl rfl⟩
    intro p hp
    obtain ⟨-, rfl⟩ := Prod.mk.inj (Option.some.inj (he.symm.trans hp))
    exact Function.update_of_ne hne _ _

/-- One step of the stack is, for every connection it leaves active, the creation of that
connection, a step of it, or nothing. -/
theorem Step.project (hw : w.inner.Wf) (h : Step alloc w a w') {handle : SocketHandle}
    {remote : SocketAddr} {c' : Conn} (hc : IsConn w' handle remote c') :
    ConnReachable remote c' ∨
      ∃ c, IsConn w handle remote c ∧ (c' = c ∨ ∃ act, ConnStep c act c') := by
  cases h with
  | @ingest s s' relays raw rest hq h =>
    obtain ⟨rfl, -⟩ | ⟨nat, -, -, -, rfl⟩ | ⟨vp, pkt, -, -, -, rfl⟩ |
        ⟨nat, vp, pkt, -, -, hins, -, rfl⟩ :=
      Inner.processInbound_cases h
    · exact Or.inr ⟨c', hc.carry rfl rfl (fun _ _ => rfl) rfl, Or.inl rfl⟩
    · exact Or.inr ⟨c', hc.carry rfl rfl (fun _ _ => rfl) rfl, Or.inl rfl⟩
    · exact Or.inr ⟨c', hc.carry rfl rfl (fun _ _ => rfl) rfl, Or.inl rfl⟩
    · obtain ⟨hv, hext, -, hr⟩ := NatTable.insert_some hw.nat hins
      -- the push to the device touches none of the three tables
      have hc' : IsConn ⟨Inner.admitted alloc { s with tunRx := rest } nat vp (dstEndpoint raw),
          .ingest, relays⟩ handle remote c' := ⟨hc.entry, hc.sock, hc.phase⟩
      rcases Inner.admitted_cases alloc { s with tunRx := rest } nat (dstEndpoint raw)
        hr.ne_zero with hsame | ho
      · rw [hsame] at hc'
        exact Or.inr ⟨c', hc'.carry rfl rfl (fun _ _ => rfl) rfl, Or.inl rfl⟩
      · have hw' := (hw.frame (Inner.Frame.popRx s rest)).setNat hv hext
        rcases project_opened hw' ho hc' with hnew | hold
        · exact Or.inl hnew
        · exact Or.inr ⟨c', hold.carry rfl rfl (fun _ _ => rfl) rfl, Or.inl rfl⟩
  | smoltcp hq hfit =>
    obtain ⟨sock, hold, hstep⟩ := project_smoltcp hfit hc
    exact Or.inr ⟨_, hold, Or.inr ⟨_, hstep⟩⟩
  | service hs ha h => exact Or.inr (project_service hw hs ha h hc)
  | close hs hg h => exact Or.inr ⟨c', project_close hw h hc, Or.inl rfl⟩
  | relay hm h => exact Or.inr (project_relay h hc)
  | _ => exact Or.inr ⟨c', hc.carry rfl rfl (fun _ _ => rfl) rfl, Or.inl rfl⟩

/-- Whatever holds along the runs of one connection holds of every active connection of
the stack. -/
theorem Reachable.conn {handle : SocketHandle} {remote : SocketAddr} {c : Conn}
    (hw : Reachable alloc w) (hc : IsConn w handle remote c) : ConnReachable remote c := by
  obtain ⟨mtu, tr, hrun⟩ := hw
  -- the tables go along in the invariant, since they keep the links apart
  have key : w.inner.Wf ∧ ∀ handle remote c, IsConn w handle remote c → ConnReachable remote c := by
    refine hrun.invariant (fun w => w.inner.Wf ∧
      ∀ handle remote c, IsConn w handle remote c → ConnReachable remote c) ?_ ?_
    · refine ⟨Inner.wf_new mtu, ?_⟩
      intro handle remote c hc
      obtain ⟨peer, he, -⟩ := hc.entry
      simp [World.init, Inner.new] at he
    · intro u a u' hu hs
      refine ⟨hs.wf hu.1, ?_⟩
      intro handle remote c hc
      obtain hnew | ⟨c0, hold, rfl | ⟨act, hstep⟩⟩ := hs.project hu.1 hc
      · exact hnew
      · exact hu.2 _ _ _ hold
      · obtain ⟨vport, tr, hrun⟩ := hu.2 _ _ _ hold
        exact ⟨vport, _, hrun.snoc hstep⟩
  exact key.2 handle remote c hc

end Projection

end GravitalShare.Stack
