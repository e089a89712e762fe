import GravitalShare.StackBacklog
import GravitalShare.StackHandles
import GravitalShare.StackHostile
import GravitalShare.StackOutbound
import Mathlib.Data.Prod.Lex
import Mathlib.Order.WellFounded

/-! A poll comes to its end. It holds the lock of the stack, and the relay tasks may send as fast
as they can while it takes their chunks; what stops it is the size of the transmit buffer. -/
namespace GravitalShare.Stack

def Act.isRelay : Act → Bool
  | .relay _ _ => true
  | _ => false

/-- No chunk on its way to the app is empty. -/
def Inner.Laden (s : Inner) : Prop := ∀ id, ∀ chunk ∈ (s.links id).down.queue, chunk ≠ []

/-- What is left to do for the socket under service. -/
def serviceWork (sock : TcpSocket) : Phase → ℕ
  | .idle => sockBuf+4
  | .sending => sock.free+2
  | .closing => 1

theorem TcpSocket.free_le (sock : TcpSocket) : sock.free ≤ sockBuf := Nat.sub_le _ _

/-- A chunk that is taken makes the transmit buffer fuller. -/
theorem TcpSocket.free_sendSlice {sock : TcpSocket} (h : sock.canSend = true) {data : Bytes}
    (hd : data ≠ []) : (sock.sendSlice data).free < sock.free := by
  simp only [canSend, Bool.decide_and, Bool.and_eq_true, decide_eq_true_eq] at h
  obtain ⟨hmay, hroom⟩ := h
  have hpos := List.length_pos_iff.mpr hd
  have hfree : 0 < sock.free := Nat.sub_pos_of_lt hroom
  simp only [sendSlice, hmay, if_true]
  simp only [free, List.length_append, List.length_take] at hfree ⊢
  omega

theorem ServiceStep.work_lt {c c' : Conn} {a : ServiceAct} (h : ServiceStep c a c')
    (hladen : ∀ chunk ∈ c.link.down.queue, chunk ≠ []) :
    (c'.phase = .idle ∧ 0 < serviceWork c.sock c.phase) ∨
      (c'.phase ≠ .idle ∧ serviceWork c'.sock c'.phase < serviceWork c.sock c.phase) := by
  cases h with
  | @drain sock link contig hg =>
    have hfree := (drainRecv contig sock link.up).1.free_le
    refine Or.inr ⟨Phase.noConfusion, ?_⟩
    simp only [serviceWork]
    omega
  | @sendTurn sock sock' link down ht =>
    obtain ⟨data, hcan, hrecv, rfl⟩ := sendTurn_eq_some ht
    have hdata : data ≠ [] := by
      apply hladen
      rw [(Chan.tryRecv_eq_some hrecv).1]
      exact List.mem_cons_self
    refine Or.inr ⟨Phase.noConfusion, ?_⟩
    exact Nat.add_lt_add_right (TcpSocket.free_sendSlice hcan hdata) 2
  | leaveLoop =>
    refine Or.inr ⟨Phase.noConfusion, ?_⟩
    simp only [serviceWork]
    omega
  | finish => exact Or.inl ⟨rfl, Nat.one_pos⟩

def serveWork (s : Inner) (phase : Phase) : List SocketHandle → ℕ
  | [] => 0
  | handle :: rest =>
    serviceWork ((s.sockets.lookup handle).getD TcpSocket.new) phase+rest.length*(sockBuf+4)

/-- What a poll has left to do. Before smoltcp has run, nobody knows what it will have to send. -/
def World.pollWork (w : World) : ℕ ×ₗ ℕ :=
  match w.pc with
  | .idle => toLex (0, 0)
  | .ingest => toLex (1, w.inner.tunRx.length)
  | .serve phase order => toLex (0, serveWork w.inner phase order+w.inner.device.tx.length+2)
  | .drain => toLex (0, w.inner.device.tx.length+1)

theorem serveWork_idle (s : Inner) (order : List SocketHandle) :
    serveWork s .idle order = order.length*(sockBuf+4) := by
  cases order with
  | nil => exact (Nat.zero_mul _).symm
  | cons handle rest =>
    simp only [serveWork, serviceWork, List.length_cons]
    rw [Nat.succ_mul, Nat.add_comm]

section Steps

variable {alloc : Allocator} {w w' : World} {a : Act}

theorem lex_lt {m n : ℕ} (h : n < m) : toLex ((0 : ℕ), n) < toLex (0, m) :=
  Prod.Lex.toLex_lt_toLex.mpr (Or.inr ⟨rfl, h⟩)

/-- Everything a poll does brings it nearer to its end. -/
theorem Step.pollWork_lt (hw : w.inner.Wf) (hladen : w.inner.Laden) (hpc : w.pc ≠ .idle)
    (ha : a.isRelay = false) (h : Step alloc w a w') : w'.pollWork < w.pollWork := by
  cases h with
  | feedInbound | drainOutbound | accept | beginPoll => exact absurd rfl hpc
  | relay => cases ha
  | @ingest s s' relays raw rest hq hproc =>
    have hrx := (Inner.processInbound_queues (hw.frame (Inner.Frame.popRx s rest)) hproc).2
    refine Prod.Lex.toLex_lt_toLex.mpr (Or.inr ⟨rfl, ?_⟩)
    show s'.tunRx.length < s.tunRx.length
    rw [hrx, hq]
    exact Nat.lt_succ_self _
  | smoltcp => exact Prod.Lex.toLex_lt_toLex.mpr (Or.inl Nat.one_pos)
  | @service s relays handle rest sock remote peer phase act c hs hact hstep =>
    have hbefore : serveWork s phase (handle :: rest) =
        serviceWork sock phase+rest.length*(sockBuf+4) := by
      simp only [serveWork, hs, Option.getD_some]
    have hwork : (c.phase = .idle ∧ 0 < serviceWork sock phase) ∨
        (c.phase ≠ .idle ∧ serviceWork c.sock c.phase < serviceWork sock phase) :=
      hstep.work_lt (hladen peer.link)
    rcases hwork with ⟨hidle, hpos⟩ | ⟨hmid, hlt⟩
    · rw [Pc.next, if_pos hidle, hidle]
      apply lex_lt
      rw [serveWork_idle, hbefore]
      simp only [Inner.setLink, Inner.setSocket]
      omega
    · rw [Pc.next, if_neg hmid]
      apply lex_lt
      rw [hbefore]
      simp only [serveWork, Inner.setLink, Inner.setSocket, Finmap.lookup_insert,
        Option.getD_some]
      omega
  | @close s s' relays handle rest sock hs hg hclose =>
    obtain ⟨remote, peer, -, rfl⟩ := Inner.closeSocket_ok hclose
    apply lex_lt
    simp only [serveWork_idle, List.length_cons]
    have hmore := Nat.add_one_mul rest.length (sockBuf+4)
    omega
  | endService => exact lex_lt (by simp only [serveWork]; omega)
  | @forward s relays pkt rest out hq hfwd =>
    apply lex_lt
    show rest.length+1 < s.device.tx.length+1
    rw [hq]
    exact Nat.lt_succ_self _
  | endPoll => exact lex_lt (Nat.succ_pos _)

theorem Step.pollWork_relay (ha : a.isRelay = true) (h : Step alloc w a w') :
    w'.pollWork = w.pollWork := by
  cases h with
  | @relay s pc relays conn act link hc hstep => cases pc <;> rfl
  | _ => cases ha

theorem RelayStep.laden {l l' : Link} {act : RelayAct} (h : RelayStep l act l')
    (hl : ∀ chunk ∈ l.down.queue, chunk ≠ []) : ∀ chunk ∈ l'.down.queue, chunk ≠ [] := by
  cases h with
  | @send chunk hs hr hroom h1 h2 =>
    intro x hx
    rcases List.mem_append.mp hx with hx | hx
    · exact hl x hx
    · rw [List.mem_singleton.mp hx]
      exact List.length_pos_iff.mp h1
  | _ => exact hl

theorem Inner.laden_setLink {s : Inner} (hs : s.Laden) (id : ℕ) {link : Link}
    (h : ∀ chunk ∈ link.down.queue, chunk ≠ []) : (s.setLink id link).Laden := by
  intro i
  rw [links_setLink]
  split_ifs
  · exact h
  · exact hs i

theorem Step.laden (hw : w.inner.Wf) (hl : w.inner.Laden) (h : Step alloc w a w') :
    w'.inner.Laden := by
  cases h with
  | @ingest s s' relays raw rest hq hproc =>
    rcases Inner.processInbound_opened (hw.frame (Inner.Frame.popRx s rest)) hproc with
      ⟨hsame, -⟩ | ⟨nat, vport, src, dst, pkt, -, hv, -, rfl⟩
    · intro id
      rw [hsame]
      exact hl id
    · have hopen := Inner.createListener_opened alloc
        ({ s with tunRx := rest, nat := nat } : Inner) dst hv
      intro id chunk hc
      rcases eq_or_ne id s.made with rfl | hid
      · rcases hopen.link with hnew | hnew
        · rw [Inner.pushRx, hnew] at hc
          exact absurd hc List.not_mem_nil
        · rw [Inner.pushRx, hnew] at hc
          exact absurd hc List.not_mem_nil
      · rw [Inner.pushRx, hopen.links id hid] at hc
        exact hl id chunk hc
  | @service s relays handle rest sock remote peer phase act c hs hact hstep =>
    refine Inner.laden_setLink (s := s.setSocket handle c.sock) hl peer.link ?_
    exact fun chunk hc => hl peer.link chunk (hstep.pollSide.downQueue.subset hc)
  | @close s s' relays handle rest sock hs hg hclose =>
    obtain ⟨remote, peer, -, rfl⟩ := Inner.closeSocket_ok hclose
    exact Inner.laden_setLink (s := { s with
      active := s.active.erase handle
      sockets := s.sockets.erase handle }) hl peer.link fun _ hc => absurd hc List.not_mem_nil
  | relay hc hstep => exact Inner.laden_setLink hl _ (hstep.laden (hl _))
  | _ => exact hl

/-- What a poll relies on. -/
structure Ready (w : World) : Prop where
  wf : w.inner.Wf
  visits : w.pc.Visits w.inner
  begun : ∀ phase, w.pc = .serve phase [] → phase = .idle
  laden : w.inner.Laden

theorem Step.begun (hw : ∀ phase, w.pc = .serve phase [] → phase = .idle)
    (h : Step alloc w a w') : ∀ phase, w'.pc = .serve phase [] → phase = .idle := by
  intro phase hpc
  cases h with
  | @service s relays handle rest sock remote peer ph act c hs hact hstep =>
    have hnext : Pc.serve c.phase (if c.phase = .idle then rest else handle :: rest) =
        .serve phase [] := hpc
    split_ifs at hnext with hidle
    · cases hnext
      exact hidle
    · cases hnext
  | relay => exact hw phase hpc
  | smoltcp | close =>
    injection hpc with hphase
    exact hphase.symm
  | _ => cases hpc

theorem Ready.step (hw : Ready w) (h : Step alloc w a w') : Ready w' :=
  ⟨h.wf hw.wf, h.visits hw.visits, h.begun hw.begun, h.laden hw.wf hw.laden⟩

theorem Reachable.ready (h : Reachable alloc w) : Ready w := by
  obtain ⟨mtu, tr, hrun⟩ := h
  refine hrun.invariant Ready ?_ fun _ _ _ hw hs => hw.step hs
  refine ⟨Inner.wf_new mtu, trivial, ?_, fun _ _ hc => absurd hc List.not_mem_nil⟩
  intro phase hpc
  cases hpc

end Steps

/-- The packets that the stack was given and those that smoltcp has made have sizes and headers
that the rewriting can work with. -/
structure World.Sized (w : World) : Prop where
  inbound : ∀ raw ∈ w.inner.tunRx, raw.length ≤ 65535
  outbound : ∀ pkt ∈ w.inner.device.tx, pkt.length ≤ 65535 ∧ (IsIpv4Tcp 20 pkt → 20 ≤ ihl pkt)

theorem forwardOutbound_returns (nat : NatTable) {pkt : Bytes} (hlen : pkt.length ≤ 65535)
    (hihl : IsIpv4Tcp 20 pkt → 20 ≤ ihl pkt) : ∃ out, Inner.forwardOutbound nat pkt = .ok out := by
  simp only [Inner.forwardOutbound, outboundSrcPort_eq, Exec.ok_bind]
  cases hrev : (if IsIpv4Tcp 4 pkt then some (u16At pkt (ihl pkt)) else none).bind
      nat.lookupReverse with
  | none => exact ⟨none, rfl⟩
  | some key =>
    obtain ⟨src, ip | ip⟩ := key
    · rename_i port
      by_cases h : IsIpv4Tcp 20 pkt
      · have hr := rewriteOutbound_eq h ip port hlen (ihl_readdressed h ip port (hihl h))
        exact ⟨_, by simp only [hr, Exec.ok_bind]; rfl⟩
      · have hr := rewriteOutbound_of_not h ip port
        exact ⟨_, by simp only [hr, Exec.ok_bind]; rfl⟩
    · exact ⟨_, rfl⟩

section Progress

variable {alloc : Allocator} {s : Inner} {relays : List VirtualConnection}

theorem ingest_progress (hs : s.Wf) (hlen : ∀ raw ∈ s.tunRx, raw.length ≤ 65535) :
    ∃ a w', a.isRelay = false ∧ Step alloc ⟨s, .ingest, relays⟩ a w' := by
  cases hq : s.tunRx with
  | nil =>
    let env : Inner.PollEnv := ⟨s.sockets, [], [], false, s.active.keys.toList, fun _ => 0⟩
    have hfit : env.Fits s := by
      refine ⟨fun _ => Iff.rfl, Finset.nodup_toList _, ?_⟩
      intro h
      rw [Finset.mem_toList, Finmap.mem_keys]
    exact ⟨_, _, rfl, .smoltcp hq hfit⟩
  | cons raw rest =>
    have hraw : raw.length ≤ 65535 := hlen raw (by rw [hq]; exact List.mem_cons_self)
    obtain ⟨s', hproc, -⟩ := Inner.processInbound_total alloc (s := { s with tunRx := rest })
      hs.nat.cursor hraw
    exact ⟨_, _, rfl, .ingest hq hproc⟩

theorem serve_progress (hs : s.Wf) {phase : Phase} {handle : SocketHandle}
    {rest : List SocketHandle} (ha : handle ∈ s.active) :
    ∃ a w', a.isRelay = false ∧ Step alloc ⟨s, .serve phase (handle :: rest), relays⟩ a w' := by
  obtain ⟨sock, hsock⟩ := Finmap.mem_iff.mp ((hs.handles handle).mp ha)
  obtain ⟨⟨remote, peer⟩, hentry⟩ := Finmap.mem_iff.mp ha
  cases phase with
  | idle =>
    cases hg : sock.isGone with
    | true =>
      obtain ⟨s', hclose, -⟩ := Inner.closeSocket_returns hs.handles ha
      exact ⟨_, _, rfl, .close hsock hg hclose⟩
    | false => exact ⟨_, _, rfl, .service hsock hentry (.drain 0 hg)⟩
  | sending =>
    cases hturn : sendTurn sock (s.links peer.link).down with
    | some p => exact ⟨_, _, rfl, .service hsock hentry (.sendTurn hturn)⟩
    | none => exact ⟨_, _, rfl, .service hsock hentry (.leaveLoop hturn)⟩
  | closing => exact ⟨_, _, rfl, .service hsock hentry .finish⟩

theorem drain_progress (hlen : ∀ pkt ∈ s.device.tx,
    pkt.length ≤ 65535 ∧ (IsIpv4Tcp 20 pkt → 20 ≤ ihl pkt)) :
    ∃ a w', a.isRelay = false ∧ Step alloc ⟨s, .drain, relays⟩ a w' := by
  cases hq : s.device.tx with
  | nil => exact ⟨_, _, rfl, .endPoll hq⟩
  | cons pkt rest =>
    obtain ⟨hmax, hihl⟩ := hlen pkt (by rw [hq]; exact List.mem_cons_self)
    obtain ⟨out, hfwd⟩ := forwardOutbound_returns s.nat hmax hihl
    exact ⟨_, _, rfl, .forward hq hfwd⟩

end Progress

/-- What smoltcp leaves if its one socket is open and `tx` is to be sent. -/
def openEnv (h : SocketHandle) (tx : List Bytes) : Inner.PollEnv :=
  ⟨Finmap.insert h ⟨.established, none, [], []⟩ ∅, [], tx, true, [h], fun _ => 0⟩

section Chunks

variable {alloc : Allocator} {s : Inner} {h : SocketHandle} {remote x y : SocketAddr}
  {peer : VirtualConnectionPeer} {conn : VirtualConnection}

/-- A poll that finds nothing to do for the one connection of a stack. -/
theorem quiet_poll (hw : Reachable alloc ⟨s, .ingest, []⟩) (hrx : s.tunRx = [])
    (hactive : s.active = Finmap.insert h (remote, peer) ∅)
    (hlink : s.links peer.link = Link.pair x y) :
    Reachable alloc
      ⟨(s.drive (openEnv h [])).setLink peer.link (Link.pair x y), .idle, []⟩ := by
  let sock : TcpSocket := ⟨.established, none, [], []⟩
  have hfit : (openEnv h []).Fits s :=
    Inner.PollEnv.fits_single hw.wf.handles hactive rfl rfl
  have hentry : (s.drive (openEnv h [])).active.lookup h = some (remote, peer) :=
    (congrArg (Finmap.lookup h) hactive).trans (Finmap.lookup_insert _)
  have hsame : ((s.drive (openEnv h [])).setSocket h sock).setLink peer.link (Link.pair x y) =
      (s.drive (openEnv h [])).setLink peer.link (Link.pair x y) := by
    simp only [Inner.setSocket, Inner.drive, openEnv, Finmap.insert_insert]
    rfl
  obtain ⟨tr, hserve⟩ := serviceSocket_run alloc [] [] hentry 0 (Finmap.lookup_insert _) rfl
  have hidle : serviceLink 0 sock (Link.pair x y) = (sock, Link.pair x y) := rfl
  rw [show (s.drive (openEnv h [])).links peer.link = Link.pair x y from hlink, hidle,
    hsame] at hserve
  exact hw.run ((((Run.single (.smoltcp hrx hfit)).append hserve).snoc .endService).snoc
    (.endPoll rfl))

/-- The one connection of a stack is accepted, its relay task sends two chunks, and the next poll
has come to the loop that takes them; smoltcp has `tx` to send. -/
theorem chunks_wait (hw : Reachable alloc ⟨s, .ingest, []⟩) (hrx : s.tunRx = [])
    (hactive : s.active = Finmap.insert h (remote, peer) ∅)
    (hlink : s.links peer.link = Link.pair x y) (hpending : s.pending = [conn])
    (hconn : conn.link = peer.link) (tx : List Bytes) :
    ∃ s' sock, Reachable alloc ⟨s', .serve .sending [h], [conn]⟩ ∧
      s'.sockets.lookup h = some sock ∧ sock.state = .established ∧ s'.tunRx = [] ∧
      s'.device.tx = tx ∧ (s'.links conn.link).down.queue = [[1, 2, 3], [4]] := by
  have hquiet := quiet_poll hw hrx hactive hlink
  let served : Inner := (s.drive (openEnv h [])).setLink peer.link (Link.pair x y)
  have haccept : Step alloc ⟨served, .idle, []⟩ .accept
      ⟨{ served with pending := [] }, .idle, [conn]⟩ := .accept hpending
  -- the relay task sends twice
  let once : Link :=
    { Link.pair x y with down := (Link.pair x y).down.push [1, 2, 3] (Nat.zero_lt_succ 255) }
  let twice : Link :=
    { once with down := once.down.push [4] (Nat.succ_lt_succ (Nat.zero_lt_succ 254)) }
  have hfirst : RelayStep (served.links conn.link) (.send [1, 2, 3]) once := by
    have hnow : served.links conn.link = Link.pair x y := by
      rw [hconn]
      exact Function.update_self _ _ _
    rw [hnow]
    exact .send rfl rfl _ (by decide) (by decide)
  have hsecond : RelayStep ((served.setLink conn.link once).links conn.link) (.send [4]) twice := by
    rw [Inner.links_setLink, if_pos rfl]
    exact .send rfl rfl _ (by decide) (by decide)
  have hmem : conn ∈ [conn] := List.mem_singleton_self _
  have hsent := hquiet.run
    (((Run.single haccept).snoc (.relay hmem hfirst)).snoc (.relay hmem hsecond))
  -- the second poll, up to its loop over the chunks
  let waiting : Inner :=
    ({ served with pending := [] }.setLink conn.link once).setLink conn.link twice
  have hfit : (openEnv h tx).Fits waiting :=
    Inner.PollEnv.fits_single hsent.wf.handles hactive rfl rfl
  have hentry : waiting.active.lookup h = some (remote, peer) :=
    (congrArg (Finmap.lookup h) hactive).trans (Finmap.lookup_insert _)
  have hbegin : Step alloc ⟨waiting, .idle, [conn]⟩ .beginPoll ⟨waiting, .ingest, [conn]⟩ :=
    .beginPoll
  have hpoll := ((Run.single hbegin).snoc (.smoltcp hrx hfit)).snoc
    (.service (Finmap.lookup_insert _) hentry (.drain 0 rfl))
  refine ⟨_, _, hsent.run hpoll, Finmap.lookup_insert _, rfl, hrx, rfl, ?_⟩
  have hwaiting : waiting.links peer.link = twice := by
    rw [← hconn]
    exact Function.update_self _ _ _
  have hdown : ((waiting.drive (openEnv h tx)).links peer.link).down.queue =
      [[1, 2, 3], [4]] := by
    show (waiting.links peer.link).down.queue = [[1, 2, 3], [4]]
    rw [hwaiting]
    rfl
  rw [Inner.links_setLink, if_pos hconn]
  exact hdown

end Chunks

/-- A poll that has begun is never blocked, and it is over after finitely many of its own steps,
however many chunks the relay tasks send in the meantime. -/
theorem poll_terminates {alloc : Allocator} {w : World} (hw : Reachable alloc w)
    (hpc : w.pc ≠ .idle) :
    (w.Sized → ∃ a w', a.isRelay = false ∧ Step alloc w a w') ∧
    ∀ (ws : ℕ → World) (acts : ℕ → Act), ws 0 = w →
      (∀ n, Step alloc (ws n) (acts n) (ws (n+1))) → (∀ n, (ws n).pc ≠ .idle) →
      ∃ N, ∀ n, N ≤ n → (acts n).isRelay = true := by
  have hready := hw.ready
  constructor
  · intro hsized
    obtain ⟨s, pc, relays⟩ := w
    cases pc with
    | idle => exact absurd rfl hpc
    | ingest => exact ingest_progress hready.wf hsized.inbound
    | drain => exact drain_progress hsized.outbound
    | serve phase order =>
      cases order with
      | nil =>
        obtain rfl := hready.begun phase rfl
        exact ⟨_, _, rfl, .endService⟩
      | cons handle rest =>
        exact serve_progress hready.wf (hready.visits.2 handle List.mem_cons_self)
  · intro ws acts h0 hsteps hlock
    have hall : ∀ n, Ready (ws n) := by
      intro n
      induction n with
      | zero => exact h0 ▸ hready
      | succ n ih => exact ih.step (hsteps n)
    obtain ⟨N, hN⟩ := settles World.pollWork (fun a : Act => a.isRelay = false) ws acts
      (fun n hb => (hsteps n).pollWork_lt (hall n).wf (hall n).laden (hlock n) hb)
      (fun n hb => ((hsteps n).pollWork_relay (Bool.of_not_eq_false hb)).le)
    exact ⟨N, fun n hn => Bool.of_not_eq_false (hN n hn)⟩

/-- A poll in front of two chunks of the relay task and of a packet that smoltcp has queued goes
on, and however many more chunks the relay task sends, it makes finitely many steps. -/
theorem chunks_taken : ∃ s h conn sock pkt, Reachable .lowest ⟨s, .serve .sending [h], [conn]⟩ ∧
    s.sockets.lookup h = some sock ∧ sock.state = .established ∧ s.device.tx = [pkt] ∧
    (s.links conn.link).down.queue = [[1, 2, 3], [4]] ∧
    (∃ a w, a.isRelay = false ∧ Step .lowest ⟨s, .serve .sending [h], [conn]⟩ a w) ∧
    ∀ (ws : ℕ → World) (acts : ℕ → Act), ws 0 = ⟨s, .serve .sending [h], [conn]⟩ →
      (∀ n, Step .lowest (ws n) (acts n) (ws (n+1))) → (∀ n, (ws n).pc ≠ .idle) →
      ∃ N, ∀ n, N ≤ n → (acts n).isRelay = true := by
  have hnone (handle : SocketHandle) (entry : SocketAddr × VirtualConnectionPeer)
      (he : (Inner.new 1500).active.lookup handle = some entry) : entry.1 ≠ .v4 exampleIp 443 := by
    simp [Inner.new] at he
  obtain ⟨nat, vp, pkt, hs, -, hr, -, -⟩ := syn_opens .lowest (Inner.wf_new 1500)
    (synPacket_addrs exampleIp 40000) rfl rfl ⟨10000, ⟨by decide, by decide⟩, rfl⟩ hnone (by decide)
  have ho := Inner.createListener_opened .lowest { Inner.new 1500 with nat } (.v4 exampleIp 443)
    hr.ne_zero
  obtain ⟨hlink, hpending⟩ := Inner.createListener_waits .lowest
    (s := { Inner.new 1500 with nat }) (.v4 exampleIp 443) hr.ne_zero
    (show 0 < pendingCap by decide)
  obtain ⟨s, sock, hw, hsock, hstate, hrx, htx, hdown⟩ := chunks_wait (reachable_first_syn hs)
    ho.queues.2 ho.active hlink hpending rfl [synAckPacket vp]
  obtain ⟨hgo, hfinite⟩ := poll_terminates hw Pc.noConfusion
  refine ⟨s, _, _, sock, _, hw, hsock, hstate, htx, hdown, hgo ⟨?_, ?_⟩, hfinite⟩
  · intro raw hraw
    rw [hrx] at hraw
    exact absurd hraw List.not_mem_nil
  · intro p hp
    rw [htx, List.mem_singleton] at hp
    rw [hp]
    exact ⟨show 40 ≤ 65535 by decide, fun _ => (ihl_plain rfl).ge⟩

end GravitalShare.Stack
