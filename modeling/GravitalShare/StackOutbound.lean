import GravitalShare.StackExact
import GravitalShare.StackRefine

/-! The way from smoltcp's transmit queue back to the TUN device. -/
namespace GravitalShare.Stack

section Plain

variable {pkt : Bytes} (h0 : byteAt pkt 0 = 0x45) (h40 : 40 ≤ pkt.length)
include h0

theorem ihl_plain : ihl pkt = 20 := by
  rw [ihl, h0]
  decide

include h40

theorem isIpv4Tcp_plain (h6 : byteAt pkt 9 = 6) {need : ℕ} (hn : need ≤ 20) :
    IsIpv4Tcp need pkt :=
  ⟨by omega, by rw [h0]; decide, h6, by rw [ihl_plain h0]; omega⟩

variable (h6 : byteAt pkt 9 = 6)
include h6

theorem outboundSrcPort_plain : outboundSrcPort pkt = .ok (some (u16At pkt 20)) := by
  rw [outboundSrcPort_eq, if_pos (isIpv4Tcp_plain h0 h40 h6 (by decide)), ihl_plain h0]

theorem forwardOutbound_mapped {nat : NatTable} {src : SocketAddr} {ip : Ipv4Addr} {port : UInt16}
    {b : Bool} {out : Bytes} (hrev : nat.lookupReverse (u16At pkt 20) = some (src, .v4 ip port))
    (hr : rewriteOutbound pkt ip port = .ok (b, out)) :
    Inner.forwardOutbound nat pkt = .ok (some out) := by
  simp only [Inner.forwardOutbound, outboundSrcPort_plain h0 h40 h6, Exec.ok_bind,
    Option.bind_some, hrev, hr]

theorem forwardOutbound_unmapped {nat : NatTable}
    (hrev : nat.lookupReverse (u16At pkt 20) = none) :
    Inner.forwardOutbound nat pkt = .ok none := by
  simp only [Inner.forwardOutbound, outboundSrcPort_plain h0 h40 h6, Exec.ok_bind,
    Option.bind_some, hrev]

end Plain

/-- `out` is a reply as the app gets it: `pkt` under the address of the remote, with both
checksums valid and everything else untouched. -/
structure Replied (pkt : Bytes) (ip : Ipv4Addr) (port : UInt16) (out : Bytes) : Prop where
  length_eq : out.length = pkt.length
  addrs : extractTcpAddrs out = .ok (some (.v4 ip port, dstEndpoint pkt))
  untouched : ∀ i, ¬(10 ≤ i ∧ i < 16) → ¬(20 ≤ i ∧ i < 22) → ¬(36 ≤ i ∧ i < 38) →
    byteAt out i = byteAt pkt i
  ipv4Checksum : Ipv4ChecksumOk out
  tcpChecksum : TcpChecksumOk out

/-- What the outbound rewrite of a plain packet produces. -/
theorem replied_spec {pkt : Bytes} (h0 : byteAt pkt 0 = 0x45) (h40 : 40 ≤ pkt.length)
    (h6 : byteAt pkt 9 = 6) (hmax : pkt.length ≤ 65535) (ip : Ipv4Addr) (port : UInt16) :
    ∃ out, rewriteOutbound pkt ip port = .ok (true, out) ∧ Replied pkt ip port out := by
  have hih := ihl_plain h0
  obtain ⟨out, hr, hx⟩ :=
    rewriteOutbound_exact (isIpv4Tcp_plain h0 h40 h6 (le_refl 20)) hih.ge hmax ip port
  refine ⟨out, hr, hx.length_eq, hx.addrs, ?_, hx.ipv4Checksum, hx.tcp⟩
  intro i h10 h20 h36
  by_contra hne
  have hchanged := hx.changed i hne
  omega

section Queue

variable {nat : NatTable} {pkt : Bytes} {before behind : List Bytes}

/-- What is in `tun_tx` already stays in front, and what is added does not depend on it. -/
theorem drainLoop_kept {queue sent acc : List Bytes}
    (h : Inner.drainLoop nat queue acc = .ok sent) :
    ∃ added, sent = acc ++ added ∧
      ∀ tunTx, Inner.drainLoop nat queue tunTx = .ok (tunTx ++ added) := by
  induction queue generalizing acc with
  | nil =>
    obtain rfl := Except.ok.inj h
    refine ⟨[], (List.append_nil _).symm, ?_⟩
    intro tunTx
    rw [List.append_nil, Inner.drainLoop]
  | cons pkt rest ih =>
    obtain ⟨fwd, hfwd, hrest⟩ := Exec.bind_eq_ok.mp h
    obtain ⟨added, rfl, hall⟩ := ih hrest
    refine ⟨fwd.toList ++ added, List.append_assoc _ _ _, ?_⟩
    intro tunTx
    rw [Inner.drainLoop, hfwd, Exec.ok_bind, hall, List.append_assoc]

theorem drainLoop_append (before behind tunTx : List Bytes) :
    Inner.drainLoop nat (before ++ behind) tunTx =
      Inner.drainLoop nat before tunTx >>= Inner.drainLoop nat behind := by
  induction before generalizing tunTx with
  | nil => rfl
  | cons pkt rest ih =>
    simp only [List.cons_append, Inner.drainLoop]
    cases Inner.forwardOutbound nat pkt with
    | error e => rfl
    | ok fwd => exact ih _

theorem drainLoop_nil_kept {queue added : List Bytes}
    (h : Inner.drainLoop nat queue [] = .ok added) (tunTx : List Bytes) :
    Inner.drainLoop nat queue tunTx = .ok (tunTx ++ added) := by
  obtain ⟨sent, rfl, hall⟩ := drainLoop_kept h
  exact hall tunTx

/-- A packet adds to `tun_tx` what is made of it, wherever it stands in the queue. -/
theorem drainLoop_middle {fwd : Option Bytes} (hfwd : Inner.forwardOutbound nat pkt = .ok fwd)
    {sent later : List Bytes} (hb : Inner.drainLoop nat before [] = .ok sent)
    (hl : Inner.drainLoop nat behind [] = .ok later) (tunTx : List Bytes) :
    Inner.drainLoop nat (before ++ pkt :: behind) tunTx =
      .ok (tunTx ++ sent ++ fwd.toList ++ later) := by
  rw [drainLoop_append, drainLoop_nil_kept hb, Exec.ok_bind, Inner.drainLoop, hfwd, Exec.ok_bind,
    drainLoop_nil_kept hl]

theorem drainLoop_single {fwd : Option Bytes} (hfwd : Inner.forwardOutbound nat pkt = .ok fwd)
    (tunTx : List Bytes) : Inner.drainLoop nat [pkt] tunTx = .ok (tunTx ++ fwd.toList) := by
  rw [Inner.drainLoop, hfwd, Exec.ok_bind, Inner.drainLoop]

/-- A queue that is sent was sent packet by packet. -/
theorem drainLoop_split {tunTx result : List Bytes}
    (h : Inner.drainLoop nat (before ++ pkt :: behind) tunTx = .ok result) :
    ∃ sent fwd later, Inner.drainLoop nat before [] = .ok sent ∧
      Inner.forwardOutbound nat pkt = .ok fwd ∧ Inner.drainLoop nat behind [] = .ok later ∧
      result = tunTx ++ sent ++ fwd.toList ++ later := by
  rw [drainLoop_append] at h
  obtain ⟨mid, hbefore, h⟩ := Exec.bind_eq_ok.mp h
  obtain ⟨fwd, hfwd, hbehind⟩ := Exec.bind_eq_ok.mp h
  obtain ⟨sent, rfl, hsent⟩ := drainLoop_kept hbefore
  obtain ⟨later, rfl, hlater⟩ := drainLoop_kept hbehind
  exact ⟨sent, fwd, later, hsent [], hfwd, hlater [], rfl⟩

/-- In a valid table a port stands for one pair alone. -/
theorem NatTable.Valid.forward_iff (hv : nat.Valid) {vp : UInt16} {pair : SocketAddr × SocketAddr}
    (hrev : nat.lookupReverse vp = some pair) (key : SocketAddr × SocketAddr) :
    nat.forward.lookup key = some vp ↔ key = pair := by
  rw [hv.inverse key vp]
  constructor
  · intro hk
    exact (Option.some.inj (hrev.symm.trans hk)).symm
  · rintro rfl
    exact hrev

end Queue

/-- A reply leaves under the address of the remote it belongs to, with both checksums
valid and everything else untouched; a packet on a port that is not mapped is dropped. Either
way the rest of the queue and what is in `tun_tx` already are as they would be without it. -/
theorem outbound_path_transparent {ops : List NatTable.Op} {nat : NatTable}
    (hn : NatTable.new.run ops = .ok nat) {pkt : Bytes} (h0 : byteAt pkt 0 = 0x45)
    (h6 : byteAt pkt 9 = 6) (htotal : (u16At pkt 2).toNat = pkt.length) (h40 : 40 ≤ pkt.length) :
    (∀ src ip port, nat.lookupReverse (u16At pkt 20) = some (src, .v4 ip port) →
      (∀ key, nat.forward.lookup key = some (u16At pkt 20) ↔ key = (src, .v4 ip port)) ∧
      ∃ out, Replied pkt ip port out ∧
        (∀ tunTx, Inner.drainLoop nat [pkt] tunTx = .ok (tunTx ++ [out])) ∧
        ∀ before behind sent later tunTx, Inner.drainLoop nat before [] = .ok sent →
          Inner.drainLoop nat behind [] = .ok later →
          Inner.drainLoop nat (before ++ pkt :: behind) tunTx =
            .ok (tunTx ++ sent ++ [out] ++ later)) ∧
    (nat.lookupReverse (u16At pkt 20) = none →
      (∀ tunTx, Inner.drainLoop nat [pkt] tunTx = .ok tunTx) ∧
      ∀ before behind sent later tunTx, Inner.drainLoop nat before [] = .ok sent →
        Inner.drainLoop nat behind [] = .ok later →
        Inner.drainLoop nat (before ++ pkt :: behind) tunTx = .ok (tunTx ++ sent ++ later)) := by
  -- the total length is a 16-bit field
  have hmax : pkt.length ≤ 65535 := by
    have := (u16At pkt 2).toNat_lt
    omega
  obtain ⟨t, ht, hv⟩ := NatTable.valid_new.run ops
  obtain rfl : t = nat := Except.ok.inj (ht.symm.trans hn)
  constructor
  · intro src ip port hrev
    obtain ⟨out, hout, hspec⟩ := replied_spec h0 h40 h6 hmax ip port
    have hfwd := forwardOutbound_mapped h0 h40 h6 hrev hout
    refine ⟨hv.forward_iff hrev, out, hspec, drainLoop_single hfwd, ?_⟩
    intro before behind sent later tunTx hb hl
    exact drainLoop_middle hfwd hb hl tunTx
  · intro hrev
    have hfwd := forwardOutbound_unmapped h0 h40 h6 hrev
    constructor
    · intro tunTx
      rw [drainLoop_single hfwd, Option.toList_none, List.append_nil]
    · intro before behind sent later tunTx hb hl
      rw [drainLoop_middle hfwd hb hl, Option.toList_none, List.append_nil]

/-- A SYN-ACK from the listener on `vport` to 10.0.0.1:40000. -/
def synAckPacket (vport : UInt16) : Bytes :=
  [0x45, 0, 0, 40, 0, 0, 0, 0, 64, 6, 0, 0, 10, 0, 2, 2, 10, 0, 0, 1] ++ u16ToBE vport ++
    [156, 64, 0, 0, 0, 0, 0, 0, 0, 1, 0x50, 18, 0, 0, 0, 0, 0, 0]

theorem syn_ack_leaves_under_remote : ∃ nat vp out,
    NatTable.new.run [.insert (.v4 ⟨10, 0, 0, 1⟩ 40000) (.v4 ⟨93, 184, 216, 34⟩ 443)] = .ok nat ∧
    Inner.drainLoop nat [synAckPacket vp] [] = .ok [out] ∧
    extractTcpAddrs out =
      .ok (some (.v4 ⟨93, 184, 216, 34⟩ 443, dstEndpoint (synAckPacket vp))) ∧
    Ipv4ChecksumOk out ∧ TcpChecksumOk out := by
  obtain ⟨vp, hk, -⟩ | ⟨vp, next, -, -, -, -, hins⟩ | ⟨-, hfull, -⟩ := NatTable.insert_cases
    NatTable.valid_new (.v4 ⟨10, 0, 0, 1⟩ 40000) (.v4 ⟨93, 184, 216, 34⟩ 443)
  · simp [NatTable.new] at hk
  · obtain ⟨nat, hrun, hrev⟩ : ∃ nat, NatTable.new.run
        [.insert (.v4 ⟨10, 0, 0, 1⟩ 40000) (.v4 ⟨93, 184, 216, 34⟩ 443)] = .ok nat ∧
        nat.lookupReverse vp = some (.v4 ⟨10, 0, 0, 1⟩ 40000, .v4 ⟨93, 184, 216, 34⟩ 443) := by
      simp only [NatTable.run, NatTable.apply, hins, Exec.ok_bind]
      exact ⟨_, rfl, Finmap.lookup_insert _⟩
    have hport : u16At (synAckPacket vp) 20 = vp := u16FromBE_u16ToBE vp
    have htotal : (u16At (synAckPacket vp) 2).toNat = 40 := by
      show (u16FromBE 0 40).toNat = 40
      decide
    obtain ⟨-, out, hspec, hdrain, -⟩ :=
      (outbound_path_transparent hrun (show byteAt (synAckPacket vp) 0 = 0x45 from rfl) rfl htotal
        (Nat.le_refl 40)).1 (.v4 ⟨10, 0, 0, 1⟩ 40000) ⟨93, 184, 216, 34⟩ 443
        (by rw [hport, hrev])
    exact ⟨_, vp, out, hrun, hdrain [], hspec.addrs, hspec.ipv4Checksum, hspec.tcpChecksum⟩
  · exact absurd rfl (hfull 10000 ⟨by decide, by decide⟩)

section Poll

variable {alloc : Allocator}

theorem Inner.ingestLoop_tunTx {rx : List Bytes} {s s' : Inner} (hs : s.Wf)
    (h : ingestLoop alloc rx s = .ok s') : s'.tunTx = s.tunTx := by
  induction rx generalizing s with
  | nil => exact congrArg tunTx (Except.ok.inj h).symm
  | cons raw rest ih =>
    obtain ⟨t, hproc, hloop⟩ := Exec.bind_eq_ok.mp h
    have hpop := hs.frame (Inner.Frame.popRx s rest)
    exact (ih (hpop.processInbound hproc) hloop).trans (processInbound_queues hpop hproc).1

/-- Serving the sockets concerns neither the NAT table nor the queues to the TUN device. -/
theorem Inner.serviceLoop_outbound {contig : SocketHandle → ℕ} {order : List SocketHandle}
    {more more' : Bool} {s s' : Inner} (h : serviceLoop contig order more s = .ok (more', s')) :
    s'.device = s.device ∧ s'.tunTx = s.tunTx := by
  induction order generalizing s more with
  | nil =>
    obtain ⟨-, rfl⟩ := Prod.mk.inj (Except.ok.inj h)
    exact ⟨rfl, rfl⟩
  | cons handle rest ih =>
    obtain ⟨⟨closed, t⟩, hserve, hrest⟩ := Exec.bind_eq_ok.mp h
    obtain ⟨sock, -, ⟨rfl, rfl, -⟩ | ⟨rfl, -, remote, peer, -, rfl⟩⟩ := serviceSocket_cases hserve
    · obtain ⟨u, hclose, hloop⟩ := Exec.bind_eq_ok.mp hrest
      obtain ⟨remote, peer, -, rfl⟩ := closeSocket_ok hclose
      have hsame := ih hloop
      exact hsame
    · simp only [Bool.false_eq_true, ↓reduceIte] at hrest
      have hsame := ih hrest
      exact hsame

/-- Over a whole poll: a reply that smoltcp has queued is in `tun_tx` afterwards, once and in its
place, or it was on a port that is not mapped and left no trace. -/
theorem poll_outbound {env : Inner.PollEnv} {s s' : Inner} {relays : List VirtualConnection}
    {more : Bool} (hw : Reachable alloc ⟨s, .idle, relays⟩)
    (hfit : ∀ mid, Inner.ingestLoop alloc s.tunRx s = .ok mid → env.Fits mid)
    (h : Inner.poll alloc env s = .ok (more, s')) {pkt : Bytes} {before behind : List Bytes}
    (htx : env.tx = before ++ pkt :: behind) (h0 : byteAt pkt 0 = 0x45) (h6 : byteAt pkt 9 = 6)
    (h40 : 40 ≤ pkt.length) (hmax : pkt.length ≤ 65535) :
    Reachable alloc ⟨s', .idle, relays⟩ ∧ ∃ sent later,
      (∀ src ip port, s'.nat.lookupReverse (u16At pkt 20) = some (src, .v4 ip port) →
        (∀ key, s'.nat.forward.lookup key = some (u16At pkt 20) ↔ key = (src, .v4 ip port)) ∧
        ∃ out, Replied pkt ip port out ∧ s'.tunTx = s.tunTx ++ sent ++ [out] ++ later) ∧
      (s'.nat.lookupReverse (u16At pkt 20) = none → s'.tunTx = s.tunTx ++ sent ++ later) := by
  have hreach : Reachable alloc ⟨s', .idle, relays⟩ := by
    obtain ⟨tr, hrun⟩ := poll_run alloc relays hw.wf hfit h
    exact hw.run hrun
  obtain ⟨mid, hingest, h⟩ := Exec.bind_eq_ok.mp h
  obtain ⟨⟨more', t⟩, hserve, h⟩ := Exec.bind_eq_ok.mp h
  obtain ⟨out, hdrain, h⟩ := Exec.bind_eq_ok.mp h
  obtain ⟨-, rfl⟩ := Prod.mk.inj (Except.ok.inj h)
  obtain ⟨hdevice, htunTx⟩ := Inner.serviceLoop_outbound hserve
  have htaken : mid.tunTx = s.tunTx := Inner.ingestLoop_tunTx hw.wf hingest
  have hbefore : t.tunTx = s.tunTx := htunTx.trans htaken
  have hqueue : t.device.tx = before ++ pkt :: behind := by rw [hdevice, ← htx]; rfl
  rw [hqueue, hbefore] at hdrain
  obtain ⟨sent, fwd, later, -, hfwd, -, hresult⟩ := drainLoop_split hdrain
  refine ⟨hreach, sent, later, ?_, ?_⟩
  · intro src ip port hrev
    obtain ⟨reply, hr, hspec⟩ := replied_spec h0 h40 h6 hmax ip port
    obtain rfl := Except.ok.inj (hfwd.symm.trans (forwardOutbound_mapped h0 h40 h6 hrev hr))
    exact ⟨hreach.wf.nat.forward_iff hrev, reply, hspec, hresult⟩
  · intro hrev
    obtain rfl := Except.ok.inj (hfwd.symm.trans (forwardOutbound_unmapped h0 h40 h6 hrev))
    rw [hresult, Option.toList_none, List.append_nil]

end Poll

end GravitalShare.Stack
