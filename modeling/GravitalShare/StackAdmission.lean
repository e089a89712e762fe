import GravitalShare.ProtoIp
import GravitalShare.StackWorld

/-! What an incoming SYN gets: a virtual port of its own, and a listener only when no other
connection to the same remote is alive. -/
namespace GravitalShare.Stack

/-- A SYN from 10.0.0.1 to port 443 of `dst`. -/
def synPacket (dst : Ipv4Addr) (srcPort : UInt16) : Bytes :=
  [0x45, 0, 0, 40, 0, 0, 0, 0, 64, 6, 0, 0, 10, 0, 0, 1] ++ dst.octets ++
    u16ToBE srcPort ++ [1, 187, 0, 0, 0, 0, 0, 0, 0, 0, 0x50, 2, 0, 0, 0, 0, 0, 0]

theorem synPacket_addrs (dst : Ipv4Addr) (srcPort : UInt16) :
    extractTcpAddrs (synPacket dst srcPort) =
      .ok (some (.v4 ⟨10, 0, 0, 1⟩ srcPort, .v4 dst 443)) := by
  have h0 : byteAt (synPacket dst srcPort) 0 = 0x45 := rfl
  have hlen : (synPacket dst srcPort).length = 40 := rfl
  have hih : ihl (synPacket dst srcPort) = 20 := by
    rw [ihl, h0]
    decide
  have hport : u16At (synPacket dst srcPort) 20 = srcPort := u16FromBE_u16ToBE srcPort
  have hdport : u16At (synPacket dst srcPort) (20+2) = 443 := by
    show u16FromBE 1 187 = 443
    decide
  have hsrc : ipv4At (synPacket dst srcPort) 12 = ⟨10, 0, 0, 1⟩ := rfl
  have hdst : ipv4At (synPacket dst srcPort) 16 = dst := rfl
  have hp : IsIpv4Tcp 20 (synPacket dst srcPort) :=
    ⟨by omega, by rw [h0]; decide, rfl, by omega⟩
  rw [extractTcpAddrs_eq, if_pos hp, srcEndpoint, dstEndpoint, hih, hport, hdport, hsrc, hdst]

/-- A socket of `s` listens on virtual port `vport` and feeds a connection of its own to
`remote`. -/
def OwnListener (s : Inner) (vport : UInt16) (remote : SocketAddr) : Prop :=
  ∃ handle sock peer, s.active.lookup handle = some (remote, peer) ∧
    s.sockets.lookup handle = some sock ∧ sock.state = .listen ∧
    sock.listenEndpoint = some (ifaceIp, vport) ∧
    (s.links peer.link).localAddr = .v4 ifaceIp vport ∧ (s.links peer.link).remote = remote

theorem extractTcpAddrs_eq_some {raw : Bytes} {src dst : SocketAddr}
    (h : extractTcpAddrs raw = .ok (some (src, dst))) :
    IsIpv4Tcp 20 raw ∧ src = srcEndpoint raw ∧ dst = dstEndpoint raw := by
  rw [extractTcpAddrs_eq] at h
  have h := Except.ok.inj h
  split_ifs at h with hp
  obtain ⟨h1, h2⟩ := Prod.mk.inj (Option.some.inj h)
  exact ⟨hp, h1.symm, h2.symm⟩

section

variable {alloc : Allocator} {s s' : Inner} {raw : Bytes} {src dst : SocketAddr}

/-- A SYN of a new flow: a port is allocated, and on a packet that fits into IPv4 the
processing succeeds. -/
theorem processInbound_new_flow (alloc : Allocator) (hs : s.Wf)
    (hx : extractTcpAddrs raw = .ok (some (src, dst)))
    (hsyn : isTcpSyn raw = .ok true) (hnew : s.nat.lookupForward src dst = none)
    (hroom : ∃ v, NatTable.InRange v ∧ s.nat.lookupReverse v = none) :
    ∃ nat vp, s.nat.insert src dst = .ok (nat, some vp) ∧ s.nat.lookupReverse vp = none ∧
      NatTable.InRange vp ∧ nat.forward = s.nat.forward.insert (src, dst) vp ∧
      nat.reverse = s.nat.reverse.insert vp (src, dst) ∧
      (raw.length ≤ 65535 → ∃ s', Inner.processInbound alloc s raw = .ok s') ∧
      ∀ s', Inner.processInbound alloc s raw = .ok s' →
        ∃ pkt, rewriteInbound raw vp = .ok (true, pkt) ∧
          s' = (Inner.admitted alloc s nat vp dst).pushRx pkt := by
  obtain ⟨hp, rfl, rfl⟩ := extractTcpAddrs_eq_some hx
  have hflag : synFlag raw = true := Except.ok.inj ((isTcpSyn_eq hp).symm.trans hsyn)
  obtain ⟨vp, hk, -⟩ | ⟨vp, next, -, hfree, hr, -, hins⟩ | ⟨-, hfull, -⟩ :=
    NatTable.insert_cases hs.nat (srcEndpoint raw) (dstEndpoint raw)
  · -- the flow was already mapped
    exact absurd (hk.symm.trans hnew) (Option.some_ne_none vp)
  · have heq : Inner.processInbound alloc s raw = _ := Inner.processInbound_of_syn hp hflag
    rw [Inner.acceptSyn_some hins, Exec.ok_bind] at heq
    refine ⟨_, vp, hins, hfree, hr, rfl, rfl, ?_, ?_⟩
    · intro hlen
      rw [heq, Inner.deliver, rewriteInbound_eq hp hlen, Exec.ok_bind]
      exact ⟨_, rfl⟩
    · intro s' h
      rw [heq] at h
      exact Inner.deliver_some hp h
  · -- the table was full
    obtain ⟨v, hv, hn⟩ := hroom
    exact absurd hn (hfull v hv)

theorem ownListener_of_opened {handle : SocketHandle} {vport : UInt16} {remote : SocketAddr}
    (h : Inner.Opened s s' handle vport remote) (pkt : Bytes) :
    OwnListener (s'.pushRx pkt) vport remote := by
  refine ⟨handle, ⟨.listen, some (ifaceIp, vport), [], []⟩, ⟨s.made⟩, ?_, ?_, rfl, rfl, ?_, ?_⟩
  · show s'.active.lookup handle = _
    rw [h.active]
    exact Finmap.lookup_insert _
  · show s'.sockets.lookup handle = _
    rw [h.sockets]
    exact Finmap.lookup_insert _
  · rcases h.link with hl | hl
    · exact congrArg Link.localAddr hl
    · exact congrArg Link.localAddr hl
  · rcases h.link with hl | hl
    · exact congrArg Link.remote hl
    · exact congrArg Link.remote hl

/-- A port that is not in the NAT table belongs to no socket. -/
theorem not_ownListener_of_unmapped {vport : UInt16} {remote : SocketAddr} (hs : s.Wf)
    (hfree : s.nat.lookupReverse vport = none) : ¬OwnListener s vport remote := by
  rintro ⟨handle, sock, peer, ha, -, -, -, hl, -⟩
  obtain ⟨vp, src, hl', -, hm⟩ := hs.mapped handle (remote, peer) ha
  obtain ⟨-, rfl⟩ := SocketAddr.v4.inj (hl'.symm.trans hl)
  exact absurd (hm.symm.trans hfree) (Option.some_ne_none _)

/-- A SYN of a new flow, to a remote that no active socket has, opens a listener. -/
theorem syn_opens (alloc : Allocator) (hs : s.Wf) (hx : extractTcpAddrs raw = .ok (some (src, dst)))
    (hsyn : isTcpSyn raw = .ok true) (hnew : s.nat.lookupForward src dst = none)
    (hroom : ∃ v, NatTable.InRange v ∧ s.nat.lookupReverse v = none)
    (hremote : ∀ handle entry, s.active.lookup handle = some entry → entry.1 ≠ dst)
    (hlen : raw.length ≤ 65535) :
    ∃ nat vp pkt, Inner.processInbound alloc s raw =
        .ok ((Inner.createListener alloc { s with nat } vp dst).pushRx pkt) ∧
      rewriteInbound raw vp = .ok (true, pkt) ∧ NatTable.InRange vp ∧
      nat.forward = s.nat.forward.insert (src, dst) vp ∧
      nat.reverse = s.nat.reverse.insert vp (src, dst) := by
  obtain ⟨nat, vp, hins, -, hr, hf, hb, htotal, hres⟩ :=
    processInbound_new_flow alloc hs hx hsyn hnew hroom
  obtain ⟨s', hs'⟩ := htotal hlen
  obtain ⟨pkt, hrw, rfl⟩ := hres s' hs'
  have hnone : ¬s.active.anyValue (fun entry => entry.1 == dst) = true := by
    rw [Table.anyValue_iff]
    rintro ⟨handle, entry, he, hd⟩
    exact hremote handle entry he (beq_iff_eq.mp hd)
  rw [Inner.admitted, if_neg hnone] at hs'
  exact ⟨nat, vp, pkt, hs', hrw, hr, hf, hb⟩

/-- The first SYN a stack sees opens a listener. -/
theorem first_syn (hx : extractTcpAddrs raw = .ok (some (src, dst)))
    (hsyn : isTcpSyn raw = .ok true) (hlen : raw.length ≤ 65535) :
    ∃ nat vp pkt s, Inner.processInbound .lowest (Inner.new 1500) raw = .ok (s.pushRx pkt) ∧
      rewriteInbound raw vp = .ok (true, pkt) ∧ NatTable.InRange vp ∧
      nat.forward = Finmap.insert (src, dst) vp ∅ ∧ nat.reverse = Finmap.insert vp (src, dst) ∅ ∧
      Inner.Opened { Inner.new 1500 with nat } s (Allocator.lowest.pick ∅) vp dst := by
  have hnone : ∀ handle entry, (Inner.new 1500).active.lookup handle = some entry →
      entry.1 ≠ dst := by
    intro handle entry he
    simp [Inner.new] at he
  obtain ⟨nat, vp, pkt, hs, hrw, hr, hf, hb⟩ := syn_opens .lowest (Inner.wf_new 1500) hx hsyn rfl
    ⟨10000, ⟨by decide, by decide⟩, rfl⟩ hnone hlen
  exact ⟨nat, vp, pkt, _, hs, hrw, hr, hf, hb, Inner.createListener_opened _ _ _ hr.ne_zero⟩

theorem reachable_init (mtu : UInt16) : Reachable .lowest (World.init mtu) := ⟨mtu, [], Run.nil⟩

theorem reachable_first_syn {s : Inner}
    (h : Inner.processInbound .lowest (Inner.new 1500) raw = .ok s) :
    Reachable .lowest ⟨s, .ingest, []⟩ := by
  have hfeed : Step .lowest (World.init 1500) (.feedInbound raw) _ := .feedInbound _
  exact ⟨1500, _, ((Run.single hfeed).snoc .beginPoll).snoc (.ingest rfl h)⟩

/-- In every reachable state a SYN of a new flow gets a listener of its own exactly if no
active socket has the same remote. -/
theorem new_flow_gets_own_listener_iff {w : World} (hw : Reachable alloc w)
    (hx : extractTcpAddrs raw = .ok (some (src, dst))) (hsyn : isTcpSyn raw = .ok true)
    (hnew : w.inner.nat.lookupForward src dst = none)
    (hroom : ∃ v, NatTable.InRange v ∧ w.inner.nat.lookupReverse v = none) :
    ∃ nat vp, w.inner.nat.insert src dst = .ok (nat, some vp) ∧
      (raw.length ≤ 65535 → ∃ s', Inner.processInbound alloc w.inner raw = .ok s') ∧
      ∀ s', Inner.processInbound alloc w.inner raw = .ok s' →
        (OwnListener s' vp dst ↔
          ∀ handle entry, w.inner.active.lookup handle = some entry → entry.1 ≠ dst) := by
  obtain ⟨nat, vp, hins, hfree, hr, -, -, htotal, hres⟩ :=
    processInbound_new_flow alloc hw.wf hx hsyn hnew hroom
  refine ⟨nat, vp, hins, htotal, ?_⟩
  intro s' hproc
  obtain ⟨pkt, -, rfl⟩ := hres s' hproc
  cases hany : w.inner.active.anyValue fun entry => entry.1 == dst with
  | true =>
    -- the tables are those of before, and there the port belongs to nobody
    obtain ⟨handle, entry, he, hd⟩ := Table.anyValue_iff.mp hany
    have hsame : Inner.admitted alloc w.inner nat vp dst = { w.inner with nat } := if_pos hany
    have hno : ¬OwnListener w.inner vp dst := not_ownListener_of_unmapped hw.wf hfree
    rw [hsame]
    constructor
    · exact fun hown => absurd hown hno
    · exact fun hall => absurd (beq_iff_eq.mp hd) (hall handle entry he)
  | false =>
    -- a listener on the new port, and by assumption of the case nobody else for the remote
    have hopen : Inner.admitted alloc w.inner nat vp dst =
        Inner.createListener alloc { w.inner with nat } vp dst := if_neg (by simp [hany])
    rw [hopen]
    refine iff_of_true (ownListener_of_opened (Inner.createListener_opened _ _ _ hr.ne_zero) pkt) ?_
    intro handle entry he hd
    have htrue := Table.anyValue_iff (p := fun entry => entry.1 == dst).mpr
      ⟨handle, entry, he, beq_iff_eq.mpr hd⟩
    exact absurd (hany.symm.trans htrue) Bool.false_ne_true

end

def exampleIp : Ipv4Addr := ⟨93, 184, 216, 34⟩

theorem first_flow_gets_own_listener : ∃ nat vp s,
    NatTable.new.insert (.v4 ⟨10, 0, 0, 1⟩ 40000) (.v4 exampleIp 443) = .ok (nat, some vp) ∧
    Inner.processInbound .lowest (Inner.new 1500) (synPacket exampleIp 40000) = .ok s ∧
    OwnListener s vp (.v4 exampleIp 443) := by
  obtain ⟨nat, vp, hins, htotal, hiff⟩ := new_flow_gets_own_listener_iff (reachable_init 1500)
    (synPacket_addrs exampleIp 40000) rfl rfl ⟨10000, ⟨by decide, by decide⟩, rfl⟩
  obtain ⟨s, hs⟩ := htotal (by decide)
  refine ⟨nat, vp, s, hins, hs, (hiff s hs).mpr ?_⟩
  intro handle entry he
  simp [World.init, Inner.new] at he

/-- A second SYN to the same remote, from another source port, gets a virtual port and no
listener. -/
theorem second_flow_gets_no_listener : ∃ w nat vp s, Reachable .lowest w ∧
    extractTcpAddrs (synPacket exampleIp 40001) =
      .ok (some (.v4 ⟨10, 0, 0, 1⟩ 40001, .v4 exampleIp 443)) ∧
    isTcpSyn (synPacket exampleIp 40001) = .ok true ∧
    w.inner.nat.lookupForward (.v4 ⟨10, 0, 0, 1⟩ 40001) (.v4 exampleIp 443) = none ∧
    w.inner.nat.insert (.v4 ⟨10, 0, 0, 1⟩ 40001) (.v4 exampleIp 443) = .ok (nat, some vp) ∧
    Inner.processInbound .lowest w.inner (synPacket exampleIp 40001) = .ok s ∧
    ¬OwnListener s vp (.v4 exampleIp 443) := by
  obtain ⟨nat, vp, pkt, s, hs, -, hr, hf, hb, ho⟩ :=
    first_syn (synPacket_addrs exampleIp 40000) rfl (by decide)
  have hw := reachable_first_syn hs
  have hsnat : s.nat = nat := ho.nat
  have hnew : s.nat.lookupForward (.v4 ⟨10, 0, 0, 1⟩ 40001) (.v4 exampleIp 443) = none := by
    rw [hsnat, NatTable.lookupForward, hf, Finmap.lookup_insert_of_ne _ (by decide)]
    rfl
  have hroom : ∃ v, NatTable.InRange v ∧ s.nat.lookupReverse v = none := by
    obtain ⟨v, hv, hne⟩ : ∃ v, NatTable.InRange v ∧ v ≠ vp := by
      rcases eq_or_ne vp 10000 with rfl | hne
      · exact ⟨10001, ⟨by decide, by decide⟩, by decide⟩
      · exact ⟨10000, ⟨by decide, by decide⟩, hne.symm⟩
    refine ⟨v, hv, ?_⟩
    rw [hsnat, NatTable.lookupReverse, hb, Finmap.lookup_insert_of_ne _ hne]
    rfl
  obtain ⟨nat2, vp2, hins, hfree, -, -, -, htotal, hres⟩ :=
    processInbound_new_flow .lowest hw.wf (synPacket_addrs exampleIp 40001) rfl hnew
      hroom
  obtain ⟨s', hs'⟩ := htotal (by decide)
  obtain ⟨pkt2, -, rfl⟩ := hres s' hs'
  have hany : s.active.anyValue (fun entry => entry.1 == .v4 exampleIp 443) = true :=
    Table.anyValue_iff.mpr ⟨_, _, ho.active ▸ Finmap.lookup_insert _, beq_self_eq_true _⟩
  have hno : ¬OwnListener (s.pushRx pkt) vp2 (.v4 exampleIp 443) :=
    not_ownListener_of_unmapped hw.wf hfree
  refine ⟨_, nat2, vp2, _, hw, synPacket_addrs exampleIp 40001, rfl, hnew, hins, hs', ?_⟩
  rw [Inner.admitted, if_pos (show (s.pushRx pkt).active.anyValue _ = true from hany)]
  exact hno

/-- A new handle appears only where `create_listener` ran on a port it can listen on, and
then the rewritten packet was pushed to the device. -/
theorem new_socket_listens {alloc : Allocator} {s s' : Inner} {raw : Bytes}
    {handle : SocketHandle} {sock : TcpSocket} (h : Inner.processInbound alloc s raw = .ok s')
    (hnew : s.sockets.lookup handle = none) (hsock : s'.sockets.lookup handle = some sock) :
    ∃ vp pkt, sock.listenEndpoint = some (ifaceIp, vp) ∧ rewriteInbound raw vp = .ok (true, pkt) ∧
      s'.device.rx = s.device.rx ++ [pkt] := by
  have hne (t : Inner) (ht : t.sockets = s.sockets) (h : t.sockets.lookup handle = some sock) :
      False := Option.some_ne_none sock (h.symm.trans (ht ▸ hnew))
  obtain ⟨rfl, -⟩ | ⟨nat, -, -, -, rfl⟩ | ⟨vp, pkt, -, -, -, rfl⟩ |
      ⟨nat, vp, pkt, -, -, -, hrw, rfl⟩ :=
    Inner.processInbound_cases h
  · exact (hne _ rfl hsock).elim
  · exact (hne _ rfl hsock).elim
  · exact (hne _ rfl hsock).elim
  -- on port zero `listen` fails and no socket is added
  rcases eq_or_ne vp 0 with rfl | hv
  · unfold Inner.admitted at hsock
    split_ifs at hsock
    · exact (hne _ rfl hsock).elim
    · exact (hne _ rfl hsock).elim
  rcases Inner.admitted_cases alloc s nat (dstEndpoint raw) hv with hsame | ho
  · rw [hsame] at hsock
    exact (hne _ rfl hsock).elim
  have hlookup : (Finmap.insert (alloc.pick s.sockets)
      (⟨.listen, some (ifaceIp, vp), [], []⟩ : TcpSocket) s.sockets).lookup handle = some sock :=
    (congrArg (Finmap.lookup handle) ho.sockets).symm.trans hsock
  rw [Table.lookup_insert_eq] at hlookup
  split_ifs at hlookup
  · refine ⟨vp, pkt, congrArg TcpSocket.listenEndpoint (Option.some.inj hlookup).symm, hrw, ?_⟩
    exact congrArg (fun d : TunVirtualDevice => d.rx ++ [pkt]) ho.device
  · exact (Option.some_ne_none sock (hlookup.symm.trans hnew)).elim

/-- The destination of the packet handed to smoltcp is the endpoint the new listener is
bound to exactly if the app addressed the stack's own interface. -/
theorem pushed_syn_matches_listener_iff {alloc : Allocator} {s s' : Inner} {raw pkt : Bytes}
    {view : Proto.Ipv4View} {src : SocketAddr} {ip : Ipv4Addr} {port : UInt16}
    {handle : SocketHandle} {sock : TcpSocket} (hview : Proto.Ipv4View.parse raw = .ok view)
    (hx : extractTcpAddrs raw = .ok (some (src, .v4 ip port)))
    (h : Inner.processInbound alloc s raw = .ok s') (hnew : s.sockets.lookup handle = none)
    (hsock : s'.sockets.lookup handle = some sock)
    (hpush : s'.device.rx = s.device.rx ++ [pkt]) :
    ∃ addr vport, sock.listenEndpoint = some (addr, vport) ∧
      ((∃ src', extractTcpAddrs pkt = .ok (some (src', .v4 addr vport))) ↔ ip = ifaceIp) := by
  obtain ⟨hp, -, hdst⟩ := extractTcpAddrs_eq_some hx
  obtain ⟨rfl, -⟩ := SocketAddr.v4.inj hdst
  obtain ⟨vp, q, hlisten, hrw, hrx⟩ := new_socket_listens h hnew hsock
  -- the one packet pushed is the rewritten SYN, with the address it came with
  obtain rfl : q = pkt :=
    List.singleton_inj.mp (List.append_cancel_left (hrx.symm.trans hpush))
  have h20 : 20 ≤ ihl raw := Proto.Ipv4View.bytes_of_parse hview ▸ view.ihl_ge
  obtain ⟨hpo, -, hdo⟩ := rewriteInbound_addrs hp h20 hrw
  refine ⟨ifaceIp, vp, hlisten, ?_⟩
  constructor
  · rintro ⟨src', hx'⟩
    have hdst' := (extractTcpAddrs_eq_some hx').2.2
    exact (SocketAddr.v4.inj (hdst'.trans hdo)).1.symm
  · intro hip
    rw [hip] at hdo
    exact ⟨srcEndpoint q, by rw [extractTcpAddrs_eq, if_pos hpo, hdo]⟩

theorem syn_to_interface_matches_listener : ∃ s pkt sock addr vport src,
    Inner.processInbound .lowest (Inner.new 1500) (synPacket ifaceIp 40000) = .ok s ∧
    s.device.rx = [pkt] ∧ s.sockets.lookup (Allocator.lowest.pick ∅) = some sock ∧
    sock.listenEndpoint = some (addr, vport) ∧
    extractTcpAddrs pkt = .ok (some (src, .v4 addr vport)) := by
  have hx := synPacket_addrs ifaceIp 40000
  obtain ⟨nat, vp, pkt, s, hs, -, -, -, -, ho⟩ := first_syn hx rfl (by decide)
  obtain ⟨view, hview⟩ := (Proto.Ipv4View.parse_accepts_iff (synPacket ifaceIp 40000)).mpr
    ⟨by decide, by decide, by decide⟩
  have hrx : (s.pushRx pkt).device.rx = [pkt] :=
    congrArg (fun d : TunVirtualDevice => d.rx ++ [pkt]) ho.device
  have hsock := (congrArg (Finmap.lookup _) ho.sockets).trans (Finmap.lookup_insert _)
  obtain ⟨addr, vport, hep, hiff⟩ := pushed_syn_matches_listener_iff hview hx hs rfl hsock hrx
  obtain ⟨src, hsrc⟩ := hiff.mpr rfl
  exact ⟨_, pkt, _, addr, vport, src, hs, hrx, hsock, hep, hsrc⟩

/-- The listener for 93.184.216.34 is bound to 10.0.2.2, and the SYN pushed for it is still
addressed to 93.184.216.34. -/
theorem pushed_syn_misses_listener : ∃ s pkt sock vport,
    Inner.processInbound .lowest (Inner.new 1500) (synPacket exampleIp 40000) = .ok s ∧
    s.device.rx = [pkt] ∧ s.sockets.lookup (Allocator.lowest.pick ∅) = some sock ∧
    sock.listenEndpoint = some (⟨10, 0, 2, 2⟩, vport) ∧
    extractTcpAddrs pkt =
      .ok (some (.v4 ⟨10, 0, 0, 1⟩ 40000, .v4 ⟨93, 184, 216, 34⟩ vport)) ∧
    ∀ src, extractTcpAddrs pkt ≠ .ok (some (src, .v4 ⟨10, 0, 2, 2⟩ vport)) := by
  have hx := synPacket_addrs exampleIp 40000
  obtain ⟨hp, hsrc, hdst⟩ := extractTcpAddrs_eq_some hx
  obtain ⟨nat, vp, pkt, s, hs, hrw, -, -, -, ho⟩ := first_syn hx rfl (by decide)
  obtain ⟨hpo, hso, hdo⟩ := rewriteInbound_addrs hp (by decide) hrw
  have hsock := (congrArg (Finmap.lookup _) ho.sockets).trans (Finmap.lookup_insert _)
  have hpkt : extractTcpAddrs pkt = .ok (some (.v4 ⟨10, 0, 0, 1⟩ 40000, .v4 exampleIp vp)) := by
    rw [extractTcpAddrs_eq, if_pos hpo, hso, ← hsrc, hdo]
    rfl
  refine ⟨_, pkt, _, vp, hs, ?_, hsock, rfl, hpkt, ?_⟩
  · exact congrArg (fun d : TunVirtualDevice => d.rx ++ [pkt]) ho.device
  · intro src heq
    rw [hpkt] at heq
    have hdst := (Prod.mk.inj (Option.some.inj (Except.ok.inj heq))).2
    exact absurd (SocketAddr.v4.inj hdst).1 (by decide)

end GravitalShare.Stack
