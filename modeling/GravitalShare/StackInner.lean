import GravitalShare.StackConnection
import GravitalShare.StackNat
import GravitalShare.StackRewrite
import Mathlib.Data.Fintype.EquivFin

/-! The state behind the lock of the userspace stack and what one poll does to it. What
smoltcp computes in `Interface::poll` is data here. -/
namespace GravitalShare.Stack

def pendingCap : ℕ := 128

def ifaceIp : Ipv4Addr := ⟨10, 0, 2, 2⟩

abbrev SocketHandle := ℕ

abbrev SocketSet := Table SocketHandle TcpSocket

/-- `SocketSet::add` hands out some slot that is not in use. -/
structure Allocator where
  pick : SocketSet → SocketHandle
  fresh : ∀ sockets : SocketSet, sockets.lookup (pick sockets) = none

/-- `SocketSet::add` of smoltcp takes the first empty slot. -/
def Allocator.lowest : Allocator where
  pick sockets := Nat.find (p := fun n => n ∉ sockets.keys) (Infinite.exists_notMem_finset _)
  fresh sockets := by
    have h := Nat.find_spec (p := fun n => n ∉ sockets.keys) (Infinite.exists_notMem_finset _)
    exact Finmap.lookup_eq_none.mpr fun hm => h (Finmap.mem_keys.mpr hm)

structure TunVirtualDevice where
  rx : List Bytes
  tx : List Bytes
  mtu : ℕ

/-- The two ends of a connection name the link between them. -/
structure VirtualConnection where
  localAddr : SocketAddr
  remote : SocketAddr
  link : ℕ

structure VirtualConnectionPeer where
  link : ℕ

/-- `links` holds the channels of all connections ever made, numbered in order. -/
structure Inner where
  device : TunVirtualDevice
  sockets : SocketSet
  nat : NatTable
  active : Table SocketHandle (SocketAddr × VirtualConnectionPeer)
  pending : List VirtualConnection
  tunTx : List Bytes
  tunRx : List Bytes
  links : ℕ → Link
  made : ℕ

namespace Inner

def new (mtu : UInt16) : Inner where
  device := ⟨[], [], mtu.toNat⟩
  sockets := ∅
  nat := NatTable.new
  active := ∅
  pending := []
  tunTx := []
  tunRx := []
  links := fun _ => Link.pair (.v4 ifaceIp 0) (.v4 ifaceIp 0)
  made := 0

end Inner

inductive StackError where
  | invalidMtu (mtu : UInt16)
  deriving DecidableEq, Repr

def UserspaceStack.new (mtu : UInt16) : Except StackError Inner :=
  if mtu < 576 ∨ mtu > 9000 then .error (.invalidMtu mtu) else .ok (Inner.new mtu)

namespace Inner

def feedInbound (s : Inner) (pkt : Bytes) : Inner := { s with tunRx := s.tunRx ++ [pkt] }

def pushRx (s : Inner) (pkt : Bytes) : Inner :=
  { s with device := { s.device with rx := s.device.rx ++ [pkt] } }

def setLink (s : Inner) (id : ℕ) (link : Link) : Inner :=
  { s with links := Function.update s.links id link }

section Inbound

variable (alloc : Allocator)

def createListener (s : Inner) (vport : UInt16) (realRemote : SocketAddr) : Inner :=
  match TcpSocket.new.listen ifaceIp vport with
  | none => s
  | some socket =>
    -- the listener exists whether or not anybody will accept the connection
    let handle := alloc.pick s.sockets
    let link := Link.pair (.v4 ifaceIp vport) realRemote
    let s' := { s with
      sockets := s.sockets.insert handle socket
      active := s.active.insert handle (realRemote, ⟨s.made⟩)
      made := s.made+1 }
    if s.pending.length < pendingCap then
      { s'.setLink s.made link with
        pending := s.pending ++ [⟨.v4 ifaceIp vport, realRemote, s.made⟩] }
    -- on overflow `conn` is dropped at the end of the function
    else s'.setLink s.made link.dropConn

/-- The SYN branch of `process_inbound`. -/
def acceptSyn (s : Inner) (src realDst : SocketAddr) : Exec (Inner × Option UInt16) := do
  let (nat, vport) ← s.nat.insert src realDst
  let s := { s with nat }
  match vport with
  | some vp =>
    -- the test looks at the remote alone, not at the flow
    if s.active.anyValue fun entry => entry.1 == realDst then .ok (s, some vp)
    else .ok (createListener alloc s vp realDst, some vp)
  | none => .ok (s, none)

-- the tail of `process_inbound`; without a virtual port the packet is dropped
def deliver (raw : Bytes) (s : Inner) : Option UInt16 → Exec Inner
  | none => .ok s
  | some vp => do
    let (rewritten, pkt) ← rewriteInbound raw vp
    .ok (if rewritten then s.pushRx pkt else s)

def processInbound (s : Inner) (raw : Bytes) : Exec Inner := do
  match ← extractTcpAddrs raw with
  | none => .ok s
  | some (src, realDst) =>
    -- a SYN may open a flow, any other segment has to belong to one
    let syn ← isTcpSyn raw
    let (s, vport) ← if syn then acceptSyn alloc s src realDst
      else .ok (s, s.nat.lookupForward src realDst)
    deliver raw s vport

end Inbound

/-- What `Interface::poll` left behind: any sockets under the same handles, any device
queues. The order in which the hash map lists its keys and the length of the contiguous
slice of each receive buffer are not determined by the code either. -/
structure PollEnv where
  sockets : SocketSet
  rx : List Bytes
  tx : List Bytes
  progress : Bool
  order : List SocketHandle
  contig : SocketHandle → ℕ

structure PollEnv.Fits (env : PollEnv) (s : Inner) : Prop where
  handles : ∀ h, h ∈ env.sockets ↔ h ∈ s.sockets
  nodup : env.order.Nodup
  order : ∀ h, h ∈ env.order ↔ h ∈ s.active

/-- The case of one socket. -/
theorem PollEnv.fits_single {env : PollEnv} {s : Inner} {handle : SocketHandle} {sock : TcpSocket}
    {entry : SocketAddr × VirtualConnectionPeer} (hm : ∀ h, h ∈ s.active ↔ h ∈ s.sockets)
    (hactive : s.active = Finmap.insert handle entry ∅)
    (hsockets : env.sockets = Finmap.insert handle sock ∅) (horder : env.order = [handle]) :
    env.Fits s := by
  have hkeys (h : SocketHandle) : h ∈ s.active ↔ h = handle := by
    rw [hactive, Finmap.mem_insert]
    exact or_iff_left Finmap.notMem_empty
  refine ⟨?_, ?_, ?_⟩
  · intro h
    rw [← hm, hkeys, hsockets, Finmap.mem_insert]
    exact or_iff_left Finmap.notMem_empty
  · rw [horder]
    exact List.nodup_singleton handle
  · intro h
    rw [horder, hkeys, List.mem_singleton]

def drive (env : PollEnv) (s : Inner) : Inner :=
  { s with sockets := env.sockets, device := { s.device with rx := env.rx, tx := env.tx } }

def setSocket (s : Inner) (handle : SocketHandle) (sock : TcpSocket) : Inner :=
  { s with sockets := s.sockets.insert handle sock }

-- `sockets.get_mut` panics on a handle that is not in the set
def serviceSocket (contig : ℕ) (s : Inner) (handle : SocketHandle) : Exec (Bool × Inner) :=
  match s.sockets.lookup handle with
  | none => .error .unwrapNone
  | some sock =>
    if sock.isGone then .ok (true, s)
    else match s.active.lookup handle with
      | none => .ok (true, s)
      | some (_, peer) =>
        let (sock, link) := serviceLink contig sock (s.links peer.link)
        .ok (false, (s.setSocket handle sock).setLink peer.link link)

-- every port of the range is tried, for a mapping to the same remote
def vportOfHandle (s : Inner) (handle : SocketHandle) : Option UInt16 :=
  match s.active.lookup handle with
  | none => none
  | some (realRemote, _) =>
    ((List.range' 10000 50000).map UInt16.ofNat).find? fun vport =>
      match s.nat.lookupReverse vport with
      | some (_, rd) => rd == realRemote
      | none => false

/-- The body of `if closed` in the service loop. -/
def closeSocket (s : Inner) (handle : SocketHandle) : Exec Inner :=
  match s.active.lookup handle with
  | none => .error .unwrapNone
  | some (_, peer) =>
    -- from here on the handle is not in `active`
    let s := { s with active := s.active.erase handle }
    let s := match vportOfHandle s handle with
      | some vp => { s with nat := s.nat.removeByVport vp }
      | none => s
    match s.sockets.lookup handle with
    | none => .error .unwrapNone
    | some _ => .ok ({ s with sockets := s.sockets.erase handle }.setLink peer.link
        (s.links peer.link).dropPeer)

def serviceLoop (contig : SocketHandle → ℕ) : List SocketHandle → Bool → Inner →
    Exec (Bool × Inner)
  | [], needMore, s => .ok (needMore, s)
  | handle :: rest, needMore, s => do
    let (closed, s) ← serviceSocket (contig handle) s handle
    if closed then do
      let s ← closeSocket s handle
      serviceLoop contig rest true s
    else serviceLoop contig rest needMore s

/-- One packet of smoltcp's transmit queue; `none` is a packet that is not mapped. -/
def forwardOutbound (nat : NatTable) (pkt : Bytes) : Exec (Option Bytes) := do
  let vport ← outboundSrcPort pkt
  match vport.bind nat.lookupReverse with
  | none => .ok none
  | some (_, .v4 ip port) => do
    -- the flag is ignored: the packet goes out rewritten or not
    let (_, pkt) ← rewriteOutbound pkt ip port
    .ok (some pkt)
  | some (_, .v6 _ _ _ _) => .ok (some pkt)

def drainLoop (nat : NatTable) : List Bytes → List Bytes → Exec (List Bytes)
  | [], tunTx => .ok tunTx
  | pkt :: rest, tunTx => do
    let out ← forwardOutbound nat pkt
    drainLoop nat rest (tunTx ++ out.toList)

def ingestLoop (alloc : Allocator) : List Bytes → Inner → Exec Inner
  | [], s => .ok s
  | raw :: rest, s => do
    let s ← processInbound alloc { s with tunRx := rest } raw
    ingestLoop alloc rest s

def poll (alloc : Allocator) (env : PollEnv) (s : Inner) : Exec (Bool × Inner) := do
  -- packets from the TUN, then smoltcp, then the sockets, then packets to the TUN
  let s ← ingestLoop alloc s.tunRx s
  let s := drive env s
  let (needMore, s) ← serviceLoop env.contig env.order env.progress s
  let tunTx ← drainLoop s.nat s.device.tx s.tunTx
  .ok (needMore, { s with tunTx, device := { s.device with tx := [] } })

theorem deliver_some {s s' : Inner} {raw : Bytes} {vp : UInt16} (hp : IsIpv4Tcp 20 raw)
    (h : deliver raw s (some vp) = .ok s') :
    ∃ pkt, rewriteInbound raw vp = .ok (true, pkt) ∧ s' = s.pushRx pkt := by
  obtain ⟨⟨b, pkt⟩, hr, h⟩ := Exec.bind_eq_ok.mp h
  obtain ⟨rfl, -⟩ := rewriteInbound_ok hp hr
  exact ⟨pkt, hr, (Except.ok.inj h).symm⟩

section

variable {alloc : Allocator} {s s' : Inner} {raw : Bytes}

/-- The stack after a SYN got the virtual port `vp`. -/
def admitted (alloc : Allocator) (s : Inner) (nat : NatTable) (vp : UInt16)
    (realDst : SocketAddr) : Inner :=
  if s.active.anyValue fun entry => entry.1 == realDst then { s with nat }
  else createListener alloc { s with nat } vp realDst

theorem acceptSyn_some {src dst : SocketAddr} {nat : NatTable} {vp : UInt16}
    (h : s.nat.insert src dst = .ok (nat, some vp)) :
    acceptSyn alloc s src dst = .ok (admitted alloc s nat vp dst, some vp) := by
  simp only [acceptSyn, h, Exec.ok_bind, admitted]
  split_ifs <;> rfl

theorem acceptSyn_none {src dst : SocketAddr} {nat : NatTable}
    (h : s.nat.insert src dst = .ok (nat, none)) :
    acceptSyn alloc s src dst = .ok ({ s with nat }, none) := by
  simp only [acceptSyn, h, Exec.ok_bind]

theorem processInbound_of_not (hp : ¬IsIpv4Tcp 20 raw) : processInbound alloc s raw = .ok s := by
  simp only [processInbound, extractTcpAddrs_eq, Exec.ok_bind, if_neg hp]

theorem processInbound_of_syn (hp : IsIpv4Tcp 20 raw) (hsyn : synFlag raw = true) :
    processInbound alloc s raw = acceptSyn alloc s (srcEndpoint raw) (dstEndpoint raw) >>=
      fun p => deliver raw p.1 p.2 := by
  simp only [processInbound, extractTcpAddrs_eq, if_pos hp, Exec.ok_bind, isTcpSyn_eq hp, hsyn,
    ↓reduceIte]

theorem processInbound_of_flow (hp : IsIpv4Tcp 20 raw) (hsyn : synFlag raw = false) :
    processInbound alloc s raw =
      deliver raw s (s.nat.lookupForward (srcEndpoint raw) (dstEndpoint raw)) := by
  simp only [processInbound, extractTcpAddrs_eq, if_pos hp, Exec.ok_bind, isTcpSyn_eq hp, hsyn,
    Bool.false_eq_true, ↓reduceIte]

/-- Everything `process_inbound` can do: ignore a packet that names no flow, find the table full,
pass a packet of a known flow on, or admit a SYN and pass it on. -/
theorem processInbound_cases (h : processInbound alloc s raw = .ok s') :
    (s' = s ∧ (IsIpv4Tcp 20 raw → synFlag raw = false ∧
      s.nat.lookupForward (srcEndpoint raw) (dstEndpoint raw) = none)) ∨
    (∃ nat, IsIpv4Tcp 20 raw ∧ synFlag raw = true ∧
      s.nat.insert (srcEndpoint raw) (dstEndpoint raw) = .ok (nat, none) ∧ s' = { s with nat }) ∨
    (∃ vp pkt, IsIpv4Tcp 20 raw ∧
      s.nat.lookupForward (srcEndpoint raw) (dstEndpoint raw) = some vp ∧
      rewriteInbound raw vp = .ok (true, pkt) ∧ s' = s.pushRx pkt) ∨
    (∃ nat vp pkt, IsIpv4Tcp 20 raw ∧ synFlag raw = true ∧
      s.nat.insert (srcEndpoint raw) (dstEndpoint raw) = .ok (nat, some vp) ∧
      rewriteInbound raw vp = .ok (true, pkt) ∧
      s' = (admitted alloc s nat vp (dstEndpoint raw)).pushRx pkt) := by
  by_cases hp : IsIpv4Tcp 20 raw
  · cases hsyn : synFlag raw with
    | false =>
      -- no SYN: the flow has to be known
      rw [processInbound_of_flow hp hsyn] at h
      cases hv : s.nat.lookupForward (srcEndpoint raw) (dstEndpoint raw) with
      | none =>
        rw [hv] at h
        exact Or.inl ⟨(Except.ok.inj h).symm, fun _ => ⟨rfl, rfl⟩⟩
      | some vp =>
        rw [hv] at h
        obtain ⟨pkt, hr, hs'⟩ := deliver_some hp h
        exact Or.inr (Or.inr (Or.inl ⟨vp, pkt, hp, rfl, hr, hs'⟩))
    | true =>
      -- a SYN: the outcome of the table decides
      rw [processInbound_of_syn hp hsyn] at h
      obtain ⟨p, hadm, hdel⟩ := Exec.bind_eq_ok.mp h
      obtain ⟨⟨nat, vport⟩, hins, -⟩ := Exec.bind_eq_ok.mp hadm
      cases vport with
      | none =>
        obtain rfl := Except.ok.inj ((acceptSyn_none hins).symm.trans hadm)
        exact Or.inr (Or.inl ⟨nat, hp, rfl, hins, (Except.ok.inj hdel).symm⟩)
      | some vp =>
        obtain rfl := Except.ok.inj ((acceptSyn_some hins).symm.trans hadm)
        obtain ⟨pkt, hr, hs'⟩ := deliver_some hp hdel
        exact Or.inr (Or.inr (Or.inr ⟨nat, vp, pkt, hp, rfl, hins, hr, hs'⟩))
  · rw [processInbound_of_not hp] at h
    exact Or.inl ⟨(Except.ok.inj h).symm, fun hp' => absurd hp' hp⟩

end

/-- What `create_listener` adds to the state when the socket can listen. -/
structure Opened (s s' : Inner) (handle : SocketHandle) (vport : UInt16) (remote : SocketAddr) :
    Prop where
  sockets : s'.sockets = s.sockets.insert handle
    ⟨.listen, some (ifaceIp, vport), [], []⟩
  active : s'.active = s.active.insert handle (remote, ⟨s.made⟩)
  nat : s'.nat = s.nat
  made : s'.made = s.made+1
  link : s'.links s.made = Link.pair (.v4 ifaceIp vport) remote ∨
    s'.links s.made = (Link.pair (.v4 ifaceIp vport) remote).dropConn
  links : ∀ id, id ≠ s.made → s'.links id = s.links id
  pending : s'.pending = s.pending ++ [⟨.v4 ifaceIp vport, remote, s.made⟩] ∧
      s.pending.length < pendingCap ∨ s'.pending = s.pending ∧ pendingCap ≤ s.pending.length
  device : s'.device = s.device
  queues : s'.tunTx = s.tunTx ∧ s'.tunRx = s.tunRx

theorem createListener_opened (alloc : Allocator) (s : Inner) (remote : SocketAddr)
    {vport : UInt16} (hv : vport ≠ 0) :
    Opened s (createListener alloc s vport remote) (alloc.pick s.sockets) vport remote := by
  have hlisten : TcpSocket.new.listen ifaceIp vport =
      some ⟨.listen, some (ifaceIp, vport), [], []⟩ := if_neg hv
  simp only [createListener, hlisten]
  split_ifs with hroom
  · exact ⟨rfl, rfl, rfl, rfl, Or.inl (Function.update_self _ _ _),
      fun id hid => Function.update_of_ne hid _ _, Or.inl ⟨rfl, hroom⟩, rfl, rfl, rfl⟩
  · exact ⟨rfl, rfl, rfl, rfl, Or.inr (Function.update_self _ _ _),
      fun id hid => Function.update_of_ne hid _ _, Or.inr ⟨rfl, Nat.not_lt.mp hroom⟩, rfl, rfl,
      rfl⟩

/-- With room in `pending` the new connection waits there, with both its channels open. -/
theorem createListener_waits (alloc : Allocator) {s : Inner} (remote : SocketAddr)
    {vport : UInt16} (hv : vport ≠ 0) (hroom : s.pending.length < pendingCap) :
    (createListener alloc s vport remote).links s.made = Link.pair (.v4 ifaceIp vport) remote ∧
      (createListener alloc s vport remote).pending =
        s.pending ++ [⟨.v4 ifaceIp vport, remote, s.made⟩] := by
  have hlisten : TcpSocket.new.listen ifaceIp vport =
      some ⟨.listen, some (ifaceIp, vport), [], []⟩ := if_neg hv
  simp only [createListener, hlisten, if_pos hroom, and_true]
  exact Function.update_self _ _ _

/-- With a port it can listen on, an admitted SYN changes the NAT table alone or opens a
listener as well. -/
theorem admitted_cases (alloc : Allocator) (s : Inner) (nat : NatTable) (dst : SocketAddr)
    {vp : UInt16} (hv : vp ≠ 0) :
    admitted alloc s nat vp dst = { s with nat } ∨
      Opened { s with nat } (admitted alloc s nat vp dst) (alloc.pick s.sockets) vp dst := by
  unfold admitted
  split_ifs
  · exact Or.inl rfl
  · exact Or.inr (createListener_opened alloc { s with nat } dst hv)

theorem serviceSocket_cases {contig : ℕ} {s s' : Inner} {handle : SocketHandle} {closed : Bool}
    (h : serviceSocket contig s handle = .ok (closed, s')) :
    ∃ sock, s.sockets.lookup handle = some sock ∧
      ((closed = true ∧ s' = s ∧ (sock.isGone = true ∨ s.active.lookup handle = none)) ∨
      (closed = false ∧ sock.isGone = false ∧ ∃ remote peer,
        s.active.lookup handle = some (remote, peer) ∧
        s' = (s.setSocket handle (serviceLink contig sock (s.links peer.link)).1).setLink peer.link
          (serviceLink contig sock (s.links peer.link)).2)) := by
  unfold serviceSocket at h
  cases hs : s.sockets.lookup handle with
  | none => simp [hs] at h
  | some sock =>
    refine ⟨sock, rfl, ?_⟩
    simp only [hs] at h
    cases hg : sock.isGone with
    | true =>
      obtain ⟨rfl, rfl⟩ := Prod.mk.inj (Except.ok.inj ((if_pos hg).symm.trans h))
      exact Or.inl ⟨rfl, rfl, Or.inl rfl⟩
    | false =>
      rw [hg, if_neg Bool.false_ne_true] at h
      cases ha : s.active.lookup handle with
      | none =>
        rw [ha] at h
        obtain ⟨rfl, rfl⟩ := Prod.mk.inj (Except.ok.inj h)
        exact Or.inl ⟨rfl, rfl, Or.inr rfl⟩
      | some entry =>
        rw [ha] at h
        obtain ⟨rfl, rfl⟩ := Prod.mk.inj (Except.ok.inj h)
        exact Or.inr ⟨rfl, rfl, entry.1, entry.2, rfl, rfl⟩

/-- The entry is taken out of `active` before the search for its port, which therefore
finds nothing: the NAT table is left as it was. -/
theorem closeSocket_eq {s : Inner} {handle : SocketHandle} {remote : SocketAddr}
    {peer : VirtualConnectionPeer} (ha : s.active.lookup handle = some (remote, peer))
    (hs : handle ∈ s.sockets) :
    closeSocket s handle = .ok { s with
      active := s.active.erase handle
      sockets := s.sockets.erase handle
      links := Function.update s.links peer.link (s.links peer.link).dropPeer } := by
  obtain ⟨sock, hsock⟩ := Finmap.mem_iff.mp hs
  have hnone : vportOfHandle { s with active := s.active.erase handle } handle = none := by
    simp only [vportOfHandle, Finmap.lookup_erase]
  simp only [closeSocket, ha, hnone, hsock]
  rfl

theorem closeSocket_ok {s s' : Inner} {handle : SocketHandle}
    (h : closeSocket s handle = .ok s') :
    ∃ remote peer, s.active.lookup handle = some (remote, peer) ∧
      s' = { s with
        active := s.active.erase handle
        sockets := s.sockets.erase handle
        links := Function.update s.links peer.link (s.links peer.link).dropPeer } := by
  cases ha : s.active.lookup handle with
  | none => simp [closeSocket, ha] at h
  | some entry =>
    by_cases hs : handle ∈ s.sockets
    · rw [closeSocket_eq ha hs] at h
      exact ⟨entry.1, entry.2, rfl, (Except.ok.inj h).symm⟩
    · have hnone : vportOfHandle { s with active := s.active.erase handle } handle = none := by
        simp only [vportOfHandle, Finmap.lookup_erase]
      simp [closeSocket, ha, hnone, Finmap.lookup_eq_none.mpr hs] at h

end Inner

end GravitalShare.Stack
