import GravitalShare.StackInner
import GravitalShare.StackStream

/-! The userspace stack as a transition system. A poll holds the lock and is cut into its
turns, since the relay tasks work on the channels without the lock. -/
namespace GravitalShare.Stack

/-- Who holds the lock: nobody, or a poll at one of its loops. In `serve` the head of the
list is the socket under service. -/
inductive Pc where
  | idle
  | ingest
  | serve (phase : Phase) (rest : List SocketHandle)
  | drain

structure World where
  inner : Inner
  pc : Pc
  relays : List VirtualConnection

inductive Act where
  | feedInbound (pkt : Bytes)
  | drainOutbound
  | accept
  | beginPoll
  | ingest (raw : Bytes)
  | smoltcp (env : Inner.PollEnv)
  | service (handle : SocketHandle) (a : ServiceAct)
  | close (handle : SocketHandle)
  | endService
  | forward (pkt : Bytes)
  | endPoll
  | relay (link : ℕ) (a : RelayAct)

/-- The next program point of the service loop. -/
def Pc.next (phase : Phase) (handle : SocketHandle) (rest : List SocketHandle) : Pc :=
  .serve phase (if phase = .idle then rest else handle :: rest)

inductive Step (alloc : Allocator) : World → Act → World → Prop
  -- the three calls of the tasks around the stack, each under the lock
  | feedInbound {s : Inner} {relays : List VirtualConnection} (pkt : Bytes) :
      Step alloc ⟨s, .idle, relays⟩ (.feedInbound pkt) ⟨s.feedInbound pkt, .idle, relays⟩
  | drainOutbound {s : Inner} {relays : List VirtualConnection} {pkt : Bytes} {rest : List Bytes}
      (h : s.tunTx = pkt :: rest) :
      Step alloc ⟨s, .idle, relays⟩ .drainOutbound ⟨{ s with tunTx := rest }, .idle, relays⟩
  | accept {s : Inner} {relays rest : List VirtualConnection} {conn : VirtualConnection}
      (h : s.pending = conn :: rest) :
      Step alloc ⟨s, .idle, relays⟩ .accept
        ⟨{ s with pending := rest }, .idle, relays ++ [conn]⟩
  -- one poll, loop by loop
  | beginPoll {s : Inner} {relays : List VirtualConnection} :
      Step alloc ⟨s, .idle, relays⟩ .beginPoll ⟨s, .ingest, relays⟩
  | ingest {s s' : Inner} {relays : List VirtualConnection} {raw : Bytes} {rest : List Bytes}
      (hq : s.tunRx = raw :: rest)
      (h : Inner.processInbound alloc { s with tunRx := rest } raw = .ok s') :
      Step alloc ⟨s, .ingest, relays⟩ (.ingest raw) ⟨s', .ingest, relays⟩
  -- smoltcp runs when the inbound queue is empty
  | smoltcp {s : Inner} {relays : List VirtualConnection} {env : Inner.PollEnv}
      (hq : s.tunRx = []) (hfit : env.Fits s) :
      Step alloc ⟨s, .ingest, relays⟩ (.smoltcp env) ⟨s.drive env, .serve .idle env.order, relays⟩
  | service {s : Inner} {relays : List VirtualConnection} {handle : SocketHandle}
      {rest : List SocketHandle} {sock : TcpSocket} {remote : SocketAddr}
      {peer : VirtualConnectionPeer} {phase : Phase} {a : ServiceAct} {c : Conn}
      (hs : s.sockets.lookup handle = some sock)
      (ha : s.active.lookup handle = some (remote, peer))
      (h : ServiceStep ⟨sock, s.links peer.link, phase⟩ a c) :
      Step alloc ⟨s, .serve phase (handle :: rest), relays⟩ (.service handle a)
        ⟨(s.setSocket handle c.sock).setLink peer.link c.link, .next c.phase handle rest, relays⟩
  | close {s s' : Inner} {relays : List VirtualConnection} {handle : SocketHandle}
      {rest : List SocketHandle} {sock : TcpSocket}
      (hs : s.sockets.lookup handle = some sock) (hg : sock.isGone = true)
      (h : s.closeSocket handle = .ok s') :
      Step alloc ⟨s, .serve .idle (handle :: rest), relays⟩ (.close handle)
        ⟨s', .serve .idle rest, relays⟩
  | endService {s : Inner} {relays : List VirtualConnection} :
      Step alloc ⟨s, .serve .idle [], relays⟩ .endService ⟨s, .drain, relays⟩
  | forward {s : Inner} {relays : List VirtualConnection} {pkt : Bytes} {rest : List Bytes}
      {out : Option Bytes} (hq : s.device.tx = pkt :: rest)
      (h : Inner.forwardOutbound s.nat pkt = .ok out) :
      Step alloc ⟨s, .drain, relays⟩ (.forward pkt)
        ⟨{ s with tunTx := s.tunTx ++ out.toList, device := { s.device with tx := rest } },
          .drain, relays⟩
  | endPoll {s : Inner} {relays : List VirtualConnection} (hq : s.device.tx = []) :
      Step alloc ⟨s, .drain, relays⟩ .endPoll ⟨s, .idle, relays⟩
  -- relay tasks share the channels with the poll and do not take the lock
  | relay {s : Inner} {pc : Pc} {relays : List VirtualConnection} {conn : VirtualConnection}
      {a : RelayAct} {link : Link} (hc : conn ∈ relays)
      (h : RelayStep (s.links conn.link) a link) :
      Step alloc ⟨s, pc, relays⟩ (.relay conn.link a) ⟨s.setLink conn.link link, pc, relays⟩

def World.init (mtu : UInt16) : World := ⟨Inner.new mtu, .idle, []⟩

/-- States the stack can be in, also in the middle of a poll. -/
def Reachable (alloc : Allocator) (w : World) : Prop :=
  ∃ mtu tr, Run (Step alloc) (World.init mtu) tr w

theorem Reachable.run {alloc : Allocator} {w w' : World} {tr : List (World × Act)}
    (hw : Reachable alloc w) (h : Run (Step alloc) w tr w') : Reachable alloc w' := by
  obtain ⟨mtu, tr', hrun⟩ := hw
  exact ⟨mtu, _, hrun.append h⟩

namespace Inner

/-- Nothing changed that the bookkeeping of connections depends on. -/
structure Frame (s s' : Inner) : Prop where
  nat : s'.nat = s.nat
  active : s'.active = s.active
  made : s'.made = s.made
  handles : ∀ h, h ∈ s'.sockets ↔ h ∈ s.sockets
  localAddr : ∀ id, (s'.links id).localAddr = (s.links id).localAddr
  remote : ∀ id, (s'.links id).remote = (s.links id).remote
  pending : s'.pending <:+ s.pending

/-- The tables of the stack agree with each other: every active socket has its own link,
made for a virtual port that the NAT table maps to the socket's remote. -/
structure Wf (s : Inner) : Prop where
  nat : s.nat.Valid
  handles : ∀ h, h ∈ s.active ↔ h ∈ s.sockets
  made : ∀ h entry, s.active.lookup h = some entry → entry.2.link < s.made
  own : ∀ h h' entry entry', s.active.lookup h = some entry → s.active.lookup h' = some entry' →
    entry.2.link = entry'.2.link → h = h'
  mapped : ∀ h entry, s.active.lookup h = some entry → ∃ vp src,
    (s.links entry.2.link).localAddr = .v4 ifaceIp vp ∧
    (s.links entry.2.link).remote = entry.1 ∧ s.nat.lookupReverse vp = some (src, entry.1)
  pending : s.pending.length ≤ pendingCap

theorem wf_new (mtu : UInt16) : (new mtu).Wf where
  nat := NatTable.valid_new
  handles := fun h => Iff.rfl
  made := fun h entry he => by simp [new] at he
  own := fun h h' entry entry' he => by simp [new] at he
  mapped := fun h entry he => by simp [new] at he
  pending := Nat.zero_le _

theorem Wf.frame {s s' : Inner} (hs : s.Wf) (h : Frame s s') : s'.Wf where
  nat := h.nat ▸ hs.nat
  handles := fun x => by rw [h.active, h.handles, hs.handles]
  made := fun x entry he => by
    rw [h.active] at he
    rw [h.made]
    exact hs.made x entry he
  own := fun x x' entry entry' he he' => by
    rw [h.active] at he he'
    exact hs.own x x' entry entry' he he'
  mapped := fun x entry he => by
    rw [h.active] at he
    rw [h.localAddr, h.remote, h.nat]
    exact hs.mapped x entry he
  pending := (h.pending.length_le).trans hs.pending

theorem Frame.pushRx (s : Inner) (pkt : Bytes) : Frame s (s.pushRx pkt) :=
  ⟨rfl, rfl, rfl, fun _ => Iff.rfl, fun _ => rfl, fun _ => rfl, List.suffix_refl _⟩

theorem Frame.popRx (s : Inner) (rest : List Bytes) : Frame s { s with tunRx := rest } :=
  ⟨rfl, rfl, rfl, fun _ => Iff.rfl, fun _ => rfl, fun _ => rfl, List.suffix_refl _⟩

theorem Frame.setLink (s : Inner) (id : ℕ) {link : Link}
    (h : link.localAddr = (s.links id).localAddr ∧ link.remote = (s.links id).remote) :
    Frame s (s.setLink id link) := by
  refine ⟨rfl, rfl, rfl, fun _ => Iff.rfl, fun i => ?_, fun i => ?_, List.suffix_refl _⟩ <;>
  · rcases eq_or_ne i id with rfl | hi
    · simp only [Inner.setLink, Function.update_self, h]
    · simp only [Inner.setLink, Function.update_of_ne hi]

theorem Frame.setSocket {s : Inner} {handle : SocketHandle} (h : handle ∈ s.sockets)
    (sock : TcpSocket) : Frame s (s.setSocket handle sock) := by
  refine ⟨rfl, rfl, rfl, ?_, fun _ => rfl, fun _ => rfl, List.suffix_refl _⟩
  intro x
  simp only [Inner.setSocket, Finmap.mem_insert]
  constructor
  · rintro (rfl | hx)
    · exact h
    · exact hx
  · exact Or.inr

theorem Frame.trans {s t u : Inner} (h : Frame s t) (h' : Frame t u) : Frame s u where
  nat := h'.nat.trans h.nat
  active := h'.active.trans h.active
  made := h'.made.trans h.made
  handles := fun x => (h'.handles x).trans (h.handles x)
  localAddr := fun id => (h'.localAddr id).trans (h.localAddr id)
  remote := fun id => (h'.remote id).trans (h.remote id)
  pending := h'.pending.trans h.pending

theorem Wf.setNat {s : Inner} (hs : s.Wf) {nat : NatTable} (hv : nat.Valid)
    (hext : s.nat.Extends nat) : ({ s with nat } : Inner).Wf :=
  { hs with
    nat := hv
    mapped := fun h entry he => by
      obtain ⟨vp, src, hl, hr, hm⟩ := hs.mapped h entry he
      exact ⟨vp, src, hl, hr, hext vp _ hm⟩ }

/-- A new listener keeps the tables in order when its port is mapped to its remote. -/
theorem Wf.opened {s s' : Inner} {handle : SocketHandle} {vport : UInt16}
    {src remote : SocketAddr} (hs : s.Wf) (ho : Opened s s' handle vport remote)
    (hm : s.nat.lookupReverse vport = some (src, remote)) :
    s'.Wf := by
  have hlookup (h : SocketHandle) : s'.active.lookup h =
      if h = handle then some (remote, ⟨s.made⟩) else s.active.lookup h := by
    rw [ho.active, Table.lookup_insert_eq]
  -- the new entry is the only one on the new link
  have hold {h : SocketHandle} {entry : SocketAddr × VirtualConnectionPeer}
      (he : s.active.lookup h = some entry) : entry.2.link ≠ s.made :=
    Nat.ne_of_lt (hs.made h entry he)
  refine ⟨ho.nat ▸ hs.nat, ?_, ?_, ?_, ?_, ?_⟩
  · -- both tables get the same new key
    intro h
    rw [ho.active, ho.sockets, Finmap.mem_insert, Finmap.mem_insert, hs.handles]
  · intro h entry he
    rw [hlookup] at he
    rw [ho.made]
    split_ifs at he
    · cases he
      exact Nat.lt_succ_self _
    · exact Nat.lt_succ_of_lt (hs.made h entry he)
  · -- of two entries on one link, both are new or both are old
    intro h h' entry entry' he he' heq
    rw [hlookup] at he he'
    split_ifs at he he' with h1 h2 h2
    · rw [h1, h2]
    · cases he
      exact absurd heq.symm (hold he')
    · cases he'
      exact absurd heq (hold he)
    · exact hs.own h h' entry entry' he he' heq
  · -- the link of the new entry was made for this port, the old links are untouched
    intro h entry he
    rw [hlookup] at he
    rw [ho.nat]
    split_ifs at he
    · cases he
      refine ⟨vport, src, ?_, ?_, hm⟩
      · rcases ho.link with hl | hl <;> rw [hl] <;> rfl
      · rcases ho.link with hl | hl <;> rw [hl] <;> rfl
    · rw [ho.links _ (hold he)]
      exact hs.mapped h entry he
  · rcases ho.pending with ⟨hp, hlt⟩ | ⟨hp, -⟩
    · rw [hp, List.length_append]
      exact hlt
    · rw [hp]
      exact hs.pending

section

variable {alloc : Allocator} {s s' : Inner} {raw : Bytes} {src dst : SocketAddr}
  {nat : NatTable} {vp : UInt16}

theorem Wf.admitted (hs : s.Wf) (hins : s.nat.insert src dst = .ok (nat, some vp)) :
    (admitted alloc s nat vp dst).Wf := by
  obtain ⟨hv, hext, hm, hr⟩ := NatTable.insert_some hs.nat hins
  have hnat := hs.setNat hv hext
  rcases admitted_cases alloc s nat dst hr.ne_zero with hsame | ho
  · rw [hsame]
    exact hnat
  · exact hnat.opened ho hm

theorem Wf.processInbound (hs : s.Wf) (h : processInbound alloc s raw = .ok s') : s'.Wf := by
  obtain ⟨rfl, -⟩ | ⟨nat, -, -, hins, rfl⟩ | ⟨vp, pkt, -, -, -, rfl⟩ |
      ⟨nat, vp, pkt, _, _, hins, _, rfl⟩ :=
    processInbound_cases h
  · exact hs
  · obtain rfl := NatTable.insert_none hs.nat hins
    exact hs
  · exact hs.frame (Frame.pushRx s pkt)
  · exact (hs.admitted hins).frame (Frame.pushRx _ pkt)

theorem Wf.closeSocket {handle : SocketHandle} (hs : s.Wf)
    (h : s.closeSocket handle = .ok s') : s'.Wf := by
  obtain ⟨remote, peer, ha, rfl⟩ := closeSocket_ok h
  have hsub {x : SocketHandle} {entry : SocketAddr × VirtualConnectionPeer}
      (he : (s.active.erase handle).lookup x = some entry) :
      x ≠ handle ∧ s.active.lookup x = some entry := by
    rw [Table.lookup_erase_eq] at he
    split_ifs at he with hx
    exact ⟨hx, he⟩
  refine ⟨hs.nat, ?_, ?_, ?_, ?_, hs.pending⟩
  · intro x
    rw [Finmap.mem_erase, Finmap.mem_erase, hs.handles]
  · exact fun x entry he => hs.made x entry (hsub he).2
  · exact fun x x' entry entry' he he' => hs.own x x' entry entry' (hsub he).2 (hsub he').2
  · intro x entry he
    -- the link whose end is dropped belongs to no other entry
    have hne : entry.2.link ≠ peer.link := fun heq =>
      (hsub he).1 (hs.own x handle entry (remote, peer) (hsub he).2 ha heq)
    simp only [Function.update_of_ne hne]
    exact hs.mapped x entry (hsub he).2

end

end Inner

section

variable {alloc : Allocator} {w w' : World} {a : Act}

/-- The steps that touch the bookkeeping are the processing of a packet and the removal
of a socket. -/
theorem Step.inner_cases (h : Step alloc w a w') :
    Inner.Frame w.inner w'.inner ∨
    (∃ raw rest, a = .ingest raw ∧ w.inner.tunRx = raw :: rest ∧
      Inner.processInbound alloc { w.inner with tunRx := rest } raw = .ok w'.inner) ∨
    (∃ handle, a = .close handle ∧ w.inner.closeSocket handle = .ok w'.inner) := by
  cases h with
  | ingest hq h => exact Or.inr (Or.inl ⟨_, _, rfl, hq, h⟩)
  | close _ _ h => exact Or.inr (Or.inr ⟨_, rfl, h⟩)
  | accept h =>
    exact Or.inl ⟨rfl, rfl, rfl, fun _ => Iff.rfl, fun _ => rfl, fun _ => rfl,
      h ▸ List.suffix_cons _ _⟩
  -- smoltcp may change every socket, but not the set of handles
  | smoltcp _ hfit =>
    exact Or.inl ⟨rfl, rfl, rfl, hfit.handles, fun _ => rfl, fun _ => rfl, List.suffix_refl _⟩
  | service hs _ h =>
    exact Or.inl ((Inner.Frame.setSocket (Finmap.mem_of_lookup_eq_some hs) _).trans
      (Inner.Frame.setLink _ _ h.addrs))
  | relay _ h => exact Or.inl (Inner.Frame.setLink _ _ h.addrs)
  | _ =>
    exact Or.inl ⟨rfl, rfl, rfl, fun _ => Iff.rfl, fun _ => rfl, fun _ => rfl,
      List.suffix_refl _⟩

theorem Step.wf (hw : w.inner.Wf) (h : Step alloc w a w') : w'.inner.Wf := by
  rcases h.inner_cases with hf | ⟨raw, rest, -, -, hp⟩ | ⟨handle, -, hc⟩
  · exact hw.frame hf
  · exact (hw.frame (Inner.Frame.popRx _ rest)).processInbound hp
  · exact hw.closeSocket hc

theorem Reachable.wf (h : Reachable alloc w) : w.inner.Wf := by
  obtain ⟨mtu, tr, hrun⟩ := h
  exact hrun.invariant (fun w => w.inner.Wf) (Inner.wf_new mtu) fun _ _ _ hw hs => hs.wf hw

end

end GravitalShare.Stack
