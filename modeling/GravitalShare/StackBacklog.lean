import GravitalShare.StackFlows

/-! The way of a connection from its listener to a relay task: it waits in `pending`, is handed
over in order, or is refused at birth. -/
namespace GravitalShare.Stack

namespace Link

/-- What the poll loop can do to a link. -/
structure PollSide (l l' : Link) : Prop where
  addrs : l'.localAddr = l.localAddr ∧ l'.remote = l.remote
  upReceiver : l'.up.receiver = l.up.receiver
  downSender : l'.down.sender = l.down.sender
  downQueue : l'.down.queue <:+ l.down.queue

/-- The end that is meant for a relay task is still as it was made, or was dropped at once. -/
structure FarEnd (alive : Bool) (l : Link) : Prop where
  upReceiver : l.up.receiver = alive
  downSender : l.down.sender = alive
  downQueue : l.down.queue = []

variable {l l' : Link}

theorem PollSide.refl (l : Link) : PollSide l l := ⟨⟨rfl, rfl⟩, rfl, rfl, List.suffix_refl _⟩

theorem PollSide.dropPeer (l : Link) : PollSide l l.dropPeer :=
  ⟨⟨rfl, rfl⟩, rfl, rfl, List.nil_suffix⟩

theorem PollSide.farEnd (h : PollSide l l') {alive : Bool} (hl : l.FarEnd alive) :
    l'.FarEnd alive := by
  refine ⟨h.upReceiver.trans hl.upReceiver, h.downSender.trans hl.downSender, ?_⟩
  have hq := h.downQueue
  rw [hl.downQueue] at hq
  exact List.suffix_nil.mp hq

end Link

theorem ServiceStep.pollSide {c c' : Conn} {a : ServiceAct} (h : ServiceStep c a c') :
    Link.PollSide c.link c'.link := by
  cases h with
  | drain contig =>
    refine ⟨⟨rfl, rfl⟩, ?_, rfl, List.suffix_refl _⟩
    simp only [drainRecv_eq]
    split
    · exact Chan.receiver_trySend _ _
    · rfl
  | sendTurn ht =>
    obtain ⟨data, -, hrecv, -⟩ := sendTurn_eq_some ht
    obtain ⟨hq, -, hs, -⟩ := Chan.tryRecv_eq_some hrecv
    exact ⟨⟨rfl, rfl⟩, rfl, hs, hq ▸ List.suffix_cons _ _⟩
  | leaveLoop => exact Link.PollSide.refl _
  | finish => exact Link.PollSide.refl _

/-- The connections that were handed to relay tasks, and then those that wait for one. -/
def World.conns (w : World) : List VirtualConnection := w.relays ++ w.inner.pending

section Steps

variable {alloc : Allocator} {w w' : World} {a : Act}

theorem Inner.links_setLink (s : Inner) (i id : ℕ) (link : Link) :
    (s.setLink i link).links id = if id = i then link else s.links id :=
  Function.update_apply _ _ _ _

/-- What `create_listener` does with the connection: it waits, or both its ends to the relay task
are dropped. -/
theorem Inner.createListener_farEnd (alloc : Allocator) (s : Inner) {vport : UInt16}
    (remote : SocketAddr) (hv : vport ≠ 0) :
    (s.pending.length < pendingCap ∧
      (createListener alloc s vport remote).pending =
        s.pending ++ [⟨.v4 ifaceIp vport, remote, s.made⟩] ∧
      ((createListener alloc s vport remote).links s.made).FarEnd true) ∨
    pendingCap ≤ s.pending.length ∧ (createListener alloc s vport remote).pending = s.pending ∧
      ((createListener alloc s vport remote).links s.made).FarEnd false := by
  have hlisten : TcpSocket.new.listen ifaceIp vport =
      some ⟨.listen, some (ifaceIp, vport), [], []⟩ := if_neg hv
  simp only [createListener, hlisten]
  split_ifs with hroom
  · refine Or.inl ⟨hroom, rfl, ?_⟩
    rw [links_setLink, if_pos rfl]
    exact ⟨rfl, rfl, rfl⟩
  · refine Or.inr ⟨Nat.not_lt.mp hroom, rfl, ?_⟩
    rw [links_setLink, if_pos rfl]
    exact ⟨rfl, rfl, rfl⟩

/-- An ingested packet opens one listener, for the flow of its SYN, or none at all. -/
theorem Inner.processInbound_opened {s s' : Inner} {raw : Bytes} (hs : s.Wf)
    (h : processInbound alloc s raw = .ok s') :
    s'.links = s.links ∧ s'.made = s.made ∧ s'.pending = s.pending ∨
    ∃ nat vport src dst pkt, synFlow raw = [(src, dst)] ∧ vport ≠ 0 ∧
      nat.lookupReverse vport = some (src, dst) ∧
      s' = (createListener alloc { s with nat } vport dst).pushRx pkt := by
  obtain ⟨rfl, -⟩ | ⟨nat, -, -, -, rfl⟩ | ⟨vp, pkt, -, -, -, rfl⟩ |
      ⟨nat, vp, pkt, hp, hsyn, hins, -, rfl⟩ := processInbound_cases h
  · exact Or.inl ⟨rfl, rfl, rfl⟩
  · exact Or.inl ⟨rfl, rfl, rfl⟩
  · exact Or.inl ⟨rfl, rfl, rfl⟩
  · obtain ⟨-, -, hrev, hr⟩ := NatTable.insert_some hs.nat hins
    unfold admitted
    split_ifs
    · exact Or.inl ⟨rfl, rfl, rfl⟩
    · exact Or.inr ⟨nat, vp, srcEndpoint raw, dstEndpoint raw, pkt, synFlow_of_syn hp hsyn,
        hr.ne_zero, hrev, rfl⟩

/-- A link changes under the hands of the poll loop or of the relay task that was given it. -/
theorem Step.link_cases (hw : w.inner.Wf) (h : Step alloc w a w') {id : ℕ}
    (hid : id < w.inner.made) :
    Link.PollSide (w.inner.links id) (w'.inner.links id) ∨
      (∃ conn ∈ w.relays, conn.link = id) ∧
        (w'.inner.links id).localAddr = (w.inner.links id).localAddr ∧
        (w'.inner.links id).remote = (w.inner.links id).remote := by
  cases h with
  | @ingest s s' relays raw rest hq hproc =>
    have hsame : s'.links id = s.links id := by
      rcases Inner.processInbound_opened (hw.frame (Inner.Frame.popRx s rest)) hproc with
        ⟨hl, -⟩ | ⟨nat, vport, src, dst, pkt, -, hv, -, rfl⟩
      · rw [hl]
      · exact (Inner.createListener_opened alloc _ dst hv).links id (Nat.ne_of_lt hid)
    left
    show Link.PollSide (s.links id) (s'.links id)
    rw [hsame]
    exact Link.PollSide.refl _
  | @service s relays handle rest sock remote peer phase act c hs ha hstep =>
    left
    show Link.PollSide (s.links id)
      (((s.setSocket handle c.sock).setLink peer.link c.link).links id)
    rw [Inner.links_setLink]
    split_ifs with hi
    · rw [hi]
      exact hstep.pollSide
    · exact Link.PollSide.refl _
  | @close s s' relays handle rest sock hs hg hclose =>
    left
    obtain ⟨remote, peer, -, rfl⟩ := Inner.closeSocket_ok hclose
    show Link.PollSide (s.links id)
      (Function.update s.links peer.link (s.links peer.link).dropPeer id)
    rw [Function.update_apply]
    split_ifs with hi
    · rw [hi]
      exact Link.PollSide.dropPeer _
    · exact Link.PollSide.refl _
  | @relay s pc relays conn act link hc hstep =>
    show Link.PollSide (s.links id) ((s.setLink conn.link link).links id) ∨ _ ∧
      ((s.setLink conn.link link).links id).localAddr = _ ∧
      ((s.setLink conn.link link).links id).remote = _
    rw [Inner.links_setLink]
    split_ifs with hi
    · rw [hi]
      exact Or.inr ⟨⟨conn, hc, rfl⟩, hstep.addrs⟩
    · exact Or.inl (Link.PollSide.refl _)
  | _ => exact Or.inl (Link.PollSide.refl _)

/-- Only a new listener adds to the connections, and at the end. -/
theorem Step.conns_cases (hw : w.inner.Wf) (h : Step alloc w a w') :
    (w'.conns = w.conns ∧ w'.inner.made = w.inner.made ∧ w'.inner.pending <:+ w.inner.pending ∧
      w.relays <+: w'.relays) ∨
    ∃ raw nat vport src dst pkt, a = .ingest raw ∧ synFlow raw = [(src, dst)] ∧ vport ≠ 0 ∧
      nat.lookupReverse vport = some (src, dst) ∧ w'.relays = w.relays ∧
      w'.inner = (Inner.createListener alloc
        { w.inner with tunRx := w.inner.tunRx.tail, nat := nat } vport dst).pushRx pkt := by
  cases h with
  | @ingest s s' relays raw rest hq hproc =>
    rcases Inner.processInbound_opened (hw.frame (Inner.Frame.popRx s rest)) hproc with
      ⟨-, hm, hp⟩ | ⟨nat, vport, src, dst, pkt, hflow, hv, hrev, rfl⟩
    · refine Or.inl ⟨?_, hm, ?_, List.prefix_refl _⟩
      · show relays ++ s'.pending = relays ++ s.pending
        rw [hp]
      · show s'.pending <:+ s.pending
        rw [hp]
    · refine Or.inr ⟨raw, nat, vport, src, dst, pkt, rfl, hflow, hv, hrev, rfl, ?_⟩
      rw [show rest = s.tunRx.tail by rw [hq]; rfl]
  | @accept s relays rest conn hp =>
    left
    refine ⟨?_, rfl, ?_, List.prefix_append _ _⟩
    · show relays ++ [conn] ++ rest = relays ++ s.pending
      rw [hp, List.append_assoc, List.singleton_append]
    · show rest <:+ s.pending
      rw [hp]
      exact List.suffix_cons _ _
  | close _ _ hclose =>
    obtain ⟨remote, peer, -, rfl⟩ := Inner.closeSocket_ok hclose
    exact Or.inl ⟨rfl, rfl, List.suffix_refl _, List.prefix_refl _⟩
  | _ => exact Or.inl ⟨rfl, rfl, List.suffix_refl _, List.prefix_refl _⟩

end Steps

/-- A connection that a relay task has or will get: it was made for a SYN of the run. -/
structure Kept (tr : List (World × Act)) (w : World) (conn : VirtualConnection) : Prop where
  made : conn.link < w.inner.made
  localAddr : (w.inner.links conn.link).localAddr = conn.localAddr
  remote : (w.inner.links conn.link).remote = conn.remote
  asked : ∃ vport src, conn.localAddr = .v4 ifaceIp vport ∧
    (src, conn.remote) ∈ gather askedAt tr ∧
    w.inner.nat.lookupReverse vport = some (src, conn.remote)

/-- A connection that nobody will get: it was made while 128 others were waiting. -/
structure Refused (tr : List (World × Act)) (w : World) (id : ℕ) : Prop where
  farEnd : (w.inner.links id).FarEnd false
  overflow : ∃ p ∈ tr, p.1.inner.made = id ∧ p.1.inner.pending.length = pendingCap

/-- Every connection made so far is with a relay task, waiting, or refused; those that are not
refused are in the order in which they were made. -/
structure Custody (tr : List (World × Act)) (w : World) : Prop where
  ordered : (w.conns.map (·.link)).Pairwise (· < ·)
  kept : ∀ conn ∈ w.conns, Kept tr w conn
  waiting : ∀ conn ∈ w.inner.pending, (w.inner.links conn.link).FarEnd true
  refused : ∀ id < w.inner.made, (∀ conn ∈ w.conns, conn.link ≠ id) → Refused tr w id

section Custody

variable {alloc : Allocator} {w w' : World} {a : Act} {tr : List (World × Act)}

theorem custody_init (mtu : UInt16) : Custody [] (World.init mtu) where
  ordered := List.Pairwise.nil
  kept := fun _ h => absurd h List.not_mem_nil
  waiting := fun _ h => absurd h List.not_mem_nil
  refused := fun _ h => absurd h (Nat.not_lt_zero _)

theorem Step.made_le (hw : w.inner.Wf) (h : Step alloc w a w') :
    w.inner.made ≤ w'.inner.made := by
  rcases h.conns_cases hw with ⟨-, hm, -⟩ | ⟨raw, nat, vport, src, dst, pkt, -, -, hv, -, -, heq⟩
  · exact hm.ge
  · rw [heq]
    exact Nat.le_of_lt ((Inner.createListener_opened alloc _ dst hv).made ▸ Nat.lt_succ_self _)

theorem Kept.step {conn : VirtualConnection} (h : Kept tr w conn) (hw : w.inner.Wf)
    (hs : Step alloc w a w') : Kept (tr ++ [(w, a)]) w' conn := by
  have haddrs : (w'.inner.links conn.link).localAddr = (w.inner.links conn.link).localAddr ∧
      (w'.inner.links conn.link).remote = (w.inner.links conn.link).remote := by
    rcases hs.link_cases hw h.made with hside | ⟨-, haddrs⟩
    · exact hside.addrs
    · exact haddrs
  obtain ⟨vport, src, hl, hm, hrev⟩ := h.asked
  refine ⟨h.made.trans_le (hs.made_le hw), haddrs.1.trans h.localAddr, haddrs.2.trans h.remote,
    vport, src, hl, ?_, hs.nat_extends hw vport _ hrev⟩
  rw [gather_snoc]
  exact List.mem_append_left _ hm

/-- No relay task holds the link of a connection that waits. -/
theorem Custody.apart (h : Custody tr w) {conn conn' : VirtualConnection} (hr : conn ∈ w.relays)
    (hp : conn' ∈ w.inner.pending) : conn.link ≠ conn'.link := by
  have hord := h.ordered
  rw [World.conns, List.map_append, List.pairwise_append] at hord
  exact Nat.ne_of_lt (hord.2.2 _ (List.mem_map_of_mem hr) _ (List.mem_map_of_mem hp))

theorem Custody.waiting_step (h : Custody tr w) (hw : w.inner.Wf) (hs : Step alloc w a w')
    {conn : VirtualConnection} (hp : conn ∈ w.inner.pending) :
    (w'.inner.links conn.link).FarEnd true := by
  rcases hs.link_cases hw (h.kept conn (List.mem_append_right _ hp)).made with
    hside | ⟨⟨conn', hr, heq⟩, -⟩
  · exact hside.farEnd (h.waiting conn hp)
  · exact absurd heq (h.apart hr hp)

theorem Custody.refused_step (h : Custody tr w) (hw : w.inner.Wf) (hs : Step alloc w a w')
    {id : ℕ} (hid : id < w.inner.made) (hnone : ∀ conn ∈ w.conns, conn.link ≠ id) :
    Refused (tr ++ [(w, a)]) w' id := by
  obtain ⟨hfar, p, hp, hfull⟩ := h.refused id hid hnone
  rcases hs.link_cases hw hid with hside | ⟨⟨conn, hr, heq⟩, -⟩
  · exact ⟨hside.farEnd hfar, p, List.mem_append_left _ hp, hfull⟩
  · exact absurd heq (hnone conn (List.mem_append_left _ hr))

/-- A step after which the same connections are kept; one that it made is refused. -/
theorem Custody.same (h : Custody tr w) (hw : w.inner.Wf) (hs : Step alloc w a w')
    (hconns : w'.conns = w.conns) (hpend : w'.inner.pending <:+ w.inner.pending)
    (hnew : ∀ id < w'.inner.made, w.inner.made ≤ id → Refused (tr ++ [(w, a)]) w' id) :
    Custody (tr ++ [(w, a)]) w' := by
  refine ⟨hconns ▸ h.ordered, ?_, ?_, ?_⟩
  · rw [hconns]
    exact fun conn hc => (h.kept conn hc).step hw hs
  · exact fun conn hc => h.waiting_step hw hs (hpend.subset hc)
  · rw [hconns]
    intro id hid hnone
    rcases Nat.lt_or_ge id w.inner.made with hlt | hge
    · exact h.refused_step hw hs hlt hnone
    · exact hnew id hid hge

/-- A step after which one more connection is waiting. -/
theorem Custody.append {new : VirtualConnection} (h : Custody tr w) (hw : w.inner.Wf)
    (hs : Step alloc w a w') (hrel : w'.relays = w.relays)
    (hpend : w'.inner.pending = w.inner.pending ++ [new])
    (hmade : w'.inner.made = w.inner.made+1) (hlink : new.link = w.inner.made)
    (hkept : Kept (tr ++ [(w, a)]) w' new) (hfar : (w'.inner.links new.link).FarEnd true) :
    Custody (tr ++ [(w, a)]) w' := by
  have hconns : w'.conns = w.conns ++ [new] := by
    rw [World.conns, World.conns, hrel, hpend, List.append_assoc]
  refine ⟨?_, ?_, ?_, ?_⟩
  · rw [hconns, List.map_append, List.pairwise_append]
    refine ⟨h.ordered, List.pairwise_singleton _ _, ?_⟩
    intro i hi j hj
    obtain ⟨conn, hc, rfl⟩ := List.mem_map.mp hi
    rw [List.mem_singleton.mp hj]
    show conn.link < new.link
    rw [hlink]
    exact (h.kept conn hc).made
  · rw [hconns]
    intro conn hc
    rcases List.mem_append.mp hc with hc | hc
    · exact (h.kept conn hc).step hw hs
    · rw [List.mem_singleton.mp hc]
      exact hkept
  · rw [hpend]
    intro conn hc
    rcases List.mem_append.mp hc with hc | hc
    · exact h.waiting_step hw hs hc
    · rw [List.mem_singleton.mp hc]
      exact hfar
  · rw [hconns, hmade]
    intro id hid hnone
    have hne : id ≠ w.inner.made := fun he =>
      hnone new (List.mem_append_right _ (List.mem_singleton_self _)) (hlink.trans he.symm)
    exact h.refused_step hw hs (by omega) fun conn hc => hnone conn (List.mem_append_left _ hc)

theorem Custody.step (h : Custody tr w) (hw : w.inner.Wf) (hs : Step alloc w a w') :
    Custody (tr ++ [(w, a)]) w' := by
  rcases hs.conns_cases hw with ⟨hconns, hmade, hpend, -⟩ |
      ⟨raw, nat, vport, src, dst, pkt, rfl, hflow, hv, hrev, hrel, heq⟩
  · exact h.same hw hs hconns hpend fun id hid hge => absurd hid (hmade ▸ Nat.not_lt.mpr hge)
  obtain ⟨s, hsdef⟩ : ∃ s : Inner,
    s = { w.inner with tunRx := w.inner.tunRx.tail, nat := nat } := ⟨_, rfl⟩
  rw [← hsdef] at heq
  have hsmade : s.made = w.inner.made := by rw [hsdef]
  have ho := Inner.createListener_opened alloc s dst hv
  have hmade : w'.inner.made = w.inner.made+1 := by
    rw [heq, ← hsmade]
    exact ho.made
  have hlinks : w'.inner.links w.inner.made =
      (Inner.createListener alloc s vport dst).links s.made := by
    rw [heq, hsmade]
    rfl
  rcases Inner.createListener_farEnd alloc s dst hv with ⟨-, hpend, hfar⟩ | ⟨hfull, hpend, hfar⟩
  · -- the new connection goes to the end of the queue
    have hpend' : w'.inner.pending =
        w.inner.pending ++ [⟨.v4 ifaceIp vport, dst, w.inner.made⟩] := by
      rw [heq, ← hsmade, show w.inner.pending = s.pending by rw [hsdef]]
      exact hpend
    refine h.append hw hs hrel hpend' hmade rfl ?_ (hlinks ▸ hfar)
    refine ⟨hmade ▸ Nat.lt_succ_self _, ?_, ?_, vport, src, rfl, ?_, ?_⟩
    · rw [hlinks]
      rcases ho.link with hl | hl <;> rw [hl] <;> rfl
    · rw [hlinks]
      rcases ho.link with hl | hl <;> rw [hl] <;> rfl
    · rw [gather_snoc, askedAt, hflow]
      exact List.mem_append_right _ (List.mem_singleton_self _)
    · rw [heq]
      show (Inner.createListener alloc s vport dst).nat.lookupReverse vport = _
      rw [ho.nat, hsdef]
      exact hrev
  · -- 128 connections are waiting
    have hpend' : w'.inner.pending = w.inner.pending := by
      rw [heq, show w.inner.pending = s.pending by rw [hsdef]]
      exact hpend
    refine h.same hw hs ?_ (hpend' ▸ List.suffix_refl _) ?_
    · rw [World.conns, World.conns, hrel, hpend']
    · intro id hid hge
      obtain rfl : id = w.inner.made := by omega
      refine ⟨hlinks ▸ hfar, (w, .ingest raw),
        List.mem_append_right _ (List.mem_singleton_self _), rfl, ?_⟩
      rw [hsdef] at hfull
      exact Nat.le_antisymm hw.pending hfull

end Custody

section Backlog

variable {alloc : Allocator} {w w' : World} {tr tr' : List (World × Act)} {mtu : UInt16}

theorem run_custody (h : Run (Step alloc) (World.init mtu) tr w) : w.inner.Wf ∧ Custody tr w :=
  h.history (fun tr w => w.inner.Wf ∧ Custody tr w) ⟨Inner.wf_new mtu, custody_init mtu⟩
    fun _ _ _ _ hw hs => ⟨hs.wf hw.1, hw.2.step hw.1 hs⟩

theorem Step.conns_grow {a : Act} (hw : w.inner.Wf) (h : Step alloc w a w') :
    w.relays <+: w'.relays ∧ w.conns <+: w'.conns := by
  rcases h.conns_cases hw with ⟨hc, -, -, hr⟩ |
      ⟨raw, nat, vport, src, dst, pkt, -, -, hv, -, hrel, heq⟩
  · exact ⟨hr, hc ▸ List.prefix_refl _⟩
  · refine ⟨hrel ▸ List.prefix_refl _, ?_⟩
    rw [World.conns, World.conns, hrel, List.prefix_append_right_inj, heq]
    rcases Inner.createListener_farEnd alloc
        { w.inner with tunRx := w.inner.tunRx.tail, nat := nat } dst hv with
      ⟨-, hpend, -⟩ | ⟨-, hpend, -⟩
    · exact ⟨_, hpend.symm⟩
    · exact ⟨[], (List.append_nil _).trans hpend.symm⟩

/-- In every run each connection is handed to at most one relay task, in the order of the SYNs
they were made for, with the remote that its SYN asked for; the only ones that are never handed
over were refused while 128 others were waiting, and have no relay end. As the run goes on
nothing is taken back. -/
theorem connections_kept (h : Run (Step alloc) (World.init mtu) tr w) :
    Custody tr w ∧ ∀ tr' w', Run (Step alloc) w tr' w' →
      w.relays <+: w'.relays ∧ w.conns <+: w'.conns := by
  have hw := run_custody h
  refine ⟨hw.2, ?_⟩
  intro tr' w' hrun
  have hgrow : w'.inner.Wf ∧ w.relays <+: w'.relays ∧ w.conns <+: w'.conns :=
    hrun.invariant (fun u => u.inner.Wf ∧ w.relays <+: u.relays ∧ w.conns <+: u.conns)
      ⟨hw.1, List.prefix_refl _, List.prefix_refl _⟩ fun u a u' hu hs =>
        ⟨hs.wf hu.1, hu.2.1.trans (hs.conns_grow hu.1).1, hu.2.2.trans (hs.conns_grow hu.1).2⟩
  exact hgrow.2

end Backlog

/-- The connection of the first SYN waits, with the remote that the SYN asked for. -/
theorem first_connection_kept : ∃ tr w conn, Run (Step .lowest) (World.init 1500) tr w ∧
    w.conns = [conn] ∧ conn.remote = .v4 exampleIp 443 ∧ Kept tr w conn := by
  obtain ⟨nat, vp, pkt, s, hs, -, -, -, -, ho⟩ :=
    first_syn (synPacket_addrs exampleIp 40000) rfl (by decide)
  have hfeed : Step .lowest (World.init 1500) (.feedInbound (synPacket exampleIp 40000)) _ :=
    .feedInbound _
  have hrun := ((Run.single hfeed).snoc .beginPoll).snoc (.ingest rfl hs)
  have hpend : (s.pushRx pkt).pending = [⟨.v4 ifaceIp vp, .v4 exampleIp 443, 0⟩] := by
    rcases ho.pending with ⟨hp, -⟩ | ⟨-, hfull⟩
    · exact hp
    · exact absurd (show pendingCap ≤ 0 from hfull) (by decide)
  refine ⟨_, _, _, hrun, hpend, rfl, (connections_kept hrun).1.kept _ ?_⟩
  exact List.mem_append_right _ (hpend ▸ List.mem_singleton_self _)

end GravitalShare.Stack
