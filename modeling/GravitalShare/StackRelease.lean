import GravitalShare.StackAdmission

/-! The life of NAT entries: the table only grows, also when sockets are removed. -/
namespace GravitalShare.Stack

theorem NatTable.Extends.trans {t u v : NatTable} (h : t.Extends u) (h' : u.Extends v) :
    t.Extends v := fun port key hk => h' port key (h port key hk)

theorem Inner.processInbound_nat {alloc : Allocator} {s s' : Inner} {raw : Bytes} (hs : s.Wf)
    (h : processInbound alloc s raw = .ok s') : s.nat.Extends s'.nat := by
  obtain ⟨rfl, -⟩ | ⟨nat, -, -, hins, rfl⟩ | ⟨vp, pkt, -, -, -, rfl⟩ |
      ⟨nat, vp, pkt, _, _, hins, _, rfl⟩ :=
    processInbound_cases h
  · exact fun _ _ => id
  · obtain rfl := NatTable.insert_none hs.nat hins
    exact fun _ _ => id
  · exact fun _ _ => id
  · obtain ⟨_, hext, _, hr⟩ := NatTable.insert_some hs.nat hins
    have hnat : (admitted alloc s nat vp (dstEndpoint raw)).nat = nat := by
      rcases admitted_cases alloc s nat (dstEndpoint raw) hr.ne_zero with hsame | ho
      · rw [hsame]
      · exact ho.nat
    intro port key hk
    exact (congrArg (NatTable.lookupReverse · port) hnat).trans (hext port key hk)

section

variable {alloc : Allocator} {w w' w'' : World} {a : Act}

theorem Step.nat_extends (hw : w.inner.Wf) (h : Step alloc w a w') :
    w.inner.nat.Extends w'.inner.nat := by
  rcases h.inner_cases with hf | ⟨raw, rest, -, -, hp⟩ | ⟨handle, -, hc⟩
  · rw [hf.nat]
    exact fun _ _ => id
  · have hext := Inner.processInbound_nat (hw.frame (Inner.Frame.popRx _ rest)) hp
    exact hext
  · -- the search for the port of a removed socket comes up empty
    obtain ⟨remote, peer, -, heq⟩ := Inner.closeSocket_ok hc
    rw [heq]
    exact fun _ _ => id

/-- No entry ever leaves the NAT table of a running stack. -/
theorem Reachable.nat_extends {tr : List (World × Act)} (hw : Reachable alloc w)
    (h : Run (Step alloc) w tr w') : w.inner.nat.Extends w'.inner.nat := by
  have key : w'.inner.Wf ∧ w.inner.nat.Extends w'.inner.nat :=
    h.invariant (fun u => u.inner.Wf ∧ w.inner.nat.Extends u.inner.nat)
      ⟨hw.wf, fun _ _ => id⟩ fun u a u' hu hs =>
        ⟨hs.wf hu.1, hu.2.trans (hs.nat_extends hu.1)⟩
  exact key.2

/-- Whenever a poll removes a socket, the NAT entry its listener was created for is still
in both maps, and it stays there in every continuation of the run. -/
theorem removed_socket_keeps_nat_entry {handle : SocketHandle} {tr : List (World × Act)}
    (hw : Reachable alloc w) (h : Step alloc w (.close handle) w')
    (hrun : Run (Step alloc) w' tr w'') :
    ∃ remote peer vp src, w.inner.active.lookup handle = some (remote, peer) ∧
      (w.inner.links peer.link).localAddr = .v4 ifaceIp vp ∧
      handle ∉ w'.inner.active ∧ handle ∉ w'.inner.sockets ∧ w'.inner.nat = w.inner.nat ∧
      w''.inner.nat.lookupReverse vp = some (src, remote) ∧
      w''.inner.nat.lookupForward src remote = some vp := by
  have hw' := hw.run (Run.single h)
  cases h with
  | close hs hg h =>
    obtain ⟨remote, peer, ha, rfl⟩ := Inner.closeSocket_ok h
    obtain ⟨vp, src, hl, -, hm⟩ := hw.wf.mapped handle (remote, peer) ha
    -- the entry of the listener was there before, and none ever leaves
    have hrev := hw'.nat_extends hrun vp _ hm
    have hfwd := ((hw'.run hrun).wf.nat.inverse (src, remote) vp).mpr hrev
    refine ⟨remote, peer, vp, src, ha, hl, ?_, ?_, rfl, hrev, hfwd⟩
    · exact fun hmem => (Finmap.mem_erase.mp hmem).1 rfl
    · exact fun hmem => (Finmap.mem_erase.mp hmem).1 rfl

end

/-- One connection is opened and its socket is found closed by the same poll. -/
theorem opened_and_closed : ∃ w w' vp, Reachable .lowest w ∧
    Step .lowest w (.close (Allocator.lowest.pick ∅)) w' ∧
    w.inner.active.lookup (Allocator.lowest.pick ∅) = some (.v4 exampleIp 443, ⟨0⟩) ∧
    (w.inner.links 0).localAddr = .v4 ifaceIp vp ∧ w'.inner.active = ∅ ∧
    w'.inner.nat.forward = Finmap.insert (.v4 ⟨10, 0, 0, 1⟩ 40000, .v4 exampleIp 443) vp ∅ := by
  obtain ⟨nat, vp, pkt, s, hs, -, hr, hf, hb, ho⟩ :=
    first_syn (synPacket_addrs exampleIp 40000) rfl (by decide)
  let handle := Allocator.lowest.pick ∅
  let gone : TcpSocket := ⟨.closed, none, [], []⟩
  let env : Inner.PollEnv := ⟨Finmap.insert handle gone ∅, [], [], true, [handle], fun _ => 0⟩
  have hactive : s.active = Finmap.insert handle (.v4 exampleIp 443, ⟨0⟩) ∅ := ho.active
  have hfit : env.Fits (s.pushRx pkt) :=
    Inner.PollEnv.fits_single (reachable_first_syn hs).wf.handles hactive rfl rfl
  have hdrive : Step .lowest ⟨s.pushRx pkt, .ingest, []⟩ (.smoltcp env) _ :=
    .smoltcp ho.queues.2 hfit
  have hentry : s.active.lookup handle = some (.v4 exampleIp 443, ⟨0⟩) :=
    (congrArg (Finmap.lookup handle) hactive).trans (Finmap.lookup_insert _)
  have hclose := Inner.closeSocket_eq (s := (s.pushRx pkt).drive env) hentry
    (Finmap.mem_insert.mpr (Or.inl rfl))
  refine ⟨_, _, vp, (reachable_first_syn hs).run (Run.single hdrive),
    .close (Finmap.lookup_insert _) rfl hclose, hentry, ?_, ?_, ?_⟩
  · rcases ho.link with hl | hl
    · exact congrArg Link.localAddr hl
    · exact congrArg Link.localAddr hl
  · show s.active.erase handle = ∅
    rw [hactive]
    apply Finmap.ext_lookup
    intro h
    rw [Table.lookup_erase_eq, Table.lookup_insert_eq]
    split_ifs <;> rfl
  · exact (congrArg NatTable.forward ho.nat).trans hf

theorem removed_first_socket_keeps_nat_entry : ∃ w w' remote peer vp src, Reachable .lowest w ∧
    Step .lowest w (.close (Allocator.lowest.pick ∅)) w' ∧
    w.inner.active.lookup (Allocator.lowest.pick ∅) = some (remote, peer) ∧
    (w.inner.links peer.link).localAddr = .v4 ifaceIp vp ∧
    w'.inner.nat.lookupForward src remote = some vp := by
  obtain ⟨w, w', -, hw, hstep, -⟩ := opened_and_closed
  obtain ⟨remote, peer, vp, src, ha, hl, -, -, -, -, hfwd⟩ :=
    removed_socket_keeps_nat_entry hw hstep Run.nil
  exact ⟨w, w', remote, peer, vp, src, hw, hstep, ha, hl, hfwd⟩

/-- With the only socket removed, no connection is left and its flow is still mapped. -/
theorem nat_entry_outlives_connection : ∃ w w' peer vp, Reachable .lowest w ∧
    Step .lowest w (.close (Allocator.lowest.pick ∅)) w' ∧
    w.inner.active.lookup (Allocator.lowest.pick ∅) = some (.v4 exampleIp 443, peer) ∧
    (w.inner.links peer.link).localAddr = .v4 ifaceIp vp ∧ w'.inner.active = ∅ ∧
    w'.inner.nat.lookupForward (.v4 ⟨10, 0, 0, 1⟩ 40000) (.v4 exampleIp 443) = some vp := by
  obtain ⟨w, w', vp, hw, hstep, ha, hl, hnone, hf⟩ := opened_and_closed
  refine ⟨w, w', ⟨0⟩, vp, hw, hstep, ha, hl, hnone, ?_⟩
  rw [NatTable.lookupForward, hf]
  exact Finmap.lookup_insert _

end GravitalShare.Stack
