import GravitalShare.StackAdmission

/-! The handles of the stack: `active` and the socket set hold the same ones, in every state and
in the middle of the service loop, so that neither of the two lookups that may panic does. -/
namespace GravitalShare.Stack

namespace Inner

def Matched (s : Inner) : Prop := ∀ h, h ∈ s.active ↔ h ∈ s.sockets

section

variable {s : Inner} {handle : SocketHandle} (hm : s.Matched) (ha : handle ∈ s.active)
include hm ha

/-- Serving an active socket does not panic and keeps both sets of handles. -/
theorem serviceSocket_returns (contig : ℕ) :
    ∃ closed s', serviceSocket contig s handle = .ok (closed, s') ∧ s'.Matched ∧
      s'.active = s.active := by
  have hs : handle ∈ s.sockets := (hm handle).mp ha
  obtain ⟨sock, hsock⟩ := Finmap.mem_iff.mp hs
  obtain ⟨⟨remote, peer⟩, hentry⟩ := Finmap.mem_iff.mp ha
  cases hg : sock.isGone with
  | true =>
    refine ⟨true, s, ?_, hm, rfl⟩
    simp only [serviceSocket, hsock, hg, ↓reduceIte]
  | false =>
    have heq : serviceSocket contig s handle = .ok (false,
        (s.setSocket handle (serviceLink contig sock (s.links peer.link)).1).setLink peer.link
          (serviceLink contig sock (s.links peer.link)).2) := by
      simp only [serviceSocket, hsock, hg, hentry, Bool.false_eq_true, ↓reduceIte]
    refine ⟨false, _, heq, ?_, rfl⟩
    intro h
    -- the socket is put back under its own handle
    show h ∈ s.active ↔ h ∈ s.sockets.insert handle _
    rw [Finmap.mem_insert, hm]
    constructor
    · exact Or.inr
    · rintro (rfl | hmem)
      · exact hs
      · exact hmem

theorem closeSocket_returns :
    ∃ s', closeSocket s handle = .ok s' ∧ s'.Matched ∧ s'.active = s.active.erase handle := by
  obtain ⟨⟨remote, peer⟩, hentry⟩ := Finmap.mem_iff.mp ha
  refine ⟨_, closeSocket_eq hentry ((hm handle).mp ha), ?_, rfl⟩
  intro h
  show h ∈ s.active.erase handle ↔ h ∈ s.sockets.erase handle
  rw [Finmap.mem_erase, Finmap.mem_erase, hm]

end

/-- The loop over a list of handles that was collected before it. Several sockets may close on
the way; the handles still ahead are not touched, since none occurs twice. -/
theorem serviceLoop_returns {contig : SocketHandle → ℕ} {order : List SocketHandle} {more : Bool}
    {s : Inner} (hm : s.Matched) (hnodup : order.Nodup) (hactive : ∀ h ∈ order, h ∈ s.active) :
    Exec.Returns (serviceLoop contig order more s) := by
  induction order generalizing s more with
  | nil => exact Exec.returns_ok _
  | cons handle rest ih =>
    obtain ⟨hnot, hrest⟩ := List.nodup_cons.mp hnodup
    have hhead : handle ∈ s.active := hactive handle List.mem_cons_self
    obtain ⟨closed, t, hserve, hmt, hat⟩ := serviceSocket_returns hm hhead (contig handle)
    have hahead (h : SocketHandle) (hh : h ∈ rest) : h ∈ t.active := by
      rw [hat]
      exact hactive h (List.mem_cons_of_mem _ hh)
    rw [serviceLoop, hserve, Exec.ok_bind]
    cases closed with
    | false => exact ih hmt hrest hahead
    | true =>
      have hth : handle ∈ t.active := by rwa [hat]
      obtain ⟨u, hclose, hmu, hau⟩ := closeSocket_returns hmt hth
      simp only [↓reduceIte, hclose, Exec.ok_bind]
      apply ih hmu hrest
      intro h hh
      have hne : h ≠ handle := fun he => hnot (he ▸ hh)
      rw [hau, Finmap.mem_erase]
      exact ⟨hne, hahead h hh⟩

/-- A new listener gets a handle that no entry has. -/
theorem createListener_keeps (alloc : Allocator) {s : Inner} (hm : s.Matched) (vport : UInt16)
    (remote : SocketAddr) {h : SocketHandle} {entry : SocketAddr × VirtualConnectionPeer}
    (he : s.active.lookup h = some entry) :
    (createListener alloc s vport remote).active.lookup h = some entry := by
  have hfresh : alloc.pick s.sockets ∉ s.active := by
    rw [hm]
    exact Finmap.lookup_eq_none.mp (alloc.fresh s.sockets)
  have hne : h ≠ alloc.pick s.sockets := by
    rintro rfl
    exact hfresh (Finmap.mem_of_lookup_eq_some he)
  have hins : (s.active.insert (alloc.pick s.sockets) (remote, ⟨s.made⟩)).lookup h = some entry :=
    (Finmap.lookup_insert_of_ne _ hne).trans he
  unfold createListener
  cases TcpSocket.new.listen ifaceIp vport with
  | none => exact he
  | some socket =>
    simp only
    split_ifs
    · exact hins
    · exact hins

end Inner

/-- The handles the service loop still has to visit: each once, all active. -/
def Pc.Visits (s : Inner) : Pc → Prop
  | .serve _ order => order.Nodup ∧ ∀ h ∈ order, h ∈ s.active
  | _ => True

/-- A panic under the lock, in the checksums of a packet: the packet in hand is lost and the
lock is released on the state as it is, for the mutex is not poisoned. -/
inductive Unwind (alloc : Allocator) : World → World → Prop
  | syn {s s' : Inner} {relays : List VirtualConnection} {raw : Bytes} {rest : List Bytes}
      {src dst : SocketAddr} {vp : UInt16} {e : Panic} (hq : s.tunRx = raw :: rest)
      (hadm : Inner.acceptSyn alloc { s with tunRx := rest } src dst = .ok (s', some vp))
      (hpanic : rewriteInbound raw vp = .error e) :
      Unwind alloc ⟨s, .ingest, relays⟩ ⟨s', .idle, relays⟩
  | flow {s : Inner} {relays : List VirtualConnection} {raw : Bytes} {rest : List Bytes}
      {vp : UInt16} {e : Panic} (hq : s.tunRx = raw :: rest)
      (hpanic : rewriteInbound raw vp = .error e) :
      Unwind alloc ⟨s, .ingest, relays⟩ ⟨{ s with tunRx := rest }, .idle, relays⟩
  | forward {s : Inner} {relays : List VirtualConnection} {pkt : Bytes} {rest : List Bytes}
      {e : Panic} (hq : s.device.tx = pkt :: rest)
      (hpanic : Inner.forwardOutbound s.nat pkt = .error e) :
      Unwind alloc ⟨s, .drain, relays⟩
        ⟨{ s with device := { s.device with tx := rest } }, .idle, relays⟩

/-- A step of the stack, or the end of a poll that panicked. -/
def AnyStep (alloc : Allocator) (w : World) : Option Act → World → Prop
  | some a, w' => Step alloc w a w'
  | none, w' => Unwind alloc w w'

/-- The states the stack can be in when it is used on after a panic. -/
def Attainable (alloc : Allocator) (w : World) : Prop :=
  ∃ mtu tr, Run (AnyStep alloc) (World.init mtu) tr w

section

variable {alloc : Allocator} {w w' : World}

theorem Unwind.wf (hw : w.inner.Wf) (h : Unwind alloc w w') : w'.inner.Wf := by
  cases h with
  | @syn s s' relays raw rest src dst vp e hq hadm hpanic =>
    have hpop := hw.frame (Inner.Frame.popRx s rest)
    obtain ⟨⟨nat, vport⟩, hins, -⟩ := Exec.bind_eq_ok.mp hadm
    cases vport with
    | none => cases (Inner.acceptSyn_none hins).symm.trans hadm
    | some vp' =>
      -- the listener was opened as a whole before the packet was rewritten
      have heq := Except.ok.inj ((Inner.acceptSyn_some hins).symm.trans hadm)
      rw [← (Prod.mk.inj heq).1]
      exact hpop.admitted hins
  | flow hq hpanic => exact hw.frame (Inner.Frame.popRx _ _)
  | forward hq hpanic =>
    exact hw.frame ⟨rfl, rfl, rfl, fun _ => Iff.rfl, fun _ => rfl, fun _ => rfl,
      List.suffix_refl _⟩

theorem Step.visits {a : Act} (hv : w.pc.Visits w.inner) (h : Step alloc w a w') :
    w'.pc.Visits w'.inner := by
  cases h with
  | smoltcp hq hfit => exact ⟨hfit.nodup, fun h hh => (hfit.order h).mp hh⟩
  | @service s relays handle rest sock remote peer phase a c hs ha h =>
    obtain ⟨hnodup, hactive⟩ := hv
    -- the head stays or goes, and `active` is as it was
    show Pc.Visits _ (.serve c.phase (if c.phase = .idle then rest else handle :: rest))
    split_ifs
    · exact ⟨(List.nodup_cons.mp hnodup).2, fun x hx => hactive x (List.mem_cons_of_mem _ hx)⟩
    · exact ⟨hnodup, hactive⟩
  | @close s s' relays handle rest sock hs hg h =>
    obtain ⟨hnodup, hactive⟩ := hv
    obtain ⟨hnot, hrest⟩ := List.nodup_cons.mp hnodup
    obtain ⟨remote, peer, -, rfl⟩ := Inner.closeSocket_ok h
    refine ⟨hrest, ?_⟩
    intro x hx
    have hne : x ≠ handle := fun he => hnot (he ▸ hx)
    exact Finmap.mem_erase.mpr ⟨hne, hactive x (List.mem_cons_of_mem _ hx)⟩
  | @relay s pc relays conn a link hc h =>
    cases pc with
    | serve phase order => exact hv
    | _ => trivial
  | _ => trivial

theorem Unwind.visits (h : Unwind alloc w w') : w'.pc.Visits w'.inner := by
  cases h <;> trivial

theorem Attainable.wf_visits (h : Attainable alloc w) : w.inner.Wf ∧ w.pc.Visits w.inner := by
  obtain ⟨mtu, tr, hrun⟩ := h
  refine hrun.invariant (fun w => w.inner.Wf ∧ w.pc.Visits w.inner) ⟨Inner.wf_new mtu, trivial⟩ ?_
  intro t l u ht hl
  cases l with
  | some a => exact ⟨Step.wf ht.1 hl, Step.visits ht.2 hl⟩
  | none => exact ⟨Unwind.wf ht.1 hl, Unwind.visits hl⟩

/-- Any run of the stack is one on which nothing panics. -/
theorem Reachable.attainable (h : Reachable alloc w) :
    Attainable alloc w := by
  obtain ⟨mtu, tr, hrun⟩ := h
  have hstep : ∃ tr', Run (AnyStep alloc) (World.init mtu) tr' w := by
    apply hrun.invariant (fun w => ∃ tr', Run (AnyStep alloc) (World.init mtu) tr' w)
    · exact ⟨[], Run.nil⟩
    · rintro t a u ⟨tr', hrun'⟩ hs
      exact ⟨_, hrun'.snoc (l := some a) hs⟩
  obtain ⟨tr', hrun'⟩ := hstep
  exact ⟨mtu, tr', hrun'⟩

/-- Two SYNs to different remotes, taken in by one poll. -/
theorem two_listeners : ∃ s h₀ h₁ entry₀ entry₁, Reachable .lowest ⟨s, .ingest, []⟩ ∧ h₀ ≠ h₁ ∧
    s.tunRx = [] ∧ s.active = Finmap.insert h₁ entry₁ (Finmap.insert h₀ entry₀ ∅) := by
  let second := synPacket ⟨1, 1, 1, 1⟩ 40001
  let fed : Inner := { Inner.new 1500 with tunRx := [second] }
  have hfeed : Step .lowest (World.init 1500) (.feedInbound (synPacket exampleIp 40000)) _ :=
    .feedInbound _
  have hnone (handle : SocketHandle) (entry : SocketAddr × VirtualConnectionPeer)
      (he : fed.active.lookup handle = some entry) : entry.1 ≠ .v4 exampleIp 443 := by
    simp [fed, Inner.new] at he
  obtain ⟨nat, vp, pkt, hs, -, hr, hf, hb⟩ := syn_opens .lowest
    ((Inner.wf_new 1500).frame (Inner.Frame.popRx _ [second])) (synPacket_addrs exampleIp 40000)
    rfl rfl ⟨10000, ⟨by decide, by decide⟩, rfl⟩ hnone (by decide)
  have ho := Inner.createListener_opened .lowest { fed with nat } (.v4 exampleIp 443) hr.ne_zero
  have hrun := (((Run.single hfeed).snoc (.feedInbound second)).snoc .beginPoll).snoc
    (.ingest rfl hs)
  generalize hlisten : Inner.createListener .lowest { fed with nat } vp (.v4 exampleIp 443) = s at *
  -- the second SYN meets one mapped port and one active socket
  have hrest : ({ s.pushRx pkt with tunRx := [] } : Inner).Wf :=
    (Reachable.wf ⟨1500, _, hrun⟩).frame (Inner.Frame.popRx _ [])
  have hnew : s.nat.lookupForward (.v4 ⟨10, 0, 0, 1⟩ 40001) (.v4 ⟨1, 1, 1, 1⟩ 443) = none := by
    rw [ho.nat, NatTable.lookupForward, hf, Finmap.lookup_insert_of_ne _ (by decide)]
    rfl
  have hroom : ∃ v, NatTable.InRange v ∧ s.nat.lookupReverse v = none := by
    have hfree (v : UInt16) (hv : v ≠ vp) : s.nat.lookupReverse v = none := by
      rw [ho.nat, NatTable.lookupReverse, hb, Finmap.lookup_insert_of_ne _ hv]
      rfl
    by_cases hv : (10000 : UInt16) = vp
    · refine ⟨10001, ⟨by decide, by decide⟩, hfree _ ?_⟩
      rw [← hv]
      decide
    · exact ⟨10000, ⟨by decide, by decide⟩, hfree _ hv⟩
  have hother (handle : SocketHandle) (entry : SocketAddr × VirtualConnectionPeer)
      (he : s.active.lookup handle = some entry) : entry.1 ≠ .v4 ⟨1, 1, 1, 1⟩ 443 := by
    rw [ho.active, Table.lookup_insert_eq] at he
    split_ifs at he
    · cases he
      show SocketAddr.v4 exampleIp 443 ≠ .v4 ⟨1, 1, 1, 1⟩ 443
      decide
    · simp [fed, Inner.new] at he
  obtain ⟨nat', vp', pkt', hs', -, hr', -, -⟩ := syn_opens .lowest hrest
    (synPacket_addrs ⟨1, 1, 1, 1⟩ 40001) rfl hnew hroom hother (by decide)
  have ho' := Inner.createListener_opened .lowest { s.pushRx pkt with tunRx := [], nat := nat' }
    (.v4 ⟨1, 1, 1, 1⟩ 443) hr'.ne_zero
  have hrun' := hrun.snoc (.ingest ho.queues.2 hs')
  have hne : Allocator.lowest.pick ∅ ≠ Allocator.lowest.pick s.sockets := by
    intro he
    have hfresh := Allocator.lowest.fresh s.sockets
    rw [← he, ho.sockets] at hfresh
    exact Option.some_ne_none _ ((Finmap.lookup_insert _).symm.trans hfresh)
  exact ⟨_, _, _, _, _, ⟨1500, _, hrun'⟩, hne, ho'.queues.2,
    ho'.active.trans (congrArg _ ho.active)⟩

/-- In every state, also in the middle of a poll and after a panic elsewhere, `active` and the
socket set hold the same handles, a new listener overwrites no entry, at most 128 connections
are pending, and the lookups of the service loop find what they look for. -/
theorem active_matches_sockets (h : Attainable alloc w) :
    (∀ handle, handle ∈ w.inner.active ↔ handle ∈ w.inner.sockets) ∧
    (∀ nat vport remote handle entry, w.inner.active.lookup handle = some entry →
      (Inner.createListener alloc { w.inner with nat := nat } vport remote).active.lookup handle =
        some entry) ∧
    w.inner.pending.length ≤ 128 ∧
    (∀ phase handle rest, w.pc = .serve phase (handle :: rest) →
      (∀ contig, Exec.Returns (Inner.serviceSocket contig w.inner handle)) ∧
        Exec.Returns (Inner.closeSocket w.inner handle)) ∧
    ∀ env, Inner.PollEnv.Fits env w.inner →
      Exec.Returns (Inner.serviceLoop env.contig env.order env.progress (w.inner.drive env)) := by
  obtain ⟨hwf, hv⟩ := h.wf_visits
  have hm : w.inner.Matched := hwf.handles
  refine ⟨hm, ?_, hwf.pending, ?_, ?_⟩
  · intro nat vport remote handle entry he
    exact Inner.createListener_keeps alloc (s := { w.inner with nat := nat }) hm vport remote he
  · intro phase handle rest hpc
    rw [hpc] at hv
    have ha := hv.2 handle List.mem_cons_self
    constructor
    · intro contig
      obtain ⟨closed, s', hs, -, -⟩ := Inner.serviceSocket_returns hm ha contig
      exact ⟨_, hs⟩
    · obtain ⟨s', hs, -, -⟩ := Inner.closeSocket_returns hm ha
      exact ⟨_, hs⟩
  · intro env hfit
    apply Inner.serviceLoop_returns
    · intro handle
      exact (hm handle).trans (hfit.handles handle).symm
    · exact hfit.nodup
    · intro handle hh
      exact (hfit.order handle).mp hh

end

/-- In the service loop, with one socket that is gone and one that is open behind it: both lookups
on the socket at hand succeed, and so does the whole loop. -/
theorem closing_socket_served : ∃ w h₀ h₁ sock₀ sock₁, Attainable .lowest w ∧ h₀ ≠ h₁ ∧
    w.pc = .serve .idle [h₁, h₀] ∧ w.inner.sockets.lookup h₁ = some sock₁ ∧
    sock₁.isGone = true ∧ w.inner.sockets.lookup h₀ = some sock₀ ∧ sock₀.state = .established ∧
    (∀ handle, handle ∈ w.inner.active ↔ handle ∈ w.inner.sockets) ∧
    (∀ contig, Exec.Returns (Inner.serviceSocket contig w.inner h₁)) ∧
    Exec.Returns (Inner.closeSocket w.inner h₁) ∧
    Exec.Returns (Inner.serviceLoop (fun _ => 0) [h₁, h₀] false w.inner) ∧
    w.inner.pending.length ≤ 128 ∧ ∃ entry, w.inner.active.lookup h₀ = some entry ∧
      (Inner.createListener .lowest w.inner 10002 entry.1).active.lookup h₀ = some entry := by
  obtain ⟨s, h₀, h₁, entry₀, entry₁, hreach, hne, hrx, hactive⟩ := two_listeners
  let opened : TcpSocket := ⟨.established, some (ifaceIp, 10000), [1, 2, 3], []⟩
  let gone : TcpSocket := ⟨.timeWait, some (ifaceIp, 10001), [], []⟩
  let env : Inner.PollEnv :=
    ⟨Finmap.insert h₁ gone (Finmap.insert h₀ opened ∅), [], [], false, [h₁, h₀], fun _ => 0⟩
  have hkeys (h : SocketHandle) : h ∈ s.active ↔ h = h₁ ∨ h = h₀ := by
    rw [hactive, Finmap.mem_insert, Finmap.mem_insert]
    simp only [Finmap.notMem_empty, or_false]
  have hfit : env.Fits s := by
    refine ⟨?_, by simp [env, hne.symm], ?_⟩
    · intro h
      rw [← hreach.wf.handles, hkeys, Finmap.mem_insert, Finmap.mem_insert]
      simp only [Finmap.notMem_empty, or_false]
    · intro h
      rw [hkeys, List.mem_cons, List.mem_singleton]
  have hw : Attainable .lowest ⟨s.drive env, .serve .idle [h₁, h₀], []⟩ :=
    (hreach.run (Run.single (.smoltcp hrx hfit))).attainable
  obtain ⟨hmatch, hkeep, hpending, hserve, hloop⟩ := active_matches_sockets hw
  obtain ⟨hservice, hclose⟩ := hserve .idle h₁ [h₀] rfl
  have hentry : s.active.lookup h₀ = some entry₀ := by
    rw [hactive, Finmap.lookup_insert_of_ne _ hne, Finmap.lookup_insert]
  have hagain : env.Fits (s.drive env) := ⟨fun _ => Iff.rfl, hfit.nodup, hfit.order⟩
  have hopened : env.sockets.lookup h₀ = some opened := by
    rw [Finmap.lookup_insert_of_ne _ hne, Finmap.lookup_insert]
  exact ⟨_, h₀, h₁, opened, gone, hw, hne, rfl, Finmap.lookup_insert _, rfl, hopened, rfl, hmatch,
    hservice, hclose, hloop env hagain, hpending, entry₀, hentry,
    hkeep s.nat 10002 entry₀.1 h₀ entry₀ hentry⟩

end GravitalShare.Stack
