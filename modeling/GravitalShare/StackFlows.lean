import GravitalShare.FirstCome
import GravitalShare.StackRelease

/-! The flows that a stack serves in the course of a run. No entry leaves the NAT table, so the
ports go to the flows that came first and are never free again. -/
namespace GravitalShare.Stack

def virtualPorts : Finset UInt16 := (Finset.range 50000).image fun i => UInt16.ofNat (10000+i)

theorem mem_virtualPorts {v : UInt16} : v ∈ virtualPorts ↔ NatTable.InRange v := by
  simp only [virtualPorts, Finset.mem_image, Finset.mem_range]
  constructor
  · rintro ⟨i, hi, rfl⟩
    rw [NatTable.InRange, UInt16.toNat_ofNat', Nat.mod_eq_of_lt (by omega)]
    omega
  · rintro ⟨hlo, hhi⟩
    refine ⟨v.toNat-10000, by omega, UInt16.toNat_inj.mp ?_⟩
    rw [UInt16.toNat_ofNat', Nat.mod_eq_of_lt (by omega)]
    omega

theorem card_virtualPorts : virtualPorts.card = 50000 := by
  rw [virtualPorts, Finset.card_image_of_injOn, Finset.card_range]
  intro i hi j hj heq
  have hi := Finset.mem_range.mp (Finset.mem_coe.mp hi)
  have hj := Finset.mem_range.mp (Finset.mem_coe.mp hj)
  have hnat := congrArg UInt16.toNat heq
  simp only [UInt16.toNat_ofNat'] at hnat
  omega

/-- The flow that a packet asks the stack for: that of a SYN. -/
def synFlow (raw : Bytes) : List FiveTuple :=
  match extractTcpAddrs raw, isTcpSyn raw with
  | .ok (some flow), .ok true => [flow]
  | _, _ => []

theorem synFlow_of_syn {raw : Bytes} (hp : IsIpv4Tcp 20 raw) (hsyn : synFlag raw = true) :
    synFlow raw = [(srcEndpoint raw, dstEndpoint raw)] := by
  simp only [synFlow, extractTcpAddrs_eq, if_pos hp, isTcpSyn_eq hp, hsyn]

theorem synFlow_of_not {raw : Bytes} (h : IsIpv4Tcp 20 raw → synFlag raw = false) :
    synFlow raw = [] := by
  rw [synFlow, extractTcpAddrs_eq]
  by_cases hp : IsIpv4Tcp 20 raw
  · simp only [if_pos hp, isTcpSyn_eq hp, h hp]
  · simp only [if_neg hp]

def askedAt (_ : World) : Act → List FiveTuple
  | .ingest raw => synFlow raw
  | _ => []

/-- The first 50000 flows that the packets of a run asked for. -/
def firstFlows (tr : List (World × Act)) : List FiveTuple := seats 50000 (gather askedAt tr)

namespace NatTable

/-- A table that holds the first flows goes on holding the first flows, and it has a port for the
flow exactly if that is one of them. -/
theorem insert_seated {t t' : NatTable} {asked : List FiveTuple} {src dst : SocketAddr}
    {r : Option UInt16} (ht : t.Valid) (hs : Seated t.forward (seats 50000 asked))
    (h : t.insert src dst = .ok (t', r)) :
    Seated t'.forward (seats 50000 (asked ++ [(src, dst)])) ∧
      (r ≠ none ↔ (src, dst) ∈ seats 50000 (asked ++ [(src, dst)])) := by
  have hfull := ht.inverse.full_iff (fun v k hk => mem_virtualPorts.mpr (ht.ports v k hk))
    (nodup_seats 50000 asked) hs
  rw [card_virtualPorts] at hfull
  rw [seats_snoc]
  obtain ⟨vp, hk, hi⟩ | ⟨vp, next, hk, hv, hr, -, hi⟩ | ⟨hk, hall, hi⟩ :=
      insert_cases ht src dst <;> rw [hi] at h <;> cases h
  · -- the flow has its port already
    have hmem := (hs (src, dst)).mp (hk ▸ Option.some_ne_none vp)
    have hsame : seat 50000 (seats 50000 asked) (src, dst) = seats 50000 asked :=
      if_pos (Or.inl hmem)
    rw [hsame]
    exact ⟨hs, iff_of_true (Option.some_ne_none vp) hmem⟩
  · -- a port was free, so there was a seat
    have hnew : (src, dst) ∉ seats 50000 asked := fun hmem => (hs (src, dst)).mpr hmem hk
    have hroom : (seats 50000 asked).length < 50000 := by
      apply Nat.not_le.mp
      exact fun hle => hfull.mpr hle vp (mem_virtualPorts.mpr hr) hv
    rw [seat_of_room hnew hroom]
    exact ⟨hs.insert (src, dst) vp, iff_of_true (Option.some_ne_none vp)
      (List.mem_append_right _ (List.mem_singleton_self _))⟩
  · -- all ports are taken
    have hnew : (src, dst) ∉ seats 50000 asked := fun hmem => (hs (src, dst)).mpr hmem hk
    have hle := hfull.mp fun v hv => hall v (mem_virtualPorts.mp hv)
    have hsame : seat 50000 (seats 50000 asked) (src, dst) = seats 50000 asked :=
      if_pos (Or.inr hle)
    rw [hsame]
    exact ⟨hs, iff_of_false (fun hn => hn rfl) hnew⟩

end NatTable

section

variable {alloc : Allocator} {s s' : Inner} {raw : Bytes} {asked : List FiveTuple}

theorem Inner.admitted_nat (alloc : Allocator) (s : Inner) (nat : NatTable) {vp : UInt16}
    (dst : SocketAddr) (hv : vp ≠ 0) : (admitted alloc s nat vp dst).nat = nat := by
  rcases admitted_cases alloc s nat dst hv with hsame | ho
  · rw [hsame]
  · exact ho.nat

theorem Inner.processInbound_seated (hs : s.Wf) (hseat : Seated s.nat.forward (seats 50000 asked))
    (h : processInbound alloc s raw = .ok s') :
    Seated s'.nat.forward (seats 50000 (asked ++ synFlow raw)) := by
  have hquiet (hsyn : synFlag raw = false) :
      Seated s.nat.forward (seats 50000 (asked ++ synFlow raw)) := by
    rwa [synFlow_of_not fun _ => hsyn, List.append_nil]
  obtain ⟨rfl, hnot⟩ | ⟨nat, hp, hsyn, hins, rfl⟩ | ⟨vp, pkt, hp, hflow, -, rfl⟩ |
      ⟨nat, vp, pkt, hp, hsyn, hins, -, rfl⟩ := processInbound_cases h
  · rwa [synFlow_of_not fun hp => (hnot hp).1, List.append_nil]
  · rw [synFlow_of_syn hp hsyn]
    exact (NatTable.insert_seated hs.nat hseat hins).1
  · -- a flow that is known, with or without a SYN
    cases hsyn : synFlag raw with
    | false => exact hquiet hsyn
    | true =>
      rw [synFlow_of_syn hp hsyn]
      exact (NatTable.insert_seated hs.nat hseat (NatTable.insert_of_present hflow)).1
  · have hr := (NatTable.insert_some hs.nat hins).2.2.2
    rw [synFlow_of_syn hp hsyn]
    show Seated (admitted alloc s nat vp (dstEndpoint raw)).nat.forward _
    rw [admitted_nat alloc s nat _ hr.ne_zero]
    exact (NatTable.insert_seated hs.nat hseat hins).1

variable {w w' w'' : World} {a : Act} {tr tr' : List (World × Act)} {mtu : UInt16}

theorem Step.seated (hw : w.inner.Wf) (hseat : Seated w.inner.nat.forward (seats 50000 asked))
    (h : Step alloc w a w') :
    Seated w'.inner.nat.forward (seats 50000 (asked ++ askedAt w a)) := by
  have hsame (hno : askedAt w a = []) (hnat : w'.inner.nat = w.inner.nat) :
      Seated w'.inner.nat.forward (seats 50000 (asked ++ askedAt w a)) := by
    rwa [hno, List.append_nil, hnat]
  cases h with
  | @ingest s s' _ raw rest hq hproc =>
    exact Inner.processInbound_seated (hw.frame (Inner.Frame.popRx s rest)) hseat hproc
  | close _ _ hc =>
    obtain ⟨remote, peer, -, heq⟩ := Inner.closeSocket_ok hc
    exact hsame rfl (by rw [heq])
  | _ => exact hsame rfl rfl

/-- In every run the flows with a virtual port are the first 50000 that were asked for. -/
theorem run_seated (h : Run (Step alloc) (World.init mtu) tr w) :
    w.inner.Wf ∧ Seated w.inner.nat.forward (firstFlows tr) := by
  refine h.history (fun tr w => w.inner.Wf ∧ Seated w.inner.nat.forward (firstFlows tr)) ?_ ?_
  · refine ⟨Inner.wf_new mtu, ?_⟩
    intro k
    exact iff_of_false (fun hk => hk (Finmap.lookup_empty k)) List.not_mem_nil
  · intro tr w a w' hw hstep
    refine ⟨hstep.wf hw.1, ?_⟩
    rw [firstFlows, gather_snoc]
    exact hstep.seated hw.1 hw.2

/-- What becomes of a SYN: its flow has a port and a packet goes to smoltcp, or nothing changes. -/
theorem Inner.processInbound_syn (hs : s.Wf) {flow : FiveTuple} (hflow : synFlow raw = [flow])
    (h : processInbound alloc s raw = .ok s') :
    s'.nat.forward.lookup flow ≠ none ∧ (∃ pkt, s'.device.rx = s.device.rx ++ [pkt]) ∨
      s'.nat.forward.lookup flow = none ∧ s' = s := by
  have hp : IsIpv4Tcp 20 raw ∧ synFlag raw = true := by
    by_contra hn
    rw [synFlow_of_not fun hp => Bool.eq_false_iff.mpr fun hsyn => hn ⟨hp, hsyn⟩] at hflow
    cases hflow
  rw [synFlow_of_syn hp.1 hp.2] at hflow
  obtain rfl := List.singleton_inj.mp hflow
  obtain ⟨-, hnot⟩ | ⟨nat, -, -, hins, rfl⟩ | ⟨vp, pkt, -, hk, -, rfl⟩ |
      ⟨nat, vp, pkt, -, -, hins, -, rfl⟩ := processInbound_cases h
  · exact absurd (hp.2.symm.trans (hnot hp.1).1) Bool.noConfusion
  · -- the table was full
    obtain rfl := NatTable.insert_none hs.nat hins
    exact Or.inr ⟨((NatTable.insert_refuses_iff hs.nat _ _).mp ⟨_, hins⟩).1, rfl⟩
  · refine Or.inl ⟨?_, pkt, rfl⟩
    show s.nat.forward.lookup _ ≠ none
    rw [show s.nat.forward.lookup _ = some vp from hk]
    exact Option.some_ne_none vp
  · obtain ⟨hv, -, hrev, hr⟩ := NatTable.insert_some hs.nat hins
    refine Or.inl ⟨?_, pkt, ?_⟩
    · show (admitted alloc s nat vp (dstEndpoint raw)).nat.forward.lookup _ ≠ none
      rw [admitted_nat alloc s nat _ hr.ne_zero, (hv.inverse _ vp).mpr hrev]
      exact Option.some_ne_none vp
    · rcases admitted_cases alloc s nat (dstEndpoint raw) hr.ne_zero with hsame | ho
      · rw [hsame]
        rfl
      · exact congrArg (fun d : TunVirtualDevice => d.rx ++ [pkt]) ho.device

/-- Over any run, a SYN is passed on to smoltcp exactly if its flow is among the first 50000 that
the run has asked for, no matter how many connections are open, and is dropped without a trace
otherwise. From the 50000th flow on the mapping never changes again. -/
theorem syn_served_iff {flow : FiveTuple} (h : Run (Step alloc) (World.init mtu) tr w)
    (hstep : Step alloc w (.ingest raw) w') (hflow : synFlow raw = [flow]) :
    ((∃ pkt, w'.inner.device.rx = w.inner.device.rx ++ [pkt]) ↔
      flow ∈ firstFlows (tr ++ [(w, .ingest raw)])) ∧
    (flow ∉ firstFlows (tr ++ [(w, .ingest raw)]) →
      w' = { w with inner := { w.inner with tunRx := w.inner.tunRx.tail } }) ∧
    ((firstFlows tr).length = 50000 → ∀ tr' w'', Run (Step alloc) w tr' w'' →
      ∀ src dst, w''.inner.nat.lookupForward src dst = w.inner.nat.lookupForward src dst) := by
  have hw := run_seated h
  have hw' := (run_seated (h.snoc hstep)).2 flow
  refine ⟨?_, ?_, ?_⟩
  · cases hstep with
    | @ingest s s' relays raw rest hq hproc =>
      rw [← hw']
      rcases Inner.processInbound_syn (hw.1.frame (Inner.Frame.popRx s rest)) hflow hproc with
        ⟨hk, hrx⟩ | ⟨hk, heq⟩
      · exact iff_of_true hrx hk
      · refine iff_of_false ?_ fun hn => hn hk
        rintro ⟨pkt, hrx⟩
        rw [heq] at hrx
        exact List.cons_ne_nil pkt [] (List.self_eq_append_right.mp hrx)
  · intro hnot
    rw [← hw', not_not] at hnot
    cases hstep with
    | @ingest s s' relays raw rest hq hproc =>
      rcases Inner.processInbound_syn (hw.1.frame (Inner.Frame.popRx s rest)) hflow hproc with
        ⟨hk, -⟩ | ⟨-, heq⟩
      · exact absurd hnot hk
      · rw [heq, hq]
        rfl
  · intro hfull tr' w'' hrun src dst
    have hw'' := (run_seated (h.append hrun)).2 (src, dst)
    have hsame : firstFlows (tr ++ tr') = firstFlows tr := by
      rw [firstFlows, gather_append]
      exact seats_of_full hfull.ge _
    rw [hsame, ← hw.2 (src, dst)] at hw''
    have hvalid := (run_seated (h.append hrun)).1.nat
    -- no entry is lost, and none is new
    cases hk : w.inner.nat.lookupForward src dst with
    | some vp =>
      apply (hvalid.inverse (src, dst) vp).mpr
      have hrev := (hw.1.nat.inverse (src, dst) vp).mp hk
      exact Reachable.nat_extends ⟨mtu, tr, h⟩ hrun vp _ hrev
    | none =>
      by_contra hne
      exact hw''.mp hne hk

end

/-- The first SYN that a stack sees. -/
theorem first_syn_served : ∃ s pkt,
    Inner.processInbound .lowest (Inner.new 1500) (synPacket exampleIp 40000) = .ok s ∧
    s.device.rx = [pkt] := by
  obtain ⟨nat, vp, pkt, s, hs, -⟩ := first_syn (synPacket_addrs exampleIp 40000) rfl (by decide)
  have hfeed : Step .lowest (World.init 1500) (.feedInbound (synPacket exampleIp 40000)) _ :=
    .feedInbound _
  have hrun := (Run.single hfeed).snoc .beginPoll
  have hflow : synFlow (synPacket exampleIp 40000) =
      [(.v4 ⟨10, 0, 0, 1⟩ 40000, .v4 exampleIp 443)] := by
    rw [synFlow, synPacket_addrs]
    rfl
  obtain ⟨pkt', hrx⟩ := (syn_served_iff hrun (.ingest rfl hs) hflow).1.mpr (by
    show _ ∈ seats 50000 (synFlow (synPacket exampleIp 40000))
    rw [hflow]
    exact List.mem_singleton_self _)
  exact ⟨_, pkt', hs, hrx⟩

end GravitalShare.Stack
