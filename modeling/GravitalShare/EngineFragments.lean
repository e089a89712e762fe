import GravitalShare.EngineTunRead
import GravitalShare.StackAdmission
import GravitalShare.StackHostile

/-! What the client makes of a fragment that does not begin its datagram. Neither the read loop
nor the stack looks at the fragment offset, so its payload is read as a header. -/
namespace GravitalShare.Engine

open Proto Stack

/-- The read loop takes `pkt`, and then the stack what it was fed. -/
def intake (alloc : Allocator) (t : TunRead) (s : Inner) (pkt : Bytes) :
    Exec (TunRead × Inner) := do
  let t' ← t.onPacket pkt
  let s' ← (t'.fed.drop t.fed.length).foldlM (Inner.processInbound alloc) s
  .ok (t', s')

/-- The offset in units of eight bytes; the three bits above it are flags. -/
def fragOffset (pkt : Bytes) : UInt16 := wordAt pkt 6 &&& 0x1FFF

def LaterFragment (pkt : Bytes) : Prop := byteAt pkt 0 >>> 4 = 4 ∧ fragOffset pkt ≠ 0

/-- No entry of the NAT table, no listener and no packet for smoltcp. -/
structure Untouched (s s' : Inner) : Prop where
  nat : s'.nat = s.nat
  sockets : s'.sockets = s.sockets
  active : s'.active = s.active
  rx : s'.device.rx = s.device.rx

/-- The bytes where a TCP header would be name a flow that the stack knows or, as a SYN, one that
it has a port for. -/
def TakenForFlow (s : Inner) (pkt : Bytes) : Prop :=
  IsIpv4Tcp 20 pkt ∧
    ((∃ vp, s.nat.lookupForward (srcEndpoint pkt) (dstEndpoint pkt) = some vp) ∨
      synFlag pkt = true ∧ ∃ v, NatTable.InRange v ∧ s.nat.lookupReverse v = none)

theorem untouched_refl (s : Inner) : Untouched s s := ⟨rfl, rfl, rfl, rfl⟩

theorem not_untouched_pushRx {s u : Inner} (h : u.device = s.device) (pkt : Bytes) :
    ¬Untouched s (u.pushRx pkt) := by
  intro hu
  have hrx : u.device.rx ++ [pkt] = s.device.rx := hu.rx
  rw [h] at hrx
  exact append_singleton_ne _ _ hrx

section

variable {alloc : Allocator} {s s' : Inner} {pkt : Bytes}

/-- The stack leaves exactly those packets alone that name no flow. -/
theorem processInbound_untouched_iff (hs : s.nat.Valid)
    (h : Inner.processInbound alloc s pkt = .ok s') :
    Untouched s s' ↔ ¬TakenForFlow s pkt := by
  obtain ⟨rfl, hno⟩ | ⟨nat, -, -, hins, rfl⟩ | ⟨vp, out, hp, hk, -, rfl⟩ |
      ⟨nat, vp, out, hp, hsyn, hins, -, rfl⟩ := Inner.processInbound_cases h
  · refine iff_of_true (untouched_refl _) ?_
    rintro ⟨hp, ⟨vp, hk⟩ | ⟨hsyn, -⟩⟩
    · cases (hno hp).2.symm.trans hk
    · cases (hno hp).1.symm.trans hsyn
  · -- the table is full, and the scan has left its cursor where it was
    obtain ⟨habsent, hfull⟩ := (NatTable.insert_refuses_iff hs _ _).mp ⟨nat, hins⟩
    obtain rfl := NatTable.insert_none hs hins
    refine iff_of_true (untouched_refl _) ?_
    rintro ⟨-, ⟨vp, hk⟩ | ⟨-, v, hv, hfree⟩⟩
    · cases habsent.symm.trans hk
    · exact hfull v hv hfree
  · exact iff_of_false (not_untouched_pushRx rfl out) (not_not.mpr ⟨hp, Or.inl ⟨vp, hk⟩⟩)
  · have hdev := (Inner.admitted_frame alloc s nat vp (dstEndpoint pkt)).2
    refine iff_of_false (not_untouched_pushRx hdev out) (not_not.mpr ⟨hp, ?_⟩)
    rcases NatTable.insert_cases hs (srcEndpoint pkt) (dstEndpoint pkt) with
      ⟨v, hk, -⟩ | ⟨v, next, -, hfree, hr, -⟩ | ⟨-, -, hnone⟩
    · exact Or.inl ⟨v, hk⟩
    · exact Or.inr ⟨hsyn, v, hr, hfree⟩
    · cases hnone.symm.trans hins

end

section Intake

variable {alloc : Allocator} {t : TunRead} {s : Inner} {pkt : Bytes}

/-- A packet that is not fed does not reach the stack. -/
theorem intake_of_unfed {t' : TunRead} (h : t.onPacket pkt = .ok t') (hfed : t'.fed = t.fed) :
    intake alloc t s pkt = .ok (t', s) := by
  rw [intake, h, Exec.ok_bind, hfed, List.drop_length]
  rfl

theorem intake_of_fed (h : t.onPacket pkt = .ok ((t.count pkt).feedInbound pkt)) :
    intake alloc t s pkt =
      Inner.processInbound alloc s pkt >>= fun s' => .ok ((t.count pkt).feedInbound pkt, s') := by
  have hfed : ((t.count pkt).feedInbound pkt).fed.drop t.fed.length = [pkt] :=
    List.drop_left
  rw [intake, h, Exec.ok_bind, hfed, List.foldlM_cons]
  cases Inner.processInbound alloc s pkt <;> rfl

theorem parse_of_taken (h20 : 20 ≤ ihl pkt) (h : TakenForFlow s pkt) :
    ∃ v, IpView.parse pkt = .ok (.v4 v) ∧ v.protocol = .tcp := by
  obtain ⟨hl, h4, h6, hle⟩ := h.1
  have hih : Stack.ihl pkt = ihl pkt := rfl
  obtain ⟨v, hv, hproto⟩ := parse_v4 hl h4 h20 (by omega)
  exact ⟨v, hv, hproto.trans ((IpProtocol.ofUInt8_eq_tcp _).mpr h6)⟩

theorem intake_tcp (alloc : Allocator) (t : TunRead) (hs : s.nat.Valid)
    (htcp : ∃ ip, IpView.parse pkt = .ok ip ∧ ip.protocol = .tcp) :
    (pkt.length ≤ 65535 → ∃ r, intake alloc t s pkt = .ok r) ∧
    ∀ r, intake alloc t s pkt = .ok r →
      (Untouched s r.2 ∧ r.1.dns = t.dns ↔ ¬TakenForFlow s pkt) := by
  rw [intake_of_fed ((t.feeds_iff pkt).mpr htcp)]
  constructor
  · intro hlen
    obtain ⟨s', hs', -⟩ := Inner.processInbound_total alloc hs.cursor hlen
    rw [hs', Exec.ok_bind]
    exact ⟨_, rfl⟩
  · intro r hr
    obtain ⟨s', hs', heq⟩ := Exec.bind_eq_ok.mp hr
    cases heq
    have hiff := processInbound_untouched_iff hs hs'
    exact ⟨fun h => hiff.mp h.1, fun h => ⟨hiff.mpr h, rfl⟩⟩

/-- Any other packet leaves the stack alone, and a DNS query alone leaves a trace. -/
theorem intake_other (alloc : Allocator) (t : TunRead) (s : Inner)
    (hother : ¬∃ ip, IpView.parse pkt = .ok ip ∧ ip.protocol = .tcp) :
    ∃ t', intake alloc t s pkt = .ok (t', s) ∧ (t'.dns = t.dns ↔ ¬WholeDns pkt) := by
  by_cases hwhole : WholeDns pkt
  · refine ⟨_, intake_of_unfed (t.onPacket_whole hwhole) rfl, ?_⟩
    exact iff_of_false (append_singleton_ne _ _) (not_not.mpr hwhole)
  by_cases hmal : MalformedDns pkt
  · exact ⟨_, intake_of_unfed (t.onPacket_malformed hmal) rfl, iff_of_true rfl hwhole⟩
  obtain ⟨fate, hfate⟩ := t.onPacket_fate hmal
  cases fate with
  | fed => exact absurd ((t.feeds_iff pkt).mp hfate) hother
  | dns query => exact absurd ((t.spawns_iff pkt).mp ⟨query, hfate⟩) hwhole
  | dropped => exact ⟨_, intake_of_unfed hfate rfl, iff_of_true rfl hwhole⟩

end Intake

/-- A fragment leaves no trace exactly if its payload, read as a header, neither names a flow nor
is a DNS query, in every state that the stack can be in. -/
theorem later_fragment_quiet_iff {alloc : Allocator} {w : Stack.World} (hw : Reachable alloc w)
    (t : TunRead) :
    ∀ pkt, LaterFragment pkt →
      (pkt.length ≤ 65535 → ∃ r, intake alloc t w.inner pkt = .ok r) ∧
      ∀ t' s', intake alloc t w.inner pkt = .ok (t', s') →
        (Untouched w.inner s' ∧ t'.dns = t.dns ↔
          ¬(20 ≤ ihl pkt ∧ TakenForFlow w.inner pkt) ∧ ¬WholeDns pkt) := by
  -- the offset is nowhere looked at, so the argument is the same for every packet
  intro pkt _
  by_cases htcp : ∃ ip, IpView.parse pkt = .ok ip ∧ ip.protocol = .tcp
  · have hnot : ¬WholeDns pkt := by
      intro hwhole
      obtain ⟨v, hv, hudp⟩ := parse_udp hwhole.1 hwhole.2.1
      obtain ⟨ip, hip, hproto⟩ := htcp
      cases hip.symm.trans hv
      cases hudp.symm.trans hproto
    have h20 (ht : TakenForFlow w.inner pkt) : 20 ≤ ihl pkt := by
      obtain ⟨ip, hip, -⟩ := htcp
      exact ihl_of_parse hip ht.1.2.1
    obtain ⟨htotal, hiff⟩ := intake_tcp alloc t hw.wf.nat htcp
    refine ⟨htotal, ?_⟩
    intro t' s' hr
    refine (hiff _ hr).trans ?_
    constructor
    · exact fun h => ⟨fun ht => h ht.2, hnot⟩
    · exact fun h ht => h.1 ⟨h20 ht, ht⟩
  · have hnot : ¬(20 ≤ ihl pkt ∧ TakenForFlow w.inner pkt) := by
      rintro ⟨h20, ht⟩
      obtain ⟨v, hv, hproto⟩ := parse_of_taken h20 ht
      exact htcp ⟨_, hv, hproto⟩
    obtain ⟨u, hu, hdns⟩ := intake_other alloc t w.inner htcp
    refine ⟨fun _ => ⟨_, hu⟩, ?_⟩
    intro t' s' hr
    cases hu.symm.trans hr
    constructor
    · exact fun h => ⟨hnot, hdns.mp h.2⟩
    · exact fun h => ⟨untouched_refl _, hdns.mpr h.2⟩

/-- A fragment from 10.0.0.1 that continues its datagram at byte 1480. -/
def laterFragment (proto : UInt8) (payload : Bytes) : Bytes :=
  [0x45, 0, 0, UInt8.ofNat (20+payload.length), 0, 0, 0, 185, 64, proto, 0, 0, 10, 0, 0, 1] ++
    exampleIp.octets ++ payload

theorem zero_fragment_quiet : ∃ t' s',
    intake .lowest .new (Inner.new 1500) (laterFragment 6 (List.replicate 20 0)) = .ok (t', s') ∧
    Untouched (Inner.new 1500) s' ∧ t'.dns = [] := by
  obtain ⟨htotal, h⟩ := later_fragment_quiet_iff (reachable_init 1500) .new
    (laterFragment 6 (List.replicate 20 0)) ⟨by decide, by decide⟩
  obtain ⟨⟨t', s'⟩, hr⟩ := htotal (by decide)
  have hflow : ¬TakenForFlow (Inner.new 1500) (laterFragment 6 (List.replicate 20 0)) := by
    rintro ⟨-, ⟨vp, hk⟩ | ⟨hsyn, -⟩⟩
    · cases hk
    · exact absurd hsyn (by decide)
  exact ⟨t', s', hr, (h t' s' hr).mpr ⟨fun ht => hflow ht.2, by decide⟩⟩

/-- The data of this fragment looks like a SYN to port 443. -/
def synFragment : Bytes :=
  laterFragment 6 [0x9C, 0x40, 1, 187, 0, 0, 0, 0, 0, 0, 0, 0, 0x50, 2, 0, 0, 0, 0, 0, 0]

/-- The data of this one looks like a query of one byte. -/
def dnsFragment : Bytes := laterFragment 17 [0x9C, 0x40, 0, 53, 0, 9, 0, 0, 7]

/-- The first fragment gets a virtual port, a listener and a rewritten packet, the second a DNS
query. -/
theorem fragment_data_taken_for_headers :
    LaterFragment synFragment ∧ LaterFragment dnsFragment ∧
    (∃ t' s' vp pkt, intake .lowest .new (Inner.new 1500) synFragment = .ok (t', s') ∧
      s'.nat.lookupForward (.v4 ⟨10, 0, 0, 1⟩ 40000) (.v4 exampleIp 443) = some vp ∧
      OwnListener s' vp (.v4 exampleIp 443) ∧ s'.device.rx = [pkt]) ∧
    ∃ t', intake .lowest .new (Inner.new 1500) dnsFragment = .ok (t', Inner.new 1500) ∧
      t'.dns = [(dnsFragment, [7])] := by
  refine ⟨⟨by decide, by decide⟩, ⟨by decide, by decide⟩, ?_, ?_⟩
  · have hx : extractTcpAddrs synFragment =
        .ok (some (.v4 ⟨10, 0, 0, 1⟩ 40000, .v4 exampleIp 443)) := by decide
    obtain ⟨nat, vp, pkt, s, hs, -, -, hf, -, ho⟩ := first_syn hx rfl (by decide)
    have hfed := (TunRead.new.feeds_iff synFragment).mpr ⟨_, rfl, rfl⟩
    have hin := @intake_of_fed .lowest .new (Inner.new 1500) synFragment hfed
    rw [hs, Exec.ok_bind] at hin
    have hnat : (s.pushRx pkt).nat = nat := ho.nat
    refine ⟨_, _, vp, pkt, hin, ?_, ownListener_of_opened ho pkt, ?_⟩
    · rw [hnat, NatTable.lookupForward, hf]
      exact Finmap.lookup_insert _
    · exact congrArg (fun d : TunVirtualDevice => d.rx ++ [pkt]) ho.device
  · exact ⟨_, intake_of_unfed rfl rfl, rfl⟩

end GravitalShare.Engine
