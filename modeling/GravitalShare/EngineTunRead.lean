import GravitalShare.ProtoIp
import Mathlib.Data.List.Induction

/-! What becomes of the packets that `tun_read_task` reads, and the counters that account for
them. -/
namespace GravitalShare.Engine

open Proto

/-- The guard of both UDP helpers: version 4, protocol UDP and a whole UDP header. It yields the
length of the IP header. -/
def ipv4Udp (pkt : Bytes) : Exec (Option ℕ) :=
  if pkt.length < 20 then .ok none
  else do
    let b0 ← index pkt 0
    let proto ← index pkt 9
    let ihl := (b0 &&& 0x0F).toNat*4
    if b0 >>> 4 ≠ 4 ∨ proto ≠ 17 then .ok none
    else if pkt.length < ihl+8 then .ok none
    else .ok (some ihl)

def udpDstPort (pkt : Bytes) : Exec (Option UInt16) := do
  match ← ipv4Udp pkt with
  | none => .ok none
  | some ihl =>
    let hi ← index pkt (ihl+2)
    let lo ← index pkt (ihl+3)
    .ok (some (u16FromBE hi lo))

def extractUdpPayload (pkt : Bytes) : Exec (Option Bytes) := do
  match ← ipv4Udp pkt with
  | none => .ok none
  | some ihl =>
    let hi ← index pkt (ihl+4)
    let lo ← index pkt (ihl+5)
    let udpLen := (u16FromBE hi lo).toNat
    if udpLen < 8 ∨ pkt.length < ihl+udpLen then .ok none
    else do
      let payload ← slice pkt (ihl+8) (ihl+udpLen)
      .ok (some payload)

/-- The counters of the engine that `tun_read_task` moves, the packets it has handed to
`feed_inbound`, and those it has spawned a DNS task for, each with its query. -/
structure TunRead where
  packetsIn : UInt64
  bytesIn : UInt64
  dropsParseError : UInt64
  fed : List Bytes
  dns : List (Bytes × Bytes)
  deriving DecidableEq, Repr

namespace TunRead

def new : TunRead := ⟨0, 0, 0, [], []⟩

def count (t : TunRead) (pkt : Bytes) : TunRead :=
  { t with packetsIn := t.packetsIn+1, bytesIn := t.bytesIn+UInt64.ofNat pkt.length }

def feedInbound (t : TunRead) (pkt : Bytes) : TunRead := { t with fed := t.fed ++ [pkt] }

def spawnDns (t : TunRead) (pkt query : Bytes) : TunRead :=
  { t with dns := t.dns ++ [(pkt, query)] }

def drop (t : TunRead) : TunRead := { t with dropsParseError := t.dropsParseError+1 }

/-- The body of the loop, for a packet that was read. -/
def onPacket (t : TunRead) (pkt : Bytes) : Exec TunRead :=
  let t := t.count pkt
  match IpView.parse pkt with
  | .error _ => .ok t.drop
  | .ok ip =>
    match ip.protocol with
    | .tcp => .ok (t.feedInbound pkt)
    | .udp => do
      let port ← udpDstPort pkt
      if port = some 53 then
        match ← extractUdpPayload pkt with
        | some query => .ok (t.spawnDns pkt query)
        | none => .ok t
      -- UDP that is not DNS is not relayed yet
      else .ok t.drop
    | _ => .ok t.drop

/-- `tun_read_task` after it has read these packets. -/
def run (t : TunRead) (pkts : List Bytes) : Exec TunRead := pkts.foldlM onPacket t

end TunRead

def ihl (pkt : Bytes) : ℕ := (byteAt pkt 0 &&& 0x0F).toNat*4

def IsIpv4Udp (pkt : Bytes) : Prop :=
  20 ≤ pkt.length ∧ byteAt pkt 0 >>> 4 = 4 ∧ byteAt pkt 9 = 17 ∧ ihl pkt+8 ≤ pkt.length

instance (pkt : Bytes) : Decidable (IsIpv4Udp pkt) := inferInstanceAs (Decidable (_ ∧ _))

theorem ipv4Udp_eq (pkt : Bytes) :
    ipv4Udp pkt = .ok (if IsIpv4Udp pkt then some (ihl pkt) else none) := by
  unfold ipv4Udp
  by_cases hl : pkt.length < 20
  · have hn : ¬IsIpv4Udp pkt := fun h => absurd h.1 (by omega)
    rw [if_pos hl, if_neg hn]
  · rw [if_neg hl, index_eq (by omega), index_eq (by omega), Exec.ok_bind, Exec.ok_bind]
    by_cases h4 : byteAt pkt 0 >>> 4 ≠ 4 ∨ byteAt pkt 9 ≠ 17
    · have hn : ¬IsIpv4Udp pkt := fun h => h4.elim (fun hv => hv h.2.1) fun hp => hp h.2.2.1
      rw [if_pos h4, if_neg hn]
    · obtain ⟨hv, hp⟩ := not_or.mp h4
      rw [if_neg h4]
      by_cases h8 : pkt.length < ihl pkt+8
      · have hn : ¬IsIpv4Udp pkt := fun h => absurd h.2.2.2 (by omega)
        rw [if_neg hn]
        exact if_pos h8
      · have hy : IsIpv4Udp pkt :=
          ⟨Nat.not_lt.mp hl, not_not.mp hv, not_not.mp hp, Nat.not_lt.mp h8⟩
        rw [if_pos hy]
        exact if_neg h8

-- The fields of the UDP header, for the statements below.

def dstPort (pkt : Bytes) : UInt16 :=
  u16FromBE (byteAt pkt (ihl pkt+2)) (byteAt pkt (ihl pkt+3))

def udpLen (pkt : Bytes) : ℕ :=
  (u16FromBE (byteAt pkt (ihl pkt+4)) (byteAt pkt (ihl pkt+5))).toNat

theorem udpDstPort_eq (pkt : Bytes) :
    udpDstPort pkt = .ok (if IsIpv4Udp pkt then some (dstPort pkt) else none) := by
  rw [udpDstPort, ipv4Udp_eq, Exec.ok_bind]
  by_cases h : IsIpv4Udp pkt
  · have hlen := h.2.2.2
    simp only [if_pos h]
    rw [index_eq (by omega), index_eq (by omega)]
    rfl
  · simp only [if_neg h]

theorem extractUdpPayload_eq {pkt : Bytes} (h : IsIpv4Udp pkt) :
    extractUdpPayload pkt =
      .ok (if udpLen pkt < 8 ∨ pkt.length < ihl pkt+udpLen pkt then none
        else some ((pkt.take (ihl pkt+udpLen pkt)).drop (ihl pkt+8))) := by
  have hlen := h.2.2.2
  have heq : extractUdpPayload pkt =
      if udpLen pkt < 8 ∨ pkt.length < ihl pkt+udpLen pkt then .ok none
      else slice pkt (ihl pkt+8) (ihl pkt+udpLen pkt) >>= fun payload => .ok (some payload) := by
    rw [extractUdpPayload, ipv4Udp_eq, Exec.ok_bind, if_pos h]
    simp only
    rw [index_eq (by omega), index_eq (by omega)]
    rfl
  rw [heq]
  by_cases hbad : udpLen pkt < 8 ∨ pkt.length < ihl pkt+udpLen pkt
  · rw [if_pos hbad, if_pos hbad]
  · obtain ⟨h8, hl⟩ := not_or.mp hbad
    rw [if_neg hbad, if_neg hbad, slice_eq (by omega) (by omega), Exec.ok_bind]

/-- A packet to the DNS port over IPv4 whose UDP length field is below the header or beyond the
packet. -/
def MalformedDns (pkt : Bytes) : Prop :=
  20 ≤ ihl pkt ∧ IsIpv4Udp pkt ∧ dstPort pkt = 53 ∧
    (udpLen pkt < 8 ∨ pkt.length < ihl pkt+udpLen pkt)

instance (pkt : Bytes) : Decidable (MalformedDns pkt) := inferInstanceAs (Decidable (_ ∧ _))

/-- The length field covers the header and ends inside the packet. -/
def WholeDns (pkt : Bytes) : Prop :=
  20 ≤ ihl pkt ∧ IsIpv4Udp pkt ∧ dstPort pkt = 53 ∧
    ¬(udpLen pkt < 8 ∨ pkt.length < ihl pkt+udpLen pkt)

instance (pkt : Bytes) : Decidable (WholeDns pkt) := inferInstanceAs (Decidable (_ ∧ _))

inductive Fate where
  | fed
  | dns (query : Bytes)
  | dropped

/-- What is recorded of a packet with this fate. -/
def Fate.record (t : TunRead) (pkt : Bytes) : Fate → TunRead
  | .fed => t.feedInbound pkt
  | .dns query => t.spawnDns pkt query
  | .dropped => t.drop

/-- The fate of a packet that the parser accepts; a malformed DNS query has none. -/
def fateOf (pkt : Bytes) : IpProtocol → Option Fate
  | .tcp => some .fed
  | .udp =>
    if MalformedDns pkt then none
    else if WholeDns pkt then
      some (.dns ((pkt.take (ihl pkt+udpLen pkt)).drop (ihl pkt+8)))
    else some .dropped
  | _ => some .dropped

theorem parse_v4 {pkt : Bytes} (hl : 20 ≤ pkt.length) (h4 : byteAt pkt 0 >>> 4 = 4)
    (h20 : 20 ≤ ihl pkt) (hle : ihl pkt ≤ pkt.length) :
    ∃ v, IpView.parse pkt = .ok (.v4 v) ∧ v.protocol = .ofUInt8 (byteAt pkt 9) := by
  obtain ⟨v, hv⟩ := (Ipv4View.parse_accepts_iff pkt).mpr ⟨hl, h20, hle⟩
  have hne : pkt ≠ [] := by
    apply List.ne_nil_of_length_pos
    omega
  refine ⟨v, ?_, ?_⟩
  · rw [IpView.parse, if_neg (by simpa using hne), if_pos h4, hv]
    rfl
  · rw [Ipv4View.protocol, Ipv4View.bytes_of_parse hv]

theorem parse_udp {pkt : Bytes} (h20 : 20 ≤ ihl pkt) (hudp : IsIpv4Udp pkt) :
    ∃ v, IpView.parse pkt = .ok (.v4 v) ∧ v.protocol = .udp := by
  obtain ⟨hl, h4, h17, h8⟩ := hudp
  obtain ⟨v, hv, hproto⟩ := parse_v4 hl h4 h20 (by omega)
  exact ⟨v, hv, hproto.trans ((IpProtocol.ofUInt8_eq_udp _).mpr h17)⟩

theorem ihl_of_parse {pkt : Bytes} {ip : IpView} (h : IpView.parse pkt = .ok ip)
    (h4 : byteAt pkt 0 >>> 4 = 4) : 20 ≤ ihl pkt := by
  rcases IpView.parse_eq_ok h with ⟨v, -, -, hv⟩ | ⟨v, -, h6, -⟩
  · exact ((Ipv4View.parse_accepts_iff pkt).mp ⟨v, hv⟩).2.1
  · rw [h4] at h6
    exact absurd h6 (by decide)

namespace TunRead

theorem onPacket_refused (t : TunRead) {pkt : Bytes} {e : ParseError}
    (h : IpView.parse pkt = .error e) : t.onPacket pkt = .ok (t.count pkt).drop := by
  simp only [onPacket, h]

theorem onPacket_udp (t : TunRead) {pkt : Bytes} {ip : IpView} (h : IpView.parse pkt = .ok ip)
    (hproto : ip.protocol = .udp) :
    t.onPacket pkt =
      .ok ((fateOf pkt .udp).elim (t.count pkt) (Fate.record (t.count pkt) pkt)) := by
  simp only [onPacket, h, hproto, udpDstPort_eq, Exec.ok_bind, fateOf]
  by_cases hport : (if IsIpv4Udp pkt then some (dstPort pkt) else none) = some 53
  · have hudp : IsIpv4Udp pkt := by
      by_contra hn
      rw [if_neg hn] at hport
      cases hport
    rw [if_pos hport, extractUdpPayload_eq hudp, Exec.ok_bind]
    rw [if_pos hudp] at hport
    have h53 := Option.some.inj hport
    have h20 := ihl_of_parse h hudp.2.1
    by_cases hbad : udpLen pkt < 8 ∨ pkt.length < ihl pkt+udpLen pkt
    · have hmal : MalformedDns pkt := ⟨h20, hudp, h53, hbad⟩
      rw [if_pos hbad, if_pos hmal]
      rfl
    · have hmal : ¬MalformedDns pkt := fun hm => hbad hm.2.2.2
      have hwhole : WholeDns pkt := ⟨h20, hudp, h53, hbad⟩
      rw [if_neg hbad, if_neg hmal, if_pos hwhole]
      rfl
  · have hother : ¬(IsIpv4Udp pkt ∧ dstPort pkt = 53) := by
      rintro ⟨hudp, h53⟩
      rw [if_pos hudp, h53] at hport
      exact hport rfl
    have hmal : ¬MalformedDns pkt := fun hm => hother ⟨hm.2.1, hm.2.2.1⟩
    have hwhole : ¬WholeDns pkt := fun hw => hother ⟨hw.2.1, hw.2.2.1⟩
    rw [if_neg hport, if_neg hmal, if_neg hwhole]
    rfl

/-- What the loop does with a packet is decided by its protocol and its UDP header. -/
theorem onPacket_accepted (t : TunRead) {pkt : Bytes} {ip : IpView}
    (h : IpView.parse pkt = .ok ip) :
    t.onPacket pkt =
      .ok ((fateOf pkt ip.protocol).elim (t.count pkt) (Fate.record (t.count pkt) pkt)) := by
  cases hproto : ip.protocol with
  | udp => exact t.onPacket_udp h hproto
  | tcp | icmp | ipv6Icmp | other v =>
    simp only [onPacket, h, hproto]
    rfl

theorem onPacket_malformed (t : TunRead) {pkt : Bytes} (h : MalformedDns pkt) :
    t.onPacket pkt = .ok (t.count pkt) := by
  obtain ⟨v, hv, hproto⟩ := parse_udp h.1 h.2.1
  rw [t.onPacket_udp hv hproto, fateOf, if_pos h]
  rfl

theorem onPacket_whole (t : TunRead) {pkt : Bytes} (h : WholeDns pkt) :
    t.onPacket pkt = .ok ((t.count pkt).spawnDns pkt
      ((pkt.take (ihl pkt+udpLen pkt)).drop (ihl pkt+8))) := by
  obtain ⟨v, hv, hproto⟩ := parse_udp h.1 h.2.1
  have hmal : ¬MalformedDns pkt := fun hm => h.2.2.2 hm.2.2.2
  rw [t.onPacket_udp hv hproto, fateOf, if_neg hmal, if_pos h]
  rfl

/-- Every packet has a fate, except a malformed DNS query, which is only counted. -/
theorem onPacket_fate (t : TunRead) {pkt : Bytes} (h : ¬MalformedDns pkt) :
    ∃ fate : Fate, t.onPacket pkt = .ok (fate.record (t.count pkt) pkt) := by
  cases hparse : IpView.parse pkt with
  | error e => exact ⟨.dropped, t.onPacket_refused hparse⟩
  | ok ip =>
    rw [t.onPacket_accepted hparse]
    cases hproto : ip.protocol with
    | tcp => exact ⟨.fed, rfl⟩
    | udp =>
      rw [fateOf, if_neg h]
      split_ifs
      · exact ⟨.dns _, rfl⟩
      · exact ⟨.dropped, rfl⟩
    | icmp | ipv6Icmp | other v => exact ⟨.dropped, rfl⟩

/-- What came in is what was fed, intercepted or dropped. -/
def Accounted (t : TunRead) : Prop :=
  t.packetsIn = UInt64.ofNat t.fed.length+UInt64.ofNat t.dns.length+t.dropsParseError

theorem accounted_record {t : TunRead} (h : t.Accounted) (pkt : Bytes) (fate : Fate) :
    (fate.record (t.count pkt) pkt).Accounted := by
  unfold Accounted at h ⊢
  cases fate with
  | fed =>
    simp only [Fate.record, feedInbound, count, List.length_append, List.length_singleton,
      UInt64.ofNat_add, h]
    ac_rfl
  | dns query =>
    simp only [Fate.record, spawnDns, count, List.length_append, List.length_singleton,
      UInt64.ofNat_add, h]
    ac_rfl
  | dropped =>
    simp only [Fate.record, drop, count, h]
    ac_rfl

theorem not_accounted_count {t : TunRead} (h : t.Accounted) (pkt : Bytes) :
    ¬(t.count pkt).Accounted := by
  intro hc
  have hsame : t.packetsIn+1 = t.packetsIn := hc.trans h.symm
  exact absurd (UInt64.add_eq_left.mp hsame) (by decide)

end TunRead

theorem append_singleton_ne {α : Type} (l : List α) (x : α) : l ++ [x] ≠ l := by
  intro h
  have hlen := congrArg List.length h
  rw [List.length_append, List.length_singleton] at hlen
  omega

namespace Fate

theorem record_ne (t : TunRead) (pkt : Bytes) (fate : Fate) : fate.record t pkt ≠ t := by
  intro h
  cases fate with
  | fed => exact append_singleton_ne _ _ (congrArg TunRead.fed h)
  | dns query => exact append_singleton_ne _ _ (congrArg TunRead.dns h)
  | dropped =>
    have hdrops : t.dropsParseError+1 = t.dropsParseError := congrArg TunRead.dropsParseError h
    exact absurd (UInt64.add_eq_left.mp hdrops) (by decide)

/-- The fate of a packet can be read off what it has changed. -/
theorem record_injective (t : TunRead) (pkt : Bytes) : Function.Injective (record t pkt) := by
  intro f f' h
  cases f with
  | fed =>
    cases f' with
    | fed => rfl
    | _ => exact absurd (congrArg TunRead.fed h) (append_singleton_ne _ _)
  | dns query =>
    cases f' with
    | dns query' =>
      have hlist : t.dns ++ [(pkt, query)] = t.dns ++ [(pkt, query')] := congrArg TunRead.dns h
      cases List.append_cancel_left hlist
      rfl
    | _ => exact absurd (congrArg TunRead.dns h) (append_singleton_ne _ _)
  | dropped =>
    cases f' with
    | dropped => rfl
    | fed => exact absurd (congrArg TunRead.fed h).symm (append_singleton_ne _ _)
    | dns query => exact absurd (congrArg TunRead.dns h).symm (append_singleton_ne _ _)

end Fate

namespace TunRead

theorem onPacket_eq_record {t : TunRead} {pkt : Bytes} {fate : Fate}
    (h : t.onPacket pkt = .ok (fate.record (t.count pkt) pkt)) :
    (∃ e, IpView.parse pkt = .error e) ∧ fate = .dropped ∨
      ∃ ip, IpView.parse pkt = .ok ip ∧ fateOf pkt ip.protocol = some fate := by
  cases hparse : IpView.parse pkt with
  | error e =>
    rw [t.onPacket_refused hparse] at h
    exact Or.inl ⟨⟨e, rfl⟩, (@Fate.record_injective _ _ .dropped fate (Except.ok.inj h)).symm⟩
  | ok ip =>
    rw [t.onPacket_accepted hparse] at h
    refine Or.inr ⟨ip, rfl, ?_⟩
    cases hfate : fateOf pkt ip.protocol with
    | none =>
      rw [hfate] at h
      exact absurd (Except.ok.inj h).symm (Fate.record_ne _ _ _)
    | some fate' =>
      rw [hfate] at h
      exact congrArg some (Fate.record_injective _ _ (Except.ok.inj h))

/-- The stack is fed exactly the TCP packets. -/
theorem feeds_iff (t : TunRead) (pkt : Bytes) :
    t.onPacket pkt = .ok ((t.count pkt).feedInbound pkt) ↔
      ∃ ip, IpView.parse pkt = .ok ip ∧ ip.protocol = .tcp := by
  constructor
  · intro h
    rcases @onPacket_eq_record t pkt .fed h with ⟨-, hdrop⟩ | ⟨ip, hparse, hfate⟩
    · cases hdrop
    · refine ⟨ip, hparse, ?_⟩
      cases hproto : ip.protocol with
      | tcp => rfl
      | udp =>
        rw [hproto, fateOf] at hfate
        split_ifs at hfate <;> cases hfate
      | icmp | ipv6Icmp | other v =>
        rw [hproto] at hfate
        cases hfate
  · rintro ⟨ip, hparse, hproto⟩
    rw [t.onPacket_accepted hparse, hproto]
    rfl

/-- A DNS task is spawned exactly for a query whose length field is right. -/
theorem spawns_iff (t : TunRead) (pkt : Bytes) :
    (∃ query, t.onPacket pkt = .ok ((t.count pkt).spawnDns pkt query)) ↔ WholeDns pkt := by
  constructor
  · rintro ⟨query, h⟩
    rcases @onPacket_eq_record t pkt (.dns query) h with ⟨-, hdrop⟩ | ⟨ip, -, hfate⟩
    · cases hdrop
    · by_contra hn
      cases hproto : ip.protocol with
      | udp =>
        rw [hproto, fateOf, if_neg hn] at hfate
        split_ifs at hfate
        cases hfate
      | tcp | icmp | ipv6Icmp | other v =>
        rw [hproto] at hfate
        cases hfate
  · intro h
    exact ⟨_, t.onPacket_whole h⟩

theorem run_append_singleton {t u : TunRead} {pkts : List Bytes} (h : t.run pkts = .ok u)
    (pkt : Bytes) : t.run (pkts ++ [pkt]) = u.onPacket pkt := by
  rw [run, List.foldlM_append, show List.foldlM onPacket t pkts = .ok u from h, Exec.ok_bind]
  exact List.foldlM_cons .. |>.trans (bind_pure _)

theorem run_accounted {pkts : List Bytes} (h : ∀ pkt ∈ pkts, ¬MalformedDns pkt) :
    ∃ t, new.run pkts = .ok t ∧ t.Accounted := by
  -- one more packet at the end, like the loop
  induction pkts using List.reverseRecOn with
  | nil => exact ⟨new, rfl, rfl⟩
  | append_singleton pkts pkt ih =>
    obtain ⟨t, hrun, hacc⟩ := ih fun p hp => h p (List.mem_append_left _ hp)
    obtain ⟨fate, hfate⟩ :=
      t.onPacket_fate (h pkt (List.mem_append_right _ (List.mem_singleton_self _)))
    exact ⟨_, (run_append_singleton hrun pkt).trans hfate, accounted_record hacc pkt fate⟩

/-- A packet has exactly one fate, and the counters agree after every packet, exactly if no DNS
query has a wrong length field. -/
theorem packets_accounted_iff (t : TunRead) (pkt : Bytes) (pkts : List Bytes) :
    ((∃! fate : Fate, onPacket t pkt = .ok (fate.record (t.count pkt) pkt)) ↔
      ¬MalformedDns pkt) ∧
    ((∀ seen, seen <+: pkts → ∃ t, new.run seen = .ok t ∧ t.Accounted) ↔
      ∀ pkt ∈ pkts, ¬MalformedDns pkt) := by
  constructor
  · constructor
    · rintro ⟨fate, hfate, -⟩ hbad
      rw [onPacket_malformed t hbad] at hfate
      exact Fate.record_ne _ _ _ (Except.ok.inj hfate).symm
    · intro h
      obtain ⟨fate, hfate⟩ := t.onPacket_fate h
      refine ⟨fate, hfate, ?_⟩
      intro fate' hfate'
      exact Fate.record_injective _ _ (Except.ok.inj (hfate'.symm.trans hfate))
  · constructor
    · intro hall pkt hmem hbad
      obtain ⟨before, after, rfl⟩ := List.append_of_mem hmem
      obtain ⟨t, hrun, hacc⟩ := hall before (List.prefix_append _ _)
      obtain ⟨t', hrun', hacc'⟩ := hall (before ++ [pkt]) ⟨after, by simp⟩
      rw [run_append_singleton hrun, onPacket_malformed t hbad] at hrun'
      cases hrun'
      exact not_accounted_count hacc pkt hacc'
    · intro hgood seen hseen
      exact run_accounted fun pkt hp => hgood pkt (hseen.subset hp)

/-- A query to 8.8.8.8:53 with this UDP length field and payload. -/
def dnsPacket (udpLen : UInt8) (payload : Bytes) : Bytes :=
  [0x45, 0, 0, 33, 0, 0, 0, 0, 64, 17, 0, 0, 10, 0, 0, 1, 8, 8, 8, 8,
    0x9C, 0x40, 0, 53, 0, udpLen, 0, 0] ++ payload

theorem dns_query_accounted :
    (∃! fate : Fate, onPacket new (dnsPacket 13 [1, 2, 3, 4, 5]) =
      .ok (fate.record (new.count (dnsPacket 13 [1, 2, 3, 4, 5])) (dnsPacket 13 [1, 2, 3, 4, 5]))) ∧
    ∃ t, new.run [dnsPacket 13 [1, 2, 3, 4, 5]] = .ok t ∧ t.Accounted := by
  have h := packets_accounted_iff new (dnsPacket 13 [1, 2, 3, 4, 5]) [dnsPacket 13 [1, 2, 3, 4, 5]]
  exact ⟨h.1.mpr (by decide), h.2.mpr (by decide) _ (List.prefix_refl _)⟩

/-- The length field says 7, less than the UDP header: the query is neither resolved nor counted
as dropped. -/
theorem malformed_query_unaccounted :
    new.run [dnsPacket 7 [1, 2, 3, 4, 5]] = .ok ⟨1, 33, 0, [], []⟩ ∧
      ¬Accounted ⟨1, 33, 0, [], []⟩ := by
  constructor
  · rfl
  · unfold Accounted
    decide

end TunRead

end GravitalShare.Engine
