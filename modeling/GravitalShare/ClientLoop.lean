import GravitalShare.EngineDnsTask
import GravitalShare.StackRefine

/-! The client loop as a whole: the task that reads the TUN, the task that polls the stack, the
tasks that answer DNS queries, the writer and the counters they share. -/
namespace GravitalShare

namespace Stack

/-- What an action hands to `feed_inbound`, and what it takes for `process_inbound`. -/
def fedBy : Act → List Bytes
  | .feedInbound pkt => [pkt]
  | _ => []

def ingestedBy : Act → List Bytes
  | .ingest raw => [raw]
  | _ => []

/-- What an action puts into `tun_tx`, and what it takes out. -/
def forwardedAt (w : World) : Act → List Bytes
  | .forward pkt =>
    match Inner.forwardOutbound w.inner.nat pkt with
    | .ok out => out.toList
    | .error _ => []
  | _ => []

def drainedAt (w : World) : Act → List Bytes
  | .drainOutbound => w.inner.tunTx.take 1
  | _ => []

section

variable {alloc : Allocator} {w w' : World} {a : Act}

theorem Step.tunRx_flow (hw : w.inner.Wf) (h : Step alloc w a w') :
    w.inner.tunRx ++ fedBy a = ingestedBy a ++ w'.inner.tunRx := by
  cases h with
  | feedInbound pkt => rfl
  | @ingest s s' relays raw rest hq hproc =>
    have hrx := (Inner.processInbound_queues (hw.frame (Inner.Frame.popRx s rest)) hproc).2
    show s.tunRx ++ [] = [raw] ++ s'.tunRx
    rw [hrx, hq, List.append_nil]
    rfl
  | close _ _ hclose =>
    obtain ⟨remote, peer, -, rfl⟩ := Inner.closeSocket_ok hclose
    exact List.append_nil _
  | _ => exact List.append_nil _

theorem Step.tunTx_flow (hw : w.inner.Wf) (h : Step alloc w a w') :
    w.inner.tunTx ++ forwardedAt w a = drainedAt w a ++ w'.inner.tunTx := by
  cases h with
  | @drainOutbound s relays pkt rest hq =>
    show s.tunTx ++ [] = s.tunTx.take 1 ++ rest
    rw [hq, List.append_nil]
    rfl
  | @ingest s s' relays raw rest hq hproc =>
    have htx := (Inner.processInbound_queues (hw.frame (Inner.Frame.popRx s rest)) hproc).1
    show s.tunTx ++ [] = [] ++ s'.tunTx
    rw [htx, List.append_nil]
    rfl
  | forward hq hfwd =>
    simp only [forwardedAt, hfwd, drainedAt, List.nil_append]
  | close _ _ hclose =>
    obtain ⟨remote, peer, -, rfl⟩ := Inner.closeSocket_ok hclose
    exact List.append_nil _
  | _ => exact List.append_nil _

end

end Stack

namespace Engine.TunRead

open Proto

/-- What reading one packet can do to the books. -/
theorem onPacket_cases {t t' : TunRead} {pkt : Bytes} (h : t.onPacket pkt = .ok t') :
    t'.fed = t.fed ∧ t'.dns = t.dns ∨ t' = (t.count pkt).feedInbound pkt ∨
      WholeDns pkt ∧
        t' = (t.count pkt).spawnDns pkt ((pkt.take (ihl pkt+udpLen pkt)).drop (ihl pkt+8)) := by
  cases hparse : IpView.parse pkt with
  | error e =>
    rw [t.onPacket_refused hparse] at h
    cases h
    exact Or.inl ⟨rfl, rfl⟩
  | ok ip =>
    rw [t.onPacket_accepted hparse] at h
    cases h
    cases ip.protocol with
    | tcp => exact Or.inr (Or.inl rfl)
    | udp =>
      unfold fateOf
      split_ifs with hbad hwhole
      · exact Or.inl ⟨rfl, rfl⟩
      · exact Or.inr (Or.inr ⟨hwhole, rfl⟩)
      · exact Or.inl ⟨rfl, rfl⟩
    | icmp | ipv6Icmp | other => exact Or.inl ⟨rfl, rfl⟩

end Engine.TunRead

namespace Client

open Engine (TunRead TunWrite buildUdpReply)
open Dns (DnsInterceptor Exchange)
open Tun

/-- `tun_read_task`: between two packets, in front of `feed_inbound`, or behind its loop. -/
inductive Reader where
  | waiting
  | feeding (pkt : Bytes)
  | stopped

def Reader.hand : Reader → List Bytes
  | .feeding pkt => [pkt]
  | _ => []

/-- A task that was spawned for a query: it resolves, then it counts the packet, then its bytes,
then it hands the reply to `write_packet`, whose result it does not look at. -/
inductive Job where
  | asked (pkt query : Bytes)
  | counted (pkt reply : Bytes)
  | ready (pkt reply : Bytes)
  | handed (pkt reply : Bytes) (result : Except TunError Unit)
  | unanswered (pkt : Bytes)

namespace Job

def asker : Job → Bytes
  | .asked pkt _ | .counted pkt _ | .ready pkt _ | .handed pkt _ _ | .unanswered pkt => pkt

-- replies that are in the counters and not yet handed over
def packetsHand : Job → List Bytes
  | .counted _ reply | .ready _ reply => [reply]
  | _ => []

def bytesHand : Job → List Bytes
  | .ready _ reply => [reply]
  | _ => []

def sent : Job → List Bytes
  | .handed _ reply _ => [reply]
  | _ => []

end Job

/-- `poll_task`. It counts the bytes of a drained packet before the packet itself. -/
inductive Poller where
  | tick
  | polling
  | draining
  | sized (pkt : Bytes)
  | ready (pkt : Bytes)
  | accepting

namespace Poller

def packetsHand : Poller → List Bytes
  | .ready pkt => [pkt]
  | _ => []

def bytesHand : Poller → List Bytes
  | .sized pkt | .ready pkt => [pkt]
  | _ => []

end Poller

/-- The tasks, what they share, and `written`: the packets handed to `write_packet`, in order,
whatever became of them there. -/
structure Loop where
  -- of the writer
  mtu : UInt16
  stack : Stack.World
  reader : Reader
  read : TunRead
  jobs : List Job
  poller : Poller
  out : TunWrite
  dns : DnsInterceptor
  written : List Bytes

def Loop.init (mtu : UInt16) : Loop where
  mtu
  stack := Stack.World.init mtu
  reader := .waiting
  read := TunRead.new
  jobs := []
  poller := .tick
  out := ⟨0, 0⟩
  dns := ⟨0, 0⟩
  written := []

/-- What the loop makes of the books after a packet: it goes on to feed it, or has spawned a
task. -/
def readerAfter (t t' : TunRead) (pkt : Bytes) : Reader :=
  if t'.fed.length = t.fed.length then .waiting else .feeding pkt

/-- The payload of a query that `extract_udp_payload` finds. -/
def queryOf (pkt : Bytes) : Bytes :=
  (pkt.take (Engine.ihl pkt+Engine.udpLen pkt)).drop (Engine.ihl pkt+8)

def spawned (t t' : TunRead) : List Job := (t'.dns.drop t.dns.length).map fun q => .asked q.1 q.2

inductive Act where
  | read (pkt : Bytes)
  | readErr
  | stack (a : Stack.Act)
  | resolve (pkt : Bytes) (x : Exchange)
  | countBytes
  | reply (pkt : Bytes) (result : Except TunError Unit)
  | drained
  | count
  | write (pkt : Bytes) (result : Except TunError Unit)
  | accepted

/-- The actions of a poll between taking the lock and giving it back. -/
def inPoll : Stack.Act → Bool
  | .ingest _ | .smoltcp _ | .service _ _ | .close _ | .endService | .forward _ => true
  | _ => false

def isRelay : Stack.Act → Bool
  | .relay _ _ => true
  | _ => false

inductive Step (alloc : Stack.Allocator) : Loop → Act → Loop → Prop
  | read {c : Loop} {turns : List (Turn Bytes)} {pkt : Bytes} {t : TunRead}
      (hr : c.reader = .waiting) (hread : TunReader.readPacket turns = some (.ok pkt))
      (h : c.read.onPacket pkt = .ok t) :
      Step alloc c (.read pkt)
        { c with reader := readerAfter c.read t pkt, read := t, jobs := c.jobs ++ spawned c.read t }
  | readErr {c : Loop} {turns : List (Turn Bytes)} {e : TunError} (hr : c.reader = .waiting)
      (hread : TunReader.readPacket turns = some (.error e)) :
      Step alloc c .readErr { c with reader := .stopped }
  | feed {c : Loop} {w : Stack.World} {pkt : Bytes} (hr : c.reader = .feeding pkt)
      (h : Stack.Step alloc c.stack (.feedInbound pkt) w) :
      Step alloc c (.stack (.feedInbound pkt)) { c with stack := w, reader := .waiting }
  -- a DNS task; the writer is locked for one packet at a time
  | resolve {c : Loop} {pre post : List Job} {pkt query resp reply : Bytes} {x : Exchange}
      {dns : DnsInterceptor} (hj : c.jobs = pre ++ .asked pkt query :: post)
      (hq : c.dns.handleQuery query x = .ok (dns, .ok resp))
      (hb : buildUdpReply pkt resp = .ok (some reply)) :
      Step alloc c (.resolve pkt x)
        { c with
          jobs := pre ++ .counted pkt reply :: post
          dns
          out := { c.out with packetsOut := c.out.packetsOut+1 } }
  | noReply {c : Loop} {pre post : List Job} {pkt query : Bytes} {x : Exchange}
      {dns : DnsInterceptor} {result : Except Dns.DnsError Bytes}
      (hj : c.jobs = pre ++ .asked pkt query :: post)
      (hq : c.dns.handleQuery query x = .ok (dns, result))
      (hb : ∀ resp, result = .ok resp → buildUdpReply pkt resp = .ok none) :
      Step alloc c (.resolve pkt x) { c with jobs := pre ++ .unanswered pkt :: post, dns }
  | countBytes {c : Loop} {pre post : List Job} {pkt reply : Bytes}
      (hj : c.jobs = pre ++ .counted pkt reply :: post) :
      Step alloc c .countBytes
        { c with
          jobs := pre ++ .ready pkt reply :: post
          out := { c.out with bytesOut := c.out.bytesOut+UInt64.ofNat reply.length } }
  | reply {c : Loop} {pre post : List Job} {pkt reply : Bytes} {turns : List (Turn Unit)}
      {result : Except TunError Unit} (hj : c.jobs = pre ++ .ready pkt reply :: post)
      (hw : TunWriter.writePacket c.mtu reply turns = some result) :
      Step alloc c (.reply reply result)
        { c with
          jobs := pre ++ .handed pkt reply result :: post
          written := c.written ++ [reply] }
  -- the poll task
  | tick {c : Loop} {w : Stack.World} (hp : c.poller = .tick)
      (h : Stack.Step alloc c.stack .beginPoll w) :
      Step alloc c (.stack .beginPoll) { c with stack := w, poller := .polling }
  | poll {c : Loop} {w : Stack.World} {a : Stack.Act} (hp : c.poller = .polling)
      (ha : inPoll a = true) (h : Stack.Step alloc c.stack a w) :
      Step alloc c (.stack a) { c with stack := w }
  | endPoll {c : Loop} {w : Stack.World} (hp : c.poller = .polling)
      (h : Stack.Step alloc c.stack .endPoll w) :
      Step alloc c (.stack .endPoll) { c with stack := w, poller := .draining }
  | drain {c : Loop} {w : Stack.World} {pkt : Bytes} {rest : List Bytes}
      (hp : c.poller = .draining) (hq : c.stack.inner.tunTx = pkt :: rest)
      (h : Stack.Step alloc c.stack .drainOutbound w) :
      Step alloc c (.stack .drainOutbound)
        { c with
          stack := w
          poller := .sized pkt
          out := { c.out with bytesOut := c.out.bytesOut+UInt64.ofNat pkt.length } }
  | count {c : Loop} {pkt : Bytes} (hp : c.poller = .sized pkt) :
      Step alloc c .count
        { c with poller := .ready pkt, out := { c.out with packetsOut := c.out.packetsOut+1 } }
  | write {c : Loop} {pkt : Bytes} {turns : List (Turn Unit)} {result : Except TunError Unit}
      (hp : c.poller = .ready pkt) (hw : TunWriter.writePacket c.mtu pkt turns = some result) :
      Step alloc c (.write pkt result)
        { c with poller := .draining, written := c.written ++ [pkt] }
  | drained {c : Loop} (hp : c.poller = .draining) (hi : c.stack.pc = .idle)
      (hq : c.stack.inner.tunTx = []) : Step alloc c .drained { c with poller := .accepting }
  | accept {c : Loop} {w : Stack.World} (hp : c.poller = .accepting)
      (h : Stack.Step alloc c.stack .accept w) :
      Step alloc c (.stack .accept) { c with stack := w }
  | accepted {c : Loop} (hp : c.poller = .accepting) (hi : c.stack.pc = .idle)
      (hq : c.stack.inner.pending = []) : Step alloc c .accepted { c with poller := .tick }
  -- the relay tasks
  | relay {c : Loop} {w : Stack.World} {a : Stack.Act} (ha : isRelay a = true)
      (h : Stack.Step alloc c.stack a w) : Step alloc c (.stack a) { c with stack := w }

-- What the steps of a run have done, in order.

def readAt (_ : Loop) : Act → List Bytes
  | .read pkt => [pkt]
  | _ => []

def ingestedAt (_ : Loop) : Act → List Bytes
  | .stack a => Stack.ingestedBy a
  | _ => []

def forwardedAt (c : Loop) : Act → List Bytes
  | .stack a => Stack.forwardedAt c.stack a
  | _ => []

def pollWroteAt (_ : Loop) : Act → List Bytes
  | .write pkt _ => [pkt]
  | _ => []

/-- The packets that were handed to `write_packet`, with its results, and those that the TUN
took. -/
def handedAt (_ : Loop) : Act → List (Bytes × Except TunError Unit)
  | .reply pkt result | .write pkt result => [(pkt, result)]
  | _ => []

def deliveredAt (_ : Loop) : Act → List Bytes
  | .reply pkt (.ok ()) | .write pkt (.ok ()) => [pkt]
  | _ => []

/-- Packets and bytes that were handed to `write_packet` or are about to be. -/
def Loop.packets (c : Loop) : ℕ :=
  c.written.length+c.poller.packetsHand.length+(c.jobs.flatMap Job.packetsHand).length

def Loop.bytes (c : Loop) : ℕ :=
  c.written.flatten.length+c.poller.bytesHand.flatten.length+
    (c.jobs.flatMap Job.bytesHand).flatten.length

section Steps

variable {alloc : Stack.Allocator} {c c' : Loop} {a : Act}

theorem Step.stack_cases (h : Step alloc c a c') :
    c'.stack = c.stack ∨ ∃ b, a = .stack b ∧ Stack.Step alloc c.stack b c'.stack := by
  cases h with
  | feed _ h | tick _ h | poll _ _ h | endPoll _ h | drain _ _ h | accept _ h | relay _ h =>
    exact Or.inr ⟨_, rfl, h⟩
  | _ => exact Or.inl rfl

theorem Step.wf (hw : c.stack.inner.Wf) (h : Step alloc c a c') : c'.stack.inner.Wf := by
  rcases h.stack_cases with hsame | ⟨b, -, hs⟩
  · rw [hsame]
    exact hw
  · exact hs.wf hw

theorem flatMap_spawned (t t' : TunRead) (f : Job → List Bytes)
    (hf : ∀ pkt query, f (.asked pkt query) = []) : (spawned t t').flatMap f = [] := by
  simp only [spawned, List.flatMap_map, hf]
  exact List.flatMap_eq_nil_iff.mpr fun _ _ => rfl

/-- The counter of packets and the packets themselves go up together. -/
theorem Step.packets (h : Step alloc c a c') :
    ∃ n, c'.out.packetsOut = c.out.packetsOut+UInt64.ofNat n ∧ c'.packets = c.packets+n := by
  cases h with
  | @read turns pkt t hr hread h =>
    refine ⟨0, (UInt64.add_zero _).symm, ?_⟩
    have hnew := flatMap_spawned c.read t Job.packetsHand (fun _ _ => rfl)
    simp only [Loop.packets, List.flatMap_append, hnew, List.append_nil, Nat.add_zero]
  | resolve hj =>
    refine ⟨1, rfl, ?_⟩
    simp only [Loop.packets, hj, List.flatMap_append, List.flatMap_cons, Job.packetsHand,
      List.length_append, List.length_singleton, List.length_nil]
    omega
  | noReply hj | countBytes hj =>
    refine ⟨0, (UInt64.add_zero _).symm, ?_⟩
    simp only [Loop.packets, hj, List.flatMap_append, List.flatMap_cons, Job.packetsHand,
      Nat.add_zero]
  | reply hj =>
    refine ⟨0, (UInt64.add_zero _).symm, ?_⟩
    simp only [Loop.packets, hj, List.flatMap_append, List.flatMap_cons, Job.packetsHand,
      List.length_append, List.length_singleton, List.length_nil]
    omega
  | count hp =>
    refine ⟨1, rfl, ?_⟩
    simp only [Loop.packets, hp, Poller.packetsHand, List.length_singleton, List.length_nil]
    omega
  | write hp =>
    refine ⟨0, (UInt64.add_zero _).symm, ?_⟩
    simp only [Loop.packets, hp, Poller.packetsHand, List.length_append, List.length_singleton,
      List.length_nil]
    omega
  | tick hp | endPoll hp | drain hp | drained hp | accepted hp =>
    refine ⟨0, (UInt64.add_zero _).symm, ?_⟩
    simp only [Loop.packets, hp, Poller.packetsHand, Nat.add_zero]
  | readErr | feed | poll | accept | relay => exact ⟨0, (UInt64.add_zero _).symm, rfl⟩

theorem Step.bytes (h : Step alloc c a c') :
    ∃ n, c'.out.bytesOut = c.out.bytesOut+UInt64.ofNat n ∧ c'.bytes = c.bytes+n := by
  cases h with
  | @read turns pkt t hr hread h =>
    refine ⟨0, (UInt64.add_zero _).symm, ?_⟩
    have hnew := flatMap_spawned c.read t Job.bytesHand (fun _ _ => rfl)
    simp only [Loop.bytes, List.flatMap_append, hnew, List.append_nil, Nat.add_zero]
  | resolve hj | noReply hj =>
    refine ⟨0, (UInt64.add_zero _).symm, ?_⟩
    simp only [Loop.bytes, hj, List.flatMap_append, List.flatMap_cons, Job.bytesHand,
      Nat.add_zero]
  | countBytes hj =>
    refine ⟨_, rfl, ?_⟩
    simp only [Loop.bytes, hj, List.flatMap_append, List.flatMap_cons, Job.bytesHand,
      List.flatten_append, List.flatten_singleton, List.length_append, List.flatten_nil,
      List.length_nil]
    omega
  | reply hj =>
    refine ⟨0, (UInt64.add_zero _).symm, ?_⟩
    simp only [Loop.bytes, hj, List.flatMap_append, List.flatMap_cons, Job.bytesHand,
      List.flatten_append, List.flatten_singleton, List.length_append, List.flatten_nil,
      List.length_nil]
    omega
  | drain hp =>
    refine ⟨_, rfl, ?_⟩
    simp only [Loop.bytes, hp, Poller.bytesHand, List.flatten_singleton, List.flatten_nil,
      List.length_nil]
    omega
  | write hp =>
    refine ⟨0, (UInt64.add_zero _).symm, ?_⟩
    simp only [Loop.bytes, hp, Poller.bytesHand, List.flatten_append, List.flatten_singleton,
      List.length_append, List.flatten_nil, List.length_nil]
    omega
  | tick hp | endPoll hp | count hp | drained hp | accepted hp =>
    refine ⟨0, (UInt64.add_zero _).symm, ?_⟩
    simp only [Loop.bytes, hp, Poller.bytesHand, Nat.add_zero]
  | readErr | feed | poll | accept | relay => exact ⟨0, (UInt64.add_zero _).symm, rfl⟩

theorem readerAfter_hand {t t' : TunRead} {pkt : Bytes} (h : t.onPacket pkt = .ok t') :
    t'.fed = t.fed ++ (readerAfter t t' pkt).hand := by
  unfold readerAfter
  obtain ⟨hfed, -⟩ | rfl | ⟨-, rfl⟩ := TunRead.onPacket_cases h
  · rw [hfed, if_pos rfl]
    exact (List.append_nil _).symm
  · have hlen : ((t.count pkt).feedInbound pkt).fed.length ≠ t.fed.length := by
      simp [TunRead.feedInbound, TunRead.count]
    rw [if_neg hlen]
    rfl
  · simp [TunRead.spawnDns, TunRead.count, Reader.hand]

theorem spawned_asker {t t' : TunRead} {pkt : Bytes} (h : t.onPacket pkt = .ok t') :
    t'.dns.map Prod.fst = t.dns.map Prod.fst ++ (spawned t t').map Job.asker := by
  have hsplit : t'.dns = t.dns ++ t'.dns.drop t.dns.length := by
    obtain ⟨-, hdns⟩ | rfl | ⟨-, rfl⟩ := TunRead.onPacket_cases h
    · rw [hdns, List.drop_length, List.append_nil]
    · exact (List.append_nil _).symm.trans (congrArg _ (List.drop_length).symm)
    · exact congrArg _ List.drop_left.symm
  have hask : (spawned t t').map Job.asker = (t'.dns.drop t.dns.length).map Prod.fst := by
    rw [spawned, List.map_map]
    rfl
  rw [hask, ← List.map_append, ← hsplit]

/-- A packet goes from the reader's hand into `tun_rx` and from there into `process_inbound`. -/
theorem Step.fed_flow (hw : c.stack.inner.Wf) (h : Step alloc c a c') :
    ∃ l, c'.read.fed = c.read.fed ++ l ∧
      c.stack.inner.tunRx ++ c.reader.hand ++ l =
        ingestedAt c a ++ c'.stack.inner.tunRx ++ c'.reader.hand := by
  cases h with
  | read hr _ h =>
    refine ⟨_, readerAfter_hand h, ?_⟩
    simp only [hr, Reader.hand, ingestedAt, List.append_nil, List.nil_append]
  | readErr hr =>
    refine ⟨[], (List.append_nil _).symm, ?_⟩
    simp only [hr, Reader.hand, ingestedAt, List.append_nil, List.nil_append]
  | feed hr h =>
    refine ⟨[], (List.append_nil _).symm, ?_⟩
    have hflow := h.tunRx_flow hw
    simp only [hr, Reader.hand, List.append_nil]
    exact hflow
  | tick _ h | endPoll _ h | drain _ _ h | accept _ h =>
    refine ⟨[], (List.append_nil _).symm, ?_⟩
    have hflow := h.tunRx_flow hw
    simp only [Stack.fedBy, Stack.ingestedBy, List.append_nil, List.nil_append] at hflow
    simp only [ingestedAt, Stack.ingestedBy, hflow, List.append_nil, List.nil_append]
  | @poll w b _ ha h | @relay w b ha h =>
    refine ⟨[], (List.append_nil _).symm, ?_⟩
    have hflow := h.tunRx_flow hw
    have hnone : Stack.fedBy b = [] := by
      cases b <;> first | rfl | cases ha
    rw [hnone, List.append_nil] at hflow
    rw [hflow, List.append_nil]
    rfl
  | _ => exact ⟨[], (List.append_nil _).symm, List.append_nil _⟩

/-- A packet goes from `tun_tx` into the hand of the poll task and from there to
`write_packet`. -/
theorem Step.out_flow (hw : c.stack.inner.Wf) (h : Step alloc c a c') :
    c.poller.bytesHand ++ c.stack.inner.tunTx ++ forwardedAt c a =
      pollWroteAt c a ++ c'.poller.bytesHand ++ c'.stack.inner.tunTx := by
  cases h with
  | @drain w pkt rest hp hq h =>
    have hflow := h.tunTx_flow hw
    simp only [Stack.forwardedAt, Stack.drainedAt, List.append_nil] at hflow
    simp only [hp, forwardedAt, Stack.forwardedAt, pollWroteAt, Poller.bytesHand, List.append_nil,
      List.nil_append]
    rw [hflow, hq]
    rfl
  | tick hp h | endPoll hp h =>
    have hflow := h.tunTx_flow hw
    simp only [Stack.forwardedAt, Stack.drainedAt, List.append_nil, List.nil_append] at hflow
    simp only [hp, forwardedAt, Stack.forwardedAt, pollWroteAt, Poller.bytesHand, hflow,
      List.append_nil, List.nil_append]
  | feed _ h | accept _ h =>
    have hflow := h.tunTx_flow hw
    simp only [Stack.forwardedAt, Stack.drainedAt, List.append_nil, List.nil_append] at hflow
    simp only [forwardedAt, Stack.forwardedAt, pollWroteAt, hflow, List.append_nil,
      List.nil_append]
  | @poll w b _ ha h | @relay w b ha h =>
    have hflow := h.tunTx_flow hw
    have hnone : Stack.drainedAt c.stack b = [] := by
      cases b <;> first | rfl | cases ha
    rw [hnone, List.nil_append] at hflow
    rw [List.append_assoc]
    exact congrArg _ hflow
  | count hp | drained hp | accepted hp | write hp =>
    simp only [hp, forwardedAt, pollWroteAt, Poller.bytesHand, List.append_nil, List.nil_append]
  | read | readErr | resolve | noReply | countBytes | reply => exact List.append_nil _

theorem perm_snoc {α : Type} {l front back : List α} (h : l.Perm (front ++ back)) (x : α) :
    (l ++ [x]).Perm (front ++ x :: back) :=
  calc l ++ [x]
    _ |>.Perm (x :: l) := List.perm_append_singleton x l
    _ |>.Perm (x :: (front ++ back)) := h.cons x
    _ |>.Perm (front ++ x :: back) := List.perm_middle.symm

theorem Step.written_flow (h : Step alloc c a c')
    {l : List Bytes} (hl : c.written.Perm (l ++ c.jobs.flatMap Job.sent)) :
    c'.written.Perm (l ++ pollWroteAt c a ++ c'.jobs.flatMap Job.sent) := by
  cases h with
  | @read turns pkt t hr hread h =>
    have hnew := flatMap_spawned c.read t Job.sent (fun _ _ => rfl)
    simpa only [pollWroteAt, List.flatMap_append, hnew, List.append_nil] using hl
  | resolve hj | noReply hj | countBytes hj =>
    simpa only [hj, pollWroteAt, List.flatMap_append, List.flatMap_cons, Job.sent,
      List.append_nil] using hl
  | @reply pre post pkt reply turns result hj =>
    simp only [hj, List.flatMap_append, List.flatMap_cons, Job.sent, List.nil_append] at hl
    simp only [pollWroteAt, List.flatMap_append, List.flatMap_cons, Job.sent, List.append_nil]
    rw [← List.append_assoc] at hl ⊢
    exact perm_snoc hl reply
  | @write pkt turns result hp =>
    rw [pollWroteAt, List.append_assoc]
    exact perm_snoc hl pkt
  | _ => simpa only [pollWroteAt, List.append_nil] using hl

theorem Step.mtu_eq (h : Step alloc c a c') : c'.mtu = c.mtu := by
  cases h <;> rfl

/-- What `write_packet` is given is on record with what it made of it. -/
theorem Step.handed_flow (h : Step alloc c a c') :
    c'.written = c.written ++ (handedAt c a).map Prod.fst ∧
      ∀ q ∈ handedAt c a, PacketTooLarge (some q.2) ↔ c.mtu.toNat < q.1.length := by
  cases h with
  | @reply _ _ _ pkt turns result _ hw | @write pkt turns result _ hw =>
    refine ⟨rfl, ?_⟩
    intro q hq
    rw [List.mem_singleton.mp hq, ← hw]
    exact writePacket_tooLarge_iff c.mtu pkt turns
  | _ => exact ⟨(List.append_nil _).symm, fun _ hq => absurd hq List.not_mem_nil⟩

theorem deliveredAt_eq (c : Loop) (a : Act) :
    deliveredAt c a = ((handedAt c a).filter fun q => q.2.isOk).map Prod.fst := by
  cases a with
  | reply pkt result | write pkt result =>
    rcases result with e | ⟨⟩ <;> rfl
  | _ => rfl

theorem delivered_eq (tr : List (Loop × Act)) :
    gather deliveredAt tr = ((gather handedAt tr).filter fun q => q.2.isOk).map Prod.fst := by
  induction tr with
  | nil => rfl
  | cons p tr ih =>
    have hcons {β : Type} (f : Loop → Act → List β) : gather f (p :: tr) =
        f p.1 p.2 ++ gather f tr := List.flatMap_cons
    rw [hcons, hcons, List.filter_append, List.map_append, ← ih, deliveredAt_eq]

theorem Step.asker_flow (h : Step alloc c a c')
    (hl : c.jobs.map Job.asker = c.read.dns.map Prod.fst) :
    c'.jobs.map Job.asker = c'.read.dns.map Prod.fst := by
  cases h with
  | read hr _ h => rw [List.map_append, hl, ← spawned_asker h]
  | resolve hj | noReply hj | countBytes hj | reply hj =>
    simpa only [hj, List.map_append, List.map_cons, Job.asker] using hl
  | _ => exact hl

theorem Step.read_flow (h : Step alloc c a c') :
    TunRead.run c.read (readAt c a) = .ok c'.read := by
  cases h with
  | read _ _ h => exact (bind_pure _).trans h
  | _ => rfl

end Steps

/-- The books of the loop after a run. -/
structure Accounts (mtu : UInt16) (tr : List (Loop × Act)) (c : Loop) : Prop where
  mtu_eq : c.mtu = mtu
  wf : c.stack.inner.Wf
  read : TunRead.new.run (gather readAt tr) = .ok c.read
  fed : c.read.fed = gather ingestedAt tr ++ c.stack.inner.tunRx ++ c.reader.hand
  out : gather forwardedAt tr =
    gather pollWroteAt tr ++ c.poller.bytesHand ++ c.stack.inner.tunTx
  asker : c.jobs.map Job.asker = c.read.dns.map Prod.fst
  written : c.written.Perm (gather pollWroteAt tr ++ c.jobs.flatMap Job.sent)
  handed : (gather handedAt tr).map Prod.fst = c.written
  sizes : ∀ q ∈ gather handedAt tr, PacketTooLarge (some q.2) ↔ mtu.toNat < q.1.length
  packetsOut : c.out.packetsOut = UInt64.ofNat c.packets
  bytesOut : c.out.bytesOut = UInt64.ofNat c.bytes

theorem Accounts.init (mtu : UInt16) : Accounts mtu [] (Loop.init mtu) where
  mtu_eq := rfl
  wf := Stack.Inner.wf_new mtu
  read := rfl
  fed := rfl
  out := rfl
  asker := rfl
  written := List.Perm.refl _
  handed := rfl
  sizes := fun _ hq => absurd hq List.not_mem_nil
  packetsOut := rfl
  bytesOut := rfl

theorem Accounts.step {alloc : Stack.Allocator} {mtu : UInt16} {tr : List (Loop × Act)}
    {c c' : Loop} {a : Act} (hb : Accounts mtu tr c) (h : Step alloc c a c') :
    Accounts mtu (tr ++ [(c, a)]) c' where
  mtu_eq := h.mtu_eq.trans hb.mtu_eq
  wf := h.wf hb.wf
  read := by
    rw [gather_snoc, TunRead.run, List.foldlM_append]
    exact (congrArg (· >>= _) hb.read).trans h.read_flow
  fed := by
    obtain ⟨l, hl, hflow⟩ := h.fed_flow hb.wf
    rw [gather_snoc, hl, hb.fed]
    simp only [List.append_assoc] at hflow ⊢
    rw [hflow]
  out := by
    have hflow := h.out_flow hb.wf
    rw [gather_snoc, gather_snoc, hb.out]
    simp only [List.append_assoc] at hflow ⊢
    rw [hflow]
  asker := h.asker_flow hb.asker
  written := by
    rw [gather_snoc]
    exact h.written_flow hb.written
  handed := by
    rw [gather_snoc, List.map_append, hb.handed, h.handed_flow.1]
  sizes := by
    have hsizes := h.handed_flow.2
    rw [hb.mtu_eq] at hsizes
    rw [gather_snoc, List.forall_mem_append]
    exact ⟨hb.sizes, hsizes⟩
  packetsOut := by
    obtain ⟨n, hout, hn⟩ := h.packets
    rw [hout, hn, hb.packetsOut, UInt64.ofNat_add]
  bytesOut := by
    obtain ⟨n, hout, hn⟩ := h.bytes
    rw [hout, hn, hb.bytesOut, UInt64.ofNat_add]

theorem Accounts.of_run {alloc : Stack.Allocator} {mtu : UInt16} {tr : List (Loop × Act)}
    {c : Loop} (hrun : Run (Step alloc) (Loop.init mtu) tr c) : Accounts mtu tr c :=
  hrun.history (Accounts mtu) (Accounts.init mtu) fun _ _ _ _ hb h => hb.step h

/-- A task that has its answer can go on to the end, whatever the others do. -/
theorem answer_run (alloc : Stack.Allocator) {c : Loop} {pre post : List Job}
    {pkt query resp reply : Bytes} {x : Exchange} {dns : DnsInterceptor} {turns : List (Turn Unit)}
    {result : Except TunError Unit} (hj : c.jobs = pre ++ .asked pkt query :: post)
    (hq : c.dns.handleQuery query x = .ok (dns, .ok resp))
    (hb : buildUdpReply pkt resp = .ok (some reply))
    (hw : TunWriter.writePacket c.mtu reply turns = some result) :
    ∃ tr c', Run (Step alloc) c tr c' ∧
      tr.map Prod.snd = [.resolve pkt x, .countBytes, .reply reply result] ∧
      c'.written = c.written ++ [reply] ∧ c'.jobs = pre ++ .handed pkt reply result :: post ∧
      c'.out = c.out.count reply := by
  have hstep : Step alloc c (.resolve pkt x) _ := .resolve hj hq hb
  exact ⟨_, _, ((Run.single hstep).snoc (.countBytes rfl)).snoc (.reply rfl hw), rfl, rfl, rfl, rfl⟩

theorem read_query (alloc : Stack.Allocator) (mtu : UInt16) {pkt : Bytes}
    (hwhole : Engine.WholeDns pkt) (hlen : pkt.length ≤ BUF_SIZE) :
    ∃ c, Step alloc (Loop.init mtu) (.read pkt) c ∧
      c.jobs = [] ++ .asked pkt (queryOf pkt) :: [] ∧ c.dns = ⟨0, 0⟩ ∧ c.out = ⟨0, 0⟩ ∧
      c.written = [] ∧ c.mtu = mtu := by
  have hread : TunReader.readPacket [.done pkt] = some (.ok pkt) :=
    (readPacket_whole_iff rfl).mpr hlen
  exact ⟨_, .read rfl hread (TunRead.onPacket_whole _ hwhole), rfl, rfl, rfl, rfl, rfl⟩

/-- A query is read and its task runs to the end, with a TUN that takes what it is given. -/
theorem query_run (alloc : Stack.Allocator) (mtu : UInt16) {pkt : Bytes} (datagram : Bytes)
    (hwhole : Engine.WholeDns pkt) (hlen : pkt.length ≤ BUF_SIZE) :
    ∃ tr c reply, Run (Step alloc) (Loop.init mtu) tr c ∧ gather readAt tr = [pkt] ∧
      c.written = [reply] ∧ reply.length = 28+min datagram.length 4096 ∧
      c.out.packetsOut = 1 := by
  obtain ⟨c₁, hstep, hjobs, hdns, hout, hnone, -⟩ := read_query alloc mtu hwhole hlen
  obtain ⟨reply, hreply, hlength⟩ := Engine.reply_to_whole hwhole datagram
  have hask : c₁.dns.handleQuery (queryOf pkt) (.answered datagram) =
      .ok (⟨1, 0⟩, .ok (datagram.take 4096)) := by
    rw [hdns, DnsInterceptor.handleQuery, Dns.forwardRaw_answered]
    rfl
  obtain ⟨tr, c, hrun, hacts, hwritten, -, hcount⟩ := answer_run alloc hjobs hask hreply
    (writePacket_ready c₁.mtu reply)
  refine ⟨_, c, reply, (Run.single hstep).append hrun, ?_, ?_, hlength, ?_⟩
  · rw [gather_append, gather_labels readAt c (fun _ _ => rfl) tr, hacts]
    rfl
  · rw [hwritten, hnone]
    rfl
  · rw [hcount, hout]
    rfl

/-- Over every run of the loop: what was fed is what the stack has taken in, then what waits in
`tun_rx`, then what the reader holds; what the stack put out was handed to `write_packet` in the
same order, up to what the poll task holds and what waits in `tun_tx`; there is one task for each
intercepted query; nothing else was handed over but one reply from each task that is done; the two
counters say what was handed over, with what is about to be; and the TUN has got of it what
`write_packet` returned `Ok` for, which it refuses for the size exactly above the MTU. -/
theorem client_loop_accounts {alloc : Stack.Allocator} {mtu : UInt16} {tr : List (Loop × Act)}
    {c : Loop} (hrun : Run (Step alloc) (Loop.init mtu) tr c) :
    TunRead.new.run (gather readAt tr) = .ok c.read ∧
    c.read.fed = gather ingestedAt tr ++ c.stack.inner.tunRx ++ c.reader.hand ∧
    gather forwardedAt tr = gather pollWroteAt tr ++ c.poller.bytesHand ++ c.stack.inner.tunTx ∧
    c.jobs.map Job.asker = c.read.dns.map Prod.fst ∧
    c.written.Perm (gather pollWroteAt tr ++ c.jobs.flatMap Job.sent) ∧
    c.out.packetsOut = UInt64.ofNat c.packets ∧ c.out.bytesOut = UInt64.ofNat c.bytes ∧
    (gather handedAt tr).map Prod.fst = c.written ∧
    gather deliveredAt tr = ((gather handedAt tr).filter fun q => q.2.isOk).map Prod.fst ∧
    ∀ q ∈ gather handedAt tr, PacketTooLarge (some q.2) ↔ mtu.toNat < q.1.length := by
  have hb := Accounts.of_run hrun
  exact ⟨hb.read, hb.fed, hb.out, hb.asker, hb.written, hb.packetsOut, hb.bytesOut, hb.handed,
    delivered_eq tr, hb.sizes⟩

/-- With the default MTU the reply to an answer of 1253 bytes is counted and handed over, and the
app does not get it. -/
theorem large_reply_accounted : ∃ (tr : List (Loop × Act)) (c : Loop) (reply : Bytes),
    gather readAt tr = [TunRead.dnsPacket 13 [1, 2, 3, 4, 5]] ∧ c.written = [reply] ∧
    c.out.packetsOut = 1 ∧ gather deliveredAt tr = [] := by
  obtain ⟨tr, c, reply, hrun, hread, hwritten, hlength, hcount⟩ := @query_run .lowest 1280
    (TunRead.dnsPacket 13 [1, 2, 3, 4, 5]) (List.replicate 1253 0) (by decide) (by decide)
  rw [List.length_replicate] at hlength
  obtain ⟨-, -, -, -, -, -, -, hhanded, hdelivered, hsizes⟩ := client_loop_accounts hrun
  rw [hwritten] at hhanded
  obtain ⟨q, hq, rfl⟩ := List.map_eq_singleton_iff.mp hhanded
  -- the reply has 1281 bytes, one too many
  rw [hq, List.forall_mem_singleton, hlength] at hsizes
  obtain ⟨size, mtu, hresult⟩ := hsizes.mpr (by decide)
  have hrefused : q.2.isOk = false := by
    rw [Option.some.inj hresult]
    rfl
  refine ⟨tr, c, q.1, hread, hwritten, hcount, ?_⟩
  rw [hdelivered, hq, List.filter_singleton, hrefused]
  rfl

end Client

end GravitalShare
