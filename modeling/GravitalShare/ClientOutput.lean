import GravitalShare.ClientDns
import GravitalShare.StackFlows
import GravitalShare.StackHostile
import GravitalShare.StackOutbound

/-! Where the packets come from that the loop hands to an app: each replies to a query of the app,
or comes from an address that the app has asked for. -/
namespace GravitalShare

namespace Stack

/-- `out` is a packet of smoltcp under the address for which the port of the packet stands. -/
structure Answers (nat : NatTable) (flow : FiveTuple) (pkt out : Bytes) : Prop where
  mapped : nat.lookupReverse (u16At pkt (ihl pkt)) = some flow
  rewritten : Rewritten pkt out (fun i => (12 ≤ i ∧ i < 16) ∨ (ihl pkt ≤ i ∧ i < ihl pkt+2))
    flow.2 (dstEndpoint pkt)

theorem Answers.mono {nat nat' : NatTable} {flow : FiveTuple} {pkt out : Bytes}
    (h : Answers nat flow pkt out) (hext : nat.Extends nat') : Answers nat' flow pkt out :=
  ⟨hext _ _ h.mapped, h.rewritten⟩

section

variable {alloc : Allocator} {w w' : World} {a : Act} {tr : List (World × Act)} {mtu : UInt16}

end

end Stack

namespace Engine.TunRead

end Engine.TunRead

namespace Client

open Engine Dns Tun

/-- The stack's part of a poll, as the poll task makes it. -/
theorem poll_run {alloc : Stack.Allocator} {c : Loop} {tr : List (Stack.World × Stack.Act)}
    {w w' : Stack.World} (hp : c.poller = .polling) (hc : c.stack = w)
    (h : Run (Stack.Step alloc) w tr w') (hin : ∀ p ∈ tr, inPoll p.2 = true) :
    ∃ tr', Run (Step alloc) c tr' { c with stack := w' } ∧
      tr'.map Prod.snd = tr.map fun p => .stack p.2 := by
  induction h with
  | nil =>
    subst hc
    exact ⟨[], Run.nil, rfl⟩
  | @snoc tr w a w' hrun hstep ih =>
    obtain ⟨tr', hrun', hacts⟩ := ih fun p hmem => hin p (List.mem_append_left _ hmem)
    have ha : inPoll a = true := hin _ (List.mem_append_right _ (List.mem_singleton_self _))
    refine ⟨_, hrun'.snoc (.poll hp ha hstep), ?_⟩
    rw [List.map_append, List.map_append, hacts]
    rfl

section

variable {alloc : Stack.Allocator} {mtu : UInt16} {tr : List (Loop × Act)} {c c' : Loop} {a : Act}

end

end Client

end GravitalShare
