import GravitalShare.EngineSession
import GravitalShare.SharedCell
import Mathlib.Data.List.Permutation

/-! `Session::dispatch` from several tasks at once. The state is read under the read lock and
overwritten under the write lock, with nothing held in between; the listeners are called
after that. -/
namespace GravitalShare.Engine

open SharedCell

/-- The session together with the dispatch calls in flight and one listener. -/
abbrev Session := Cell SessionState SessionEvent EngineError

abbrev DispatchStep : Session → Act SessionEvent → Session → Prop := Step transition

/-- While every write finds the state its call has read, concurrent calls have the results
and the final state of a sequential history, in the order in which they took effect. -/
theorem dispatch_linearizable {s : SessionState} {tr : List (Session × Act SessionEvent)}
    {d : Session} (h : Run DispatchStep (Cell.init s) tr d)
    (hfresh : ∀ p ∈ tr, ∀ i e seen next, p.2 = .write i →
      p.1.calls i = .loaded e seen next → p.1.value = seen) :
    ((gather (effect transition) tr).map Prod.fst).Nodup ∧
      (sequential transition s (gather (effect transition) tr)).2 = d.value ∧
      (∀ i e r, d.calls i = .done e r →
        (i, e, r) ∈ (sequential transition s (gather (effect transition) tr)).1) ∧
      ∀ i e r, (i, e, r) ∈ (sequential transition s (gather (effect transition) tr)).1 →
        d.calls i = .done e r ∨ r = .ok () ∧ ∃ next, d.calls i = .stored e next := by
  have hl := linearized_of_fresh transition h hfresh
  exact ⟨hl.nodup, hl.value, hl.done, hl.only⟩

def examplePeer : PeerInfo := ⟨.v4 ⟨192, 168, 49, 1⟩ 1080⟩

theorem user_stop_before_network_lost : ∃ tr d,
    Run DispatchStep (Cell.init (.connected .client examplePeer)) tr d ∧
    d.calls 0 = .done .userStop (.ok ()) ∧
    d.calls 1 = .done .networkLost (.error .invalidTransition) ∧
    (sequential transition (.connected .client examplePeer)
      (gather (effect transition) tr)).2 = d.value := by
  have h1 : DispatchStep (Cell.init (.connected .client examplePeer)) (.invoke 0 .userStop) _ :=
    .invoke _ rfl
  have hrun := (((((Run.single h1).snoc (.invoke (i := 1) .networkLost rfl)).snoc
    (.read (i := 0) rfl)).snoc (.write (i := 0) rfl)).snoc (.read (i := 1) rfl)).snoc
    (.notify (i := 0) rfl)
  refine ⟨_, _, hrun, rfl, rfl, (dispatch_linearizable hrun ?_).2.1⟩
  intro p hp i e seen next ha hc
  simp only [List.cons_append, List.nil_append, List.mem_cons, List.not_mem_nil,
    or_false] at hp
  rcases hp with rfl | rfl | rfl | rfl | rfl | rfl <;> cases ha
  cases hc
  rfl

/-- A UserStop that returned Ok is undone by a NetworkLost that had read the older state:
no order of the two calls has both results and the final state. -/
theorem user_stop_undone : ∃ tr d,
    (sequential transition .idle [(0, .userStart .client), (1, .engineReady),
      (2, .proxyConnected examplePeer)]).2 = .connected .client examplePeer ∧
    Run DispatchStep (Cell.init (.connected .client examplePeer)) tr d ∧
    d.calls 0 = .done .userStop (.ok ()) ∧ d.calls 1 = .done .networkLost (.ok ()) ∧
    d.value = .reconnecting .client 1 none ∧
    ∀ order, order.Perm [(0, .userStop), (1, .networkLost)] →
      ¬((∀ x ∈ (sequential transition (.connected .client examplePeer) order).1,
          x.2.2 = .ok ()) ∧
        (sequential transition (.connected .client examplePeer) order).2 = d.value) := by
  have h1 : DispatchStep (Cell.init (.connected .client examplePeer)) (.invoke 0 .userStop) _ :=
    .invoke _ rfl
  have hrun := ((((((Run.single h1).snoc (.invoke (i := 1) .networkLost rfl)).snoc
    (.read (i := 0) rfl)).snoc (.read (i := 1) rfl)).snoc (.write (i := 0) rfl)).snoc
    (.write (i := 1) rfl)).snoc (.notify (i := 0) rfl) |>.snoc (.notify (i := 1) rfl)
  refine ⟨_, _, rfl, hrun, rfl, rfl, rfl, ?_⟩
  rintro order hperm ⟨hok, hvalue⟩
  rcases List.perm_pair.mp hperm with rfl | rfl
  · -- NetworkLost is refused while the session is stopping
    cases hok (1, .networkLost, .error .invalidTransition)
      (List.mem_cons_of_mem _ List.mem_cons_self)
  · -- UserStop comes last and leaves the session stopping
    cases hvalue

/-- While no call notifies the listener ahead of one that has written before it, the
listener sees the states in the order in which they were written, and all of them once no
call is in progress. -/
theorem listener_sees_writes_in_order {s : SessionState}
    {tr : List (Session × Act SessionEvent)} {d : Session}
    (h : Run DispatchStep (Cell.init s) tr d)
    (horder : ∀ p ∈ tr, ∀ i, p.2 = .notify i → ∀ j e next, j ≠ i →
      p.1.calls j = .stored e next →
      (p.1.written.map Prod.fst).idxOf i < (p.1.written.map Prod.fst).idxOf j) :
    d.delivered.map Prod.snd <+: d.written.map Prod.snd ∧
      (Quiescent d → d.delivered.map Prod.snd = d.written.map Prod.snd ∧
        (d.delivered.map Prod.snd).getLastD s = d.value) := by
  have ho := ordered_of_inOrder transition h horder
  obtain ⟨rest, hsplit, -, -⟩ := ho.pending
  refine ⟨⟨rest.map Prod.snd, by rw [hsplit, List.map_append]⟩, ?_⟩
  intro hq
  have heq := ho.delivered_eq hq
  exact ⟨by rw [heq], by rw [heq, ho.value]⟩

theorem quiescent_of_two_calls {d : Session} {e e' : SessionEvent} {r r' : Except EngineError Unit}
    (h0 : d.calls 0 = .done e r) (h1 : d.calls 1 = .done e' r')
    (hrest : ∀ i, d.calls (i+2) = .idle) : Quiescent d := by
  rintro (_ | _ | i)
  · exact Or.inr ⟨e, r, h0⟩
  · exact Or.inr ⟨e', r', h1⟩
  · exact Or.inl (hrest i)

theorem listener_sees_two_writes : ∃ tr d,
    Run DispatchStep (Cell.init (.connected .client examplePeer)) tr d ∧ Quiescent d ∧
    d.delivered.map Prod.snd =
      [.reconnecting .client 1 none, .connected .client examplePeer] ∧
    (d.delivered.map Prod.snd).getLastD (.connected .client examplePeer) = d.value := by
  have h1 : DispatchStep (Cell.init (.connected .client examplePeer)) (.invoke 0 .networkLost) _ :=
    .invoke _ rfl
  have hrun := ((((((Run.single h1).snoc (.read (i := 0) rfl)).snoc (.write (i := 0) rfl)).snoc
    (.invoke (i := 1) (.proxyConnected examplePeer) rfl)).snoc (.read (i := 1) rfl)).snoc
    (.write (i := 1) rfl)).snoc (.notify (i := 0) rfl) |>.snoc (.notify (i := 1) rfl)
  refine ⟨_, _, hrun, ?quiet, rfl, ((listener_sees_writes_in_order hrun ?ordered).2 ?quiet).2⟩
  case quiet => exact quiescent_of_two_calls rfl rfl fun _ => rfl
  intro p hp i ha j e next hj hst
  simp only [List.cons_append, List.nil_append, List.mem_cons, List.not_mem_nil,
    or_false] at hp
  rcases hp with rfl | rfl | rfl | rfl | rfl | rfl | rfl | rfl <;> cases ha
  · -- call 0 notifies with call 1 waiting
    rcases j with _ | _ | j
    · exact absurd rfl hj
    · exact (by decide : [0, 1].idxOf 0 < [0, 1].idxOf 1)
    · cases hst
  · rcases j with _ | _ | j
    · cases hst
    · exact absurd rfl hj
    · cases hst

/-- The later of two writes is notified first: with nothing in progress, the listener's
last state is not the session's. -/
theorem listener_left_with_stale_state : ∃ tr d,
    Run DispatchStep (Cell.init (.connected .client examplePeer)) tr d ∧ Quiescent d ∧
    d.written.map Prod.snd = [.reconnecting .client 1 none, .connected .client examplePeer] ∧
    d.delivered.map Prod.snd = [.connected .client examplePeer, .reconnecting .client 1 none] ∧
    d.value = .connected .client examplePeer ∧
    (d.delivered.map Prod.snd).getLastD (.connected .client examplePeer) ≠ d.value := by
  have h1 : DispatchStep (Cell.init (.connected .client examplePeer)) (.invoke 0 .networkLost) _ :=
    .invoke _ rfl
  have hrun := ((((((Run.single h1).snoc (.read (i := 0) rfl)).snoc (.write (i := 0) rfl)).snoc
    (.invoke (i := 1) (.proxyConnected examplePeer) rfl)).snoc (.read (i := 1) rfl)).snoc
    (.write (i := 1) rfl)).snoc (.notify (i := 1) rfl) |>.snoc (.notify (i := 0) rfl)
  refine ⟨_, _, hrun, quiescent_of_two_calls rfl rfl fun _ => rfl, rfl, rfl, rfl, ?_⟩
  exact SessionState.noConfusion

end GravitalShare.Engine
