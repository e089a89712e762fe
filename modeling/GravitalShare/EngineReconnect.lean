import GravitalShare.EngineHistory
import GravitalShare.SocksRetry
import Mathlib.Data.List.DropRight

/-! The attempt counter and the last error of a session that reconnects. Nothing ever counts up:
the counter of every such session is 1, and the reason of the loss is dropped. -/
namespace GravitalShare.Engine

/-- `backoff_delay` of the session, in milliseconds. -/
def backoffDelay (attempt : UInt32) : ℕ := Backoff.delay 250 30000 attempt.toNat

/-- Both back-offs are the same, and saturation never shows. -/
theorem backoffDelay_exact (attempt : UInt32) :
    backoffDelay attempt = Socks.backoffDelay attempt ∧
    backoffDelay attempt = min (250*2^(max attempt.toNat 1-1)) 30000 ∧
    (∀ later, attempt ≤ later → backoffDelay attempt ≤ backoffDelay later) ∧
    250 ≤ backoffDelay attempt ∧ backoffDelay attempt ≤ 30000 := by
  have hcap : 30000 < 2^64 := by decide
  refine ⟨rfl, Backoff.delay_eq (by decide) hcap _, ?_, ?_, Backoff.delay_le _⟩
  · intro later h
    exact Backoff.delay_mono (by decide) hcap (UInt32.le_iff_toNat_le.mp h)
  · exact Backoff.le_delay (by decide) hcap (by decide) _

example : [1, 2, 3, 10].map backoffDelay = [250, 500, 1000, 30000] := by decide

/-- The reason that a loss of the connection carries. -/
def SessionEvent.reason : SessionEvent → Option String
  | .proxyDisconnected error => error
  | _ => none

def SessionState.isConnecting : SessionState → Bool
  | .connecting _ _ => true
  | _ => false

-- is_active
def SessionState.isActive : SessionState → Bool
  | .connected _ _ => true
  | _ => false

section Losses

variable {ι : Type}

/-- The dispatches since the session was last Connected or, if it never was, since it became
Connecting. -/
def sinceConnected (history : List (Dispatched ι)) : List (Dispatched ι) :=
  if history.any fun d => d.after.isActive then
    history.rtakeWhile fun d => !d.after.isActive
  else
    history.rtakeWhile fun d => d.before.isConnecting || !d.after.isConnecting

/-- The losses of the connection among them. -/
def losses (history : List (Dispatched ι)) : List SessionEvent :=
  ((sinceConnected history).map Dispatched.event).filter SessionEvent.isLoss

end Losses

/-- Where the attempts of a session would be counted. -/
def CountsOne : SessionState → Prop
  | .connecting _ attempt => attempt = 1
  | .reconnecting _ attempt lastError => attempt = 1 ∧ lastError = none
  | _ => True

theorem Accepted.countsOne {s next : SessionState} {e : SessionEvent} (h : Accepted s e next)
    (hs : CountsOne s) : CountsOne next := by
  cases h with
  | ready => exact rfl
  | neverConnected => exact ⟨hs, rfl⟩
  | lost => exact ⟨rfl, rfl⟩
  | _ => trivial

theorem countsOne_stateAfter {ι : Type} (listeners : List ι) (events : List SessionEvent) :
    CountsOne (stateAfter listeners .idle events) := by
  apply history_induction (fun _ s => CountsOne s)
  · exact trivial
  · intro _ s e hs
    cases ht : transition s e with
    | error err => rwa [dispatch_error ht]
    | ok next =>
      obtain ⟨calls, hd⟩ := dispatch_ok listeners ht
      rw [hd]
      exact (accepted_of_transition ht).countsOne hs

/-- The counter and the last error of a session that reconnects are right exactly if it has lost
its connection once and for no given reason. -/
theorem reconnecting_counts_iff {ι : Type} (listeners : List ι) (events : List SessionEvent)
    {mode : SessionMode} {attempt : UInt32} {lastError : Option String}
    (h : stateAfter listeners .idle events = .reconnecting mode attempt lastError) :
    (attempt.toNat = (losses (dispatchAll listeners .idle events)).length ∧
        lastError = (losses (dispatchAll listeners .idle events)).getLast?.bind
          SessionEvent.reason) ↔
      ∃ e, losses (dispatchAll listeners .idle events) = [e] ∧ e.reason = none := by
  have hone := countsOne_stateAfter listeners events
  rw [h] at hone
  obtain ⟨rfl, rfl⟩ := hone
  generalize losses (dispatchAll listeners .idle events) = l
  constructor
  · rintro ⟨hlen, hreason⟩
    obtain ⟨e, rfl⟩ := List.length_eq_one_iff.mp hlen.symm
    exact ⟨e, rfl, hreason.symm⟩
  · rintro ⟨e, rfl, hreason⟩
    exact ⟨rfl, hreason.symm⟩

/-- A connection that is lost `n` times in a row, each time for the given reason. -/
def lostTimes (n : ℕ) (reason : Option String) : List SessionEvent :=
  [.userStart .client, .engineReady, .proxyConnected ⟨.v4 ⟨192, 168, 43, 1⟩ 1080⟩] ++
    List.replicate n (.proxyDisconnected reason)

theorem first_loss_counted :
    stateAfter [()] .idle (lostTimes 1 none) = .reconnecting .client 1 none ∧
    (1 : UInt32).toNat = (losses (dispatchAll [()] .idle (lostTimes 1 none))).length := by
  refine ⟨rfl, ((reconnecting_counts_iff [()] (lostTimes 1 none) rfl).mpr ?_).1⟩
  exact ⟨.proxyDisconnected none, rfl, rfl⟩

/-- After three losses the session still waits as after the first one, and the reason is gone. -/
theorem losses_uncounted :
    stateAfter [()] .idle (lostTimes 3 (some "refused")) = .reconnecting .client 1 none ∧
    (losses (dispatchAll [()] .idle (lostTimes 3 (some "refused")))).length = 3 ∧
    (losses (dispatchAll [()] .idle (lostTimes 3 (some "refused")))).getLast?.bind
      SessionEvent.reason = some "refused" ∧
    backoffDelay 1 = 250 ∧ backoffDelay 3 = 1000 := by
  refine ⟨rfl, rfl, rfl, ?_, ?_⟩ <;> decide

end GravitalShare.Engine
