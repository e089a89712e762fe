import GravitalShare.EngineSession
import GravitalShare.SharedCell
import Mathlib.Data.List.Induction

/-! Events dispatched to a session one after the other, with everything a caller and a listener
get to know of them, and what of this history can be read off the state. -/
namespace GravitalShare.Engine

/-- One call of `dispatch`: the states around it, its result, and the calls of listeners. -/
structure Dispatched (ι : Type) where
  before : SessionState
  event : SessionEvent
  result : Except EngineError Unit
  after : SessionState
  calls : List (ι × SessionState)

section Dispatch

variable {ι : Type} (listeners : List ι)

def dispatch (current : SessionState) (event : SessionEvent) : Dispatched ι :=
  match transition current event with
  | .error e => ⟨current, event, .error e, current, []⟩
  | .ok next =>
    if next ≠ current then ⟨current, event, .ok (), next, listeners.map fun l => (l, next)⟩
    else ⟨current, event, .ok (), current, []⟩

def dispatchAll (s : SessionState) : List SessionEvent → List (Dispatched ι)
  | [] => []
  | e :: es => dispatch listeners s e :: dispatchAll (dispatch listeners s e).after es

def stateAfter (s : SessionState) (events : List SessionEvent) : SessionState :=
  events.foldl (fun s e => (dispatch listeners s e).after) s

variable {listeners} {s next : SessionState} {e : SessionEvent}

theorem dispatch_error {err : EngineError} (h : transition s e = .error err) :
    dispatch listeners s e = ⟨s, e, .error err, s, []⟩ := by
  rw [dispatch, h]

variable (listeners) in
theorem dispatch_ok (h : transition s e = .ok next) :
    ∃ calls, dispatch listeners s e = ⟨s, e, .ok (), next, calls⟩ := by
  rw [dispatch, h]
  by_cases hne : next = s
  · exact ⟨[], by simp [hne]⟩
  · exact ⟨_, if_pos hne⟩

/-- A dispatch is a call on the shared state that no other call comes between. -/
theorem dispatch_alone (s : SessionState) (e : SessionEvent) :
    ((dispatch listeners s e).result, (dispatch listeners s e).after) =
      SharedCell.alone transition s e := by
  cases h : transition s e with
  | error err => rw [dispatch_error h, SharedCell.alone, h]
  | ok next =>
    obtain ⟨calls, hd⟩ := dispatch_ok listeners h
    rw [hd, SharedCell.alone, h]

theorem dispatchAll_snoc (s : SessionState) (events : List SessionEvent) (e : SessionEvent) :
    dispatchAll listeners s (events ++ [e]) =
      dispatchAll listeners s events ++ [dispatch listeners (stateAfter listeners s events) e] := by
  induction events generalizing s with
  | nil => rfl
  | cons e' events ih => exact congrArg (dispatch listeners s e' :: ·) (ih _)

theorem stateAfter_snoc (s : SessionState) (events : List SessionEvent) (e : SessionEvent) :
    stateAfter listeners s (events ++ [e]) =
      (dispatch listeners (stateAfter listeners s events) e).after :=
  List.foldl_append

/-- What every dispatch preserves holds of every history and the state it leads to. -/
theorem history_induction (P : List (Dispatched ι) → SessionState → Prop) (hs : P [] s)
    (hstep : ∀ history t e, P history t →
      P (history ++ [dispatch listeners t e]) (dispatch listeners t e).after)
    (events : List SessionEvent) :
    P (dispatchAll listeners s events) (stateAfter listeners s events) := by
  induction events using List.reverseRecOn with
  | nil => exact hs
  | append_singleton events e ih =>
    rw [dispatchAll_snoc, stateAfter_snoc]
    exact hstep _ _ _ ih

end Dispatch

section Accepted

/-- The loss of the connection, whichever way it is noticed. -/
def SessionEvent.isLoss : SessionEvent → Bool
  | .networkLost | .proxyDisconnected _ => true
  | _ => false

/-- The accepted events, each with what it makes of the state. -/
inductive Accepted : SessionState → SessionEvent → SessionState → Prop
  | fatal (s kind) :
      Accepted s (.fatalError kind) (.failed (s.mode.getD .client) kind kind.isRecoverable)
  | shutdown (s) : Accepted s .shutdown (.stopping (s.mode.getD .client) .shutdown)
  | start (mode) : Accepted .idle (.userStart mode) (.preparing mode)
  | prepared (mode) : Accepted (.preparing mode) .enginePrepared (.preparing mode)
  | ready (mode) : Accepted (.preparing mode) .engineReady (.connecting mode 1)
  | connected {s mode} (h : s.mode = some mode) (peer) :
      Accepted s (.proxyConnected peer) (.connected mode peer)
  | neverConnected {e} (mode attempt) (h : e.isLoss = true) :
      Accepted (.connecting mode attempt) e (.reconnecting mode attempt none)
  | lost {e} (mode peer) (h : e.isLoss = true) :
      Accepted (.connected mode peer) e (.reconnecting mode 1 none)
  | stop {s mode} (h : s.mode = some mode) : Accepted s .userStop (.stopping mode .userRequest)
  | stopped (mode reason) : Accepted (.stopping mode reason) .engineStopped .idle
  | acknowledged (mode error recoverable) :
      Accepted (.failed mode error recoverable) .userAcknowledge .idle

variable {s next : SessionState} {e : SessionEvent}

theorem accepted_of_transition (h : transition s e = .ok next) : Accepted s e next := by
  unfold transition at h
  split at h <;> cases h
  · exact .fatal _ _
  · exact .shutdown _
  · exact .start _
  · exact .ready _
  · exact .prepared _
  · exact .connected rfl _
  · exact .neverConnected _ _ rfl
  · exact .neverConnected _ _ rfl
  · exact .lost _ _ rfl
  · exact .lost _ _ rfl
  · exact .stop rfl
  · exact .connected rfl _
  · exact .stop rfl
  · exact .stopped _ _
  · exact .acknowledged _ _ _

theorem mode_ne_none (h : s ≠ .idle) : ∃ mode, s.mode = some mode := by
  cases s with
  | idle => exact absurd rfl h
  | _ => exact ⟨_, rfl⟩

/-- No event changes the mode of a session that it does not end. -/
theorem Accepted.mode_eq (h : Accepted s e next) (hs : s ≠ .idle) (hn : next ≠ .idle) :
    next.mode = s.mode := by
  obtain ⟨mode, hm⟩ := mode_ne_none hs
  cases h with
  | fatal | shutdown => rw [hm]; rfl
  | start => exact absurd rfl hs
  | connected h | stop h => exact h.symm
  | stopped | acknowledged => exact absurd rfl hn
  | prepared | ready | neverConnected | lost => rfl

/-- The three events that take a session out of Idle, and the mode they give it. -/
theorem Accepted.from_idle (h : Accepted .idle e next) :
    (∃ mode, e = .userStart mode ∧ next.mode = some mode) ∨
      ((∃ kind, e = .fatalError kind) ∨ e = .shutdown) ∧ next.mode = some .client := by
  cases h with
  | fatal _ kind => exact Or.inr ⟨Or.inl ⟨kind, rfl⟩, rfl⟩
  | shutdown => exact Or.inr ⟨Or.inr rfl, rfl⟩
  | start mode => exact Or.inl ⟨mode, rfl, rfl⟩
  | connected h | stop h => cases h

end Accepted

/-- The last entry of a history that meets `P`. -/
def Latest {α : Type} (P : α → Prop) (history : List α) (x : α) : Prop :=
  ∃ earlier later, history = earlier ++ x :: later ∧ P x ∧ ∀ y ∈ later, ¬P y

section Latest

variable {α : Type} {P : α → Prop} {history : List α} {x y : α}

theorem Latest.here (history : List α) (h : P x) : Latest P (history ++ [x]) x :=
  ⟨history, [], rfl, h, fun _ hy => absurd hy List.not_mem_nil⟩

theorem Latest.skip (h : Latest P history x) (hy : ¬P y) : Latest P (history ++ [y]) x := by
  obtain ⟨earlier, later, rfl, hx, hlater⟩ := h
  refine ⟨earlier, later ++ [y], by rw [List.append_assoc, List.cons_append], hx, ?_⟩
  intro z hz
  rcases List.mem_append.mp hz with hz | hz
  · exact hlater z hz
  · rwa [List.mem_singleton.mp hz]

end Latest

section Bookkeeping

variable {ι : Type}

def Dispatched.LeavesIdle (d : Dispatched ι) : Prop := d.before = .idle ∧ d.after ≠ .idle

def Dispatched.IsFatal (d : Dispatched ι) : Prop := ∃ kind, d.event = .fatalError kind

/-- A ProxyConnected that was accepted. -/
def Dispatched.Connects (d : Dispatched ι) : Prop :=
  d.result = .ok () ∧ ∃ peer, d.event = .proxyConnected peer

/-- What the state keeps of the history. -/
structure Bookkeeping (history : List (Dispatched ι)) (s : SessionState) : Prop where
  mode : s ≠ .idle → ∃ d, Latest Dispatched.LeavesIdle history d ∧
    ((∃ mode, d.event = .userStart mode ∧ s.mode = some mode) ∨
      ((∃ kind, d.event = .fatalError kind) ∨ d.event = .shutdown) ∧ s.mode = some .client)
  failed : ∀ mode error recoverable, s = .failed mode error recoverable →
    recoverable = error.isRecoverable ∧
      ∃ d, Latest Dispatched.IsFatal history d ∧ d.event = .fatalError error
  connected : ∀ mode peer, s = .connected mode peer →
    ∃ d, Latest Dispatched.Connects history d ∧ d.event = .proxyConnected peer
  rejected : ∀ d ∈ history, d.result = .error .invalidTransition → d.after = d.before ∧ d.calls = []

namespace Bookkeeping

theorem nil : Bookkeeping ([] : List (Dispatched ι)) .idle where
  mode h := absurd rfl h
  failed _ _ _ h := by cases h
  connected _ _ h := by cases h
  rejected _ h := absurd h List.not_mem_nil

variable {history : List (Dispatched ι)} {s next : SessionState} {e : SessionEvent}

theorem snoc_rejected (h : ∀ d ∈ history, d.result = .error .invalidTransition →
      d.after = d.before ∧ d.calls = []) {x : Dispatched ι}
    (hx : x.result = .error .invalidTransition → x.after = x.before ∧ x.calls = []) :
    ∀ d ∈ history ++ [x], d.result = .error .invalidTransition →
      d.after = d.before ∧ d.calls = [] := by
  intro d hd
  rcases List.mem_append.mp hd with hd | hd
  · exact h d hd
  · rwa [List.mem_singleton.mp hd]

/-- A refused event changes neither the state nor what it is compared with. -/
theorem refuse (h : Bookkeeping history s) {err : EngineError}
    (he : transition s e = .error err) :
    Bookkeeping (history ++ [⟨s, e, .error err, s, []⟩]) s where
  mode hs := by
    obtain ⟨d, hd, hmode⟩ := h.mode hs
    exact ⟨d, hd.skip fun hl => hl.2 hl.1, hmode⟩
  failed mode error recoverable hs := by
    obtain ⟨hr, d, hd, hev⟩ := h.failed mode error recoverable hs
    refine ⟨hr, d, hd.skip ?_, hev⟩
    -- a FatalError is never refused
    rintro ⟨kind, rfl⟩
    cases he
  connected mode peer hs := by
    obtain ⟨d, hd, hev⟩ := h.connected mode peer hs
    exact ⟨d, hd.skip (fun hc => by cases hc.1), hev⟩
  rejected := snoc_rejected h.rejected fun _ => ⟨rfl, rfl⟩

theorem accept (h : Bookkeeping history s) (ha : Accepted s e next)
    (calls : List (ι × SessionState)) :
    Bookkeeping (history ++ [⟨s, e, .ok (), next, calls⟩]) next where
  mode hn := by
    by_cases hs : s = .idle
    · subst hs
      exact ⟨_, Latest.here history ⟨rfl, hn⟩, ha.from_idle⟩
    · obtain ⟨d, hd, hmode⟩ := h.mode hs
      rw [ha.mode_eq hs hn]
      exact ⟨d, hd.skip fun hl => hs hl.1, hmode⟩
  failed mode error recoverable hn := by
    subst hn
    cases ha with
    | fatal => exact ⟨rfl, _, Latest.here history ⟨error, rfl⟩, rfl⟩
  connected mode peer hn := by
    subst hn
    cases ha with
    | connected => exact ⟨_, Latest.here history ⟨rfl, peer, rfl⟩, rfl⟩
  rejected := snoc_rejected h.rejected fun hr => by cases hr

theorem step (h : Bookkeeping history s) (listeners : List ι) (e : SessionEvent) :
    Bookkeeping (history ++ [dispatch listeners s e]) (dispatch listeners s e).after := by
  cases ht : transition s e with
  | error err =>
    rw [dispatch_error ht]
    exact h.refuse ht
  | ok next =>
    obtain ⟨calls, hd⟩ := dispatch_ok listeners ht
    rw [hd]
    exact h.accept (accepted_of_transition ht) calls

end Bookkeeping

end Bookkeeping

/-- Whatever is dispatched to a new session, its state keeps the books. -/
theorem session_keeps_books {ι : Type} (listeners : List ι) (events : List SessionEvent) :
    Bookkeeping (dispatchAll listeners .idle events) (stateAfter listeners .idle events) := by
  apply history_induction
  · exact Bookkeeping.nil
  · exact fun history s e h => h.step listeners e

end GravitalShare.Engine
