import GravitalShare.EngineRunner
import GravitalShare.CellThread

/-! The engine with one call and one session at a time, each dispatch in one step. This is
what the engine is for its caller as long as sessions do not overlap. -/
namespace GravitalShare.Engine

open SharedCell

namespace CallPc

/-- The call is a start that has not returned. -/
def starting : CallPc → Bool
  | .checkState _ | .forceIdle _ | .sendFalse _ | .userStart _ | .engineReady _ _ | .subscribe _
  | .spawn _ _ => true
  | _ => false

/-- The state in which a start that nothing interferes with finds the session. -/
def Expects (v : SessionState) : CallPc → Prop
  | .sendFalse _ | .userStart _ => v = .idle
  | .subscribe (.server _) | .engineReady (.server _) (some _) => v = .preparing .server
  | .engineReady (.client _ _) none => v = .preparing .client
  | .subscribe (.client _ _) => v = .connecting .client 1
  | .spawn s _ => v = .connecting s.mode 1
  -- the receiver is there before EngineReady in one mode and after it in the other
  | .engineReady (.server _) none | .engineReady (.client _ _) (some _) => False
  | _ => True

theorem event_cases {pc : CallPc} {ev : SessionEvent} (h : pc.event = some ev) :
    (∃ s, pc = .userStart s ∧ ev = .userStart s.mode) ∨
      (∃ s rx, pc = .engineReady s rx ∧ ev = .engineReady) ∨ pc = .userStop ∧ ev = .userStop := by
  cases pc with
  | userStart s =>
    cases h
    exact Or.inl ⟨s, rfl, rfl⟩
  | engineReady s rx =>
    cases h
    exact Or.inr (Or.inl ⟨s, rx, rfl, rfl⟩)
  | userStop =>
    cases h
    exact Or.inr (Or.inr ⟨rfl, rfl⟩)
  | _ => cases h

theorem event_ne {pc : CallPc} {ev : SessionEvent} (h : pc.event = some ev) :
    ev ≠ .engineStopped ∧ ev ≠ .userAcknowledge := by
  rcases event_cases h with ⟨_, _, rfl⟩ | ⟨_, _, _, rfl⟩ | ⟨_, rfl⟩ <;> exact ⟨nofun, nofun⟩

theorem starting_of_ended {pc : CallPc} (h : pc.ended = true) : pc.starting = false := by
  cases pc with
  | unused | returned _ => rfl
  | _ => cases h

theorem starting_of_resume {pc : CallPc} {result : Except EngineError Unit}
    (h : (pc.resume result).starting = true) : pc.starting = true := by
  cases pc with
  | userStart s => rfl
  | engineReady s rx => rfl
  | userStop => cases result <;> cases h
  | _ => exact h

end CallPc

/-- `UserStop` is accepted in Connected and Reconnecting and refused everywhere else. -/
theorem userStop_cases (v : SessionState) :
    (∃ mode, alone transition v .userStop = (.ok (), .stopping mode .userRequest)) ∧
      ((∃ mode peer, v = .connected mode peer) ∨
        ∃ mode attempt err, v = .reconnecting mode attempt err) ∨
      alone transition v .userStop = (.error .invalidTransition, v) ∧
        ∀ next, transition v .userStop ≠ .ok next := by
  cases v with
  | connected mode peer => exact Or.inl ⟨⟨mode, rfl⟩, Or.inl ⟨mode, peer, rfl⟩⟩
  | reconnecting mode attempt err =>
    exact Or.inl ⟨⟨mode, rfl⟩, Or.inr ⟨mode, attempt, err, rfl⟩⟩
  | _ => exact Or.inr ⟨rfl, nofun⟩

/-- How far the task of a session has got. -/
inductive Stage where
  | down
  | dialing
  | up
  | leaving
  deriving DecidableEq, Repr

namespace TaskPc

def stage : TaskPc → Stage
  | .absent | .server _ _ .finished | .client _ _ _ (.finished _) => .down
  | .server _ _ .proxyConnected | .client _ _ _ .openTun | .client _ _ _ .newStack
  | .client _ _ _ .fatalError | .client _ _ _ .proxyConnected => .dialing
  | .server _ _ (.serving _) | .client _ _ _ .select => .up
  | .server _ _ .engineStopped | .client _ _ _ (.engineStopped _) => .leaving

/-- The peer of the session's configuration. -/
def peer : TaskPc → Option PeerInfo
  | .absent => none
  | .server cfg _ _ => some ⟨cfg.socksBind⟩
  | .client _ cfg _ _ => some ⟨cfg.proxyAddr⟩

theorem alive_eq_false_iff (pc : TaskPc) : pc.alive = false ↔ pc.stage = .down := by
  rcases pc with _ | ⟨cfg, rx, pc⟩ | ⟨tunFd, cfg, rx, pc⟩
  · simp [alive, stage]
  · cases pc <;> simp [alive, stage]
  · cases pc <;> simp [alive, stage]

/-- The three kinds of event a task dispatches, by stage. -/
theorem event_cases {pc : TaskPc} {ev : SessionEvent} (h : pc.event = some ev) :
    pc.stage = .dialing ∧ ((∃ peer, ev = .proxyConnected peer ∧ pc.peer = some peer ∧
        pc.resume.stage = .up) ∨ ev = .fatalError .tunOpenFailed ∧ pc.resume.stage = .down) ∨
      pc.stage = .leaving ∧ ev = .engineStopped ∧ pc.resume.stage = .down := by
  rcases pc with _ | ⟨cfg, rx, pc⟩ | ⟨tunFd, cfg, rx, pc⟩
  · cases h
  · cases pc with
    | proxyConnected =>
      cases h
      exact Or.inl ⟨rfl, Or.inl ⟨_, rfl, rfl, rfl⟩⟩
    | engineStopped =>
      cases h
      exact Or.inr ⟨rfl, rfl, rfl⟩
    | _ => cases h
  · cases pc with
    | fatalError =>
      cases h
      exact Or.inl ⟨rfl, Or.inr ⟨rfl, rfl⟩⟩
    | proxyConnected =>
      cases h
      exact Or.inl ⟨rfl, Or.inl ⟨_, rfl, rfl, rfl⟩⟩
    | engineStopped exit =>
      cases h
      exact Or.inr ⟨rfl, rfl, rfl⟩
    | _ => cases h

theorem event_ne {pc : TaskPc} {ev : SessionEvent} (h : pc.event = some ev) :
    ev ≠ .userStop ∧ ev ≠ .userAcknowledge := by
  rcases event_cases h with ⟨_, ⟨_, rfl, _⟩ | ⟨rfl, _⟩⟩ | ⟨_, rfl, _⟩ <;> exact ⟨nofun, nofun⟩

theorem peer_resume (pc : TaskPc) : pc.resume.peer = pc.peer := by
  rcases pc with _ | ⟨cfg, rx, pc⟩ | ⟨tunFd, cfg, rx, pc⟩
  · rfl
  · cases pc <;> rfl
  · cases pc <;> rfl

end TaskPc

/-- The steps of a task by itself never go back. -/
theorem TaskStep.stage_cases {w : Watch Bool} {t t' : Task} {a : TaskAct} (h : TaskStep w t a t') :
    t'.thread = t.thread ∨
    ∃ pc pc', t.thread = .ready pc ∧ t'.thread = .ready pc' ∧ pc'.peer = pc.peer ∧
      (pc.stage = .dialing ∧ pc'.stage = .dialing ∨
        pc.stage = .up ∧ (pc'.stage = .up ∨ pc'.stage = .leaving)) := by
  cases h with
  | bound ht _ | bindFailed ht _ | changed ht _ _ =>
    exact Or.inr ⟨_, _, ht, rfl, rfl, Or.inr ⟨rfl, Or.inl rfl⟩⟩
  | joined ht _ | loopReturned ht _ | shutdownChanged ht _ =>
    exact Or.inr ⟨_, _, ht, rfl, rfl, Or.inr ⟨rfl, Or.inr rfl⟩⟩
  | tunOpened ht | tunOpenFailed ht => exact Or.inr ⟨_, _, ht, rfl, rfl, Or.inl ⟨rfl, rfl⟩⟩
  | stackNew ht =>
    refine Or.inr ⟨_, _, ht, rfl, rfl, Or.inl ⟨rfl, ?_⟩⟩
    split <;> rfl
  | _ => exact Or.inl rfl

/-- Only a task that is not down moves, and it is dialing afterwards if it was before. -/
theorem TaskStep.moves {w : Watch Bool} {t t' : Task} {a : TaskAct} {pc pc' : TaskPc}
    (h : TaskStep w t a t') (ht : t.thread = .ready pc) (ht' : t'.thread = .ready pc') :
    pc' = pc ∨ pc.stage ≠ .down ∧ (pc'.stage = .dialing ↔ pc.stage = .dialing) := by
  rcases h.stage_cases with hsame | ⟨pc₁, pc₂, h1, h2, -, hst⟩
  · exact Or.inl (Thread.ready.inj ((ht'.symm.trans hsame).trans ht))
  · obtain rfl : pc = pc₁ := Thread.ready.inj (ht.symm.trans h1)
    obtain rfl : pc' = pc₂ := Thread.ready.inj (ht'.symm.trans h2)
    right
    rcases hst with ⟨hd, hd'⟩ | ⟨hu, hu' | hl'⟩
    · rw [hd, hd']
      exact ⟨nofun, Iff.rfl⟩
    · rw [hu, hu']
      exact ⟨nofun, Iff.rfl⟩
    · rw [hu, hl']
      exact ⟨nofun, iff_of_false nofun nofun⟩

structure Solo where
  call : CallPc
  task : TaskPc
  value : SessionState
  flag : Watch Bool

inductive SoloAct where
  | request (r : Request)
  | call
  | dispatch
  | task (a : TaskAct)

inductive SoloStep (m : Solo) : SoloAct → Solo → Prop
  | request (r : Request) (h : m.call.ended = true)
      (hs : r.isStart = true → m.task.alive = false) :
      SoloStep m (.request r) { m with call := r.entry }
  | checkState {s} (h : m.call = .checkState s) :
      SoloStep m .call { m with call := if m.value = .idle then .userStart s else .forceIdle s }
  | forceIdle {s} (h : m.call = .forceIdle s) :
      SoloStep m .call { m with call := .sendFalse s, value := .idle }
  | sendFalse {s alive} (h : m.call = .sendFalse s) :
      SoloStep m .call { m with call := .userStart s, flag := m.flag.send alive false }
  | sendTrue {alive} (h : m.call = .sendTrue) :
      SoloStep m .call { m with call := .returned (.ok ()), flag := m.flag.send alive true }
  | subscribe {s} (h : m.call = .subscribe s) :
      SoloStep m .call { m with call := s.afterSubscribe m.flag.version }
  | spawn {s rx} (h : m.call = .spawn s rx) :
      SoloStep m .call { m with call := .returned (.ok ()), task := (s.task rx).thread.pc }
  | callDispatch {ev} (h : m.call.event = some ev) :
      SoloStep m .dispatch { m with
        call := m.call.resume (alone transition m.value ev).1
        value := (alone transition m.value ev).2 }
  | taskDispatch {ev} (h : m.task.event = some ev) :
      SoloStep m .dispatch { m with
        task := m.task.resume
        value := (alone transition m.value ev).2 }
  -- `run_client_loop` does not return
  | task {a t t' pc'} (h : TaskStep m.flag t a t') (ht : t.thread = .ready m.task)
      (ht' : t'.thread = .ready pc') (hp : ¬t.plane.PollReturned) :
      SoloStep m (.task a) { m with task := pc' }

namespace Solo

/-- What sessions that do not overlap keep up between the call, the task and the state. -/
structure Orderly (m : Solo) : Prop where
  starting : m.call.starting = true → m.task.alive = false
  expects : m.call.Expects m.value
  dialing : m.task.stage = .dialing → ∃ mode attempt, m.value = .connecting mode attempt
  up : m.task.stage = .up ∨ m.task.stage = .leaving →
    (∃ mode peer, m.value = .connected mode peer) ∨ ∃ mode reason, m.value = .stopping mode reason
  peer : ∀ mode peer, m.value = .connected mode peer → m.task.peer = some peer

variable {m m' : Solo} {a : SoloAct}

/-- A task that is not alive has nothing to say about the state. -/
theorem Orderly.of_down {c : CallPc} {task : TaskPc} {v : SessionState} {flag : Watch Bool}
    (hs : task.alive = false) (he : c.Expects v)
    (hv : ∀ mode peer, v ≠ .connected mode peer) : Orderly ⟨c, task, v, flag⟩ := by
  have hdown := (TaskPc.alive_eq_false_iff _).mp hs
  refine ⟨fun _ => hs, he, ?_, ?_, fun mode peer hv' => absurd hv' (hv mode peer)⟩
  · intro hd
    cases hdown.symm.trans hd
  · rintro (hu | hl)
    · cases hdown.symm.trans hu
    · cases hdown.symm.trans hl

/-- The call and the task are never both about to change the state. -/
theorem Orderly.exclusive (h : m.Orderly) {ev ev' : SessionEvent} {next next' : SessionState}
    (hc : m.call.event = some ev) (hn : transition m.value ev = .ok next)
    (ht : m.task.event = some ev') : transition m.value ev' ≠ .ok next' := by
  intro hn'
  -- an event of the task needs a task that is alive
  have hstage : m.task.stage ≠ .down := by
    intro hd
    rcases TaskPc.event_cases ht with ⟨hs, -⟩ | ⟨hs, -⟩ <;>
      exact Stage.noConfusion (hs.symm.trans hd)
  have hnot (hs : m.call.starting = true) : False :=
    hstage ((TaskPc.alive_eq_false_iff _).mp (h.starting hs))
  rcases CallPc.event_cases hc with ⟨s, hs, -⟩ | ⟨s, rx, hs, -⟩ | ⟨-, rfl⟩
  · exact hnot (by rw [hs]; rfl)
  · exact hnot (by rw [hs]; rfl)
  · rcases TaskPc.event_cases ht with ⟨hs, -⟩ | ⟨hs, rfl, -⟩
    · obtain ⟨mode, attempt, hv⟩ := h.dialing hs
      rw [hv] at hn
      cases hn
    · rcases h.up (Or.inr hs) with ⟨mode, peer, hv⟩ | ⟨mode, reason, hv⟩
      · rw [hv] at hn'
        cases hn'
      · rw [hv] at hn
        cases hn

/-- A step of the call alone. -/
theorem Orderly.setCall (h : m.Orderly) {c : CallPc} {flag : Watch Bool}
    (hs : c.starting = true → m.task.alive = false) (he : c.Expects m.value) :
    Orderly ⟨c, m.task, m.value, flag⟩ where
  starting := hs
  expects := he
  dialing := h.dialing
  up := h.up
  peer := h.peer

theorem Orderly.callDispatch (h : m.Orderly) {ev : SessionEvent} (hev : m.call.event = some ev) :
    Orderly { m with
      call := m.call.resume (alone transition m.value ev).1
      value := (alone transition m.value ev).2 } := by
  have hexp := h.expects
  rcases CallPc.event_cases hev with ⟨s, hs, rfl⟩ | ⟨s, rx, hs, rfl⟩ | ⟨hs, rfl⟩
  · have hdown := h.starting (by rw [hs]; rfl)
    rw [hs] at hexp
    rw [hs, show m.value = .idle from hexp]
    apply Orderly.of_down hdown
    · cases s <;> exact rfl
    · exact nofun
  · have hdown := h.starting (by rw [hs]; rfl)
    rw [hs] at hexp
    rw [hs]
    apply Orderly.of_down hdown
    · cases s <;> cases rx
      · exact hexp.elim
      · rw [show m.value = _ from hexp]
        exact rfl
      · rw [show m.value = _ from hexp]
        exact rfl
      · exact hexp.elim
    · cases s <;> cases rx
      · exact hexp.elim
      · rw [show m.value = _ from hexp]
        exact nofun
      · rw [show m.value = _ from hexp]
        exact nofun
      · exact hexp.elim
  · rw [hs]
    rcases userStop_cases m.value with ⟨⟨mode, halone⟩, hfrom⟩ | ⟨halone, -⟩
    · rw [halone]
      refine ⟨fun hs => Bool.noConfusion hs, trivial, ?_, fun _ => Or.inr ⟨mode, _, rfl⟩, nofun⟩
      -- a task that is still dialing has left the session in Connecting
      intro hd
      obtain ⟨mode', attempt, hv⟩ := h.dialing hd
      rcases hfrom with ⟨_, _, hv'⟩ | ⟨_, _, _, hv'⟩ <;> cases hv.symm.trans hv'
    · rw [halone]
      exact h.setCall (fun hs => Bool.noConfusion hs) trivial

theorem Orderly.taskDispatch (h : m.Orderly) {ev : SessionEvent} (hev : m.task.event = some ev) :
    Orderly { m with
      task := m.task.resume
      value := (alone transition m.value ev).2 } := by
  have hnot : m.call.starting = false := by
    by_contra hs
    have hdown := (TaskPc.alive_eq_false_iff _).mp (h.starting (Bool.eq_true_of_not_eq_false hs))
    rcases TaskPc.event_cases hev with ⟨hd, -⟩ | ⟨hl, -⟩
    · exact Stage.noConfusion (hdown.symm.trans hd)
    · exact Stage.noConfusion (hdown.symm.trans hl)
  have hexp (v : SessionState) : m.call.Expects v := by
    cases hc : m.call <;> first | trivial | (rw [hc] at hnot; cases hnot)
  have hstart {p : Prop} (hs : m.call.starting = true) : p := by
    rw [hnot] at hs
    cases hs
  rcases TaskPc.event_cases hev with ⟨hd, ⟨peer, rfl, hpeer, hup⟩ | ⟨rfl, hdown⟩⟩ | ⟨hl, rfl, hdown⟩
  · obtain ⟨mode, attempt, hv⟩ := h.dialing hd
    rw [hv]
    refine ⟨hstart, hexp _, ?_, fun _ => Or.inl ⟨mode, peer, rfl⟩, ?_⟩
    · intro hd'
      cases hup.symm.trans hd'
    · intro mode' peer' hv'
      cases hv'
      exact (TaskPc.peer_resume _).trans hpeer
  · exact Orderly.of_down ((TaskPc.alive_eq_false_iff _).mpr hdown) (hexp _) nofun
  · have hdead := (TaskPc.alive_eq_false_iff _).mpr hdown
    rcases h.up (Or.inr hl) with ⟨mode, peer, hv⟩ | ⟨mode, reason, hv⟩
    · -- refused, and the session stays Connected
      rw [hv]
      refine ⟨fun _ => hdead, hexp _, ?_, fun _ => Or.inl ⟨mode, peer, rfl⟩, ?_⟩
      · intro hd'
        cases hdown.symm.trans hd'
      · intro mode' peer' hv'
        cases hv'
        exact (TaskPc.peer_resume _).trans (h.peer mode peer hv)
    · rw [hv]
      exact Orderly.of_down hdead (hexp _) nofun

end Solo

theorem SoloStep.orderly {m m' : Solo} {a : SoloAct} (h : SoloStep m a m') (ho : m.Orderly) :
    m'.Orderly := by
  have hexp := ho.expects
  cases h with
  | request r _ hs =>
    rcases r with (cfg | ⟨tunFd, cfg⟩) | _ | _
    · exact ho.setCall (fun _ => hs rfl) trivial
    · apply ho.setCall
      · intro _
        exact hs rfl
      · simp only [Request.entry]
        split <;> trivial
    · exact ho.setCall (fun hs => Bool.noConfusion hs) trivial
    · exact ho.setCall (fun hs => Bool.noConfusion hs) trivial
  | checkState hc =>
    have hdown := ho.starting (by rw [hc]; rfl)
    apply ho.setCall (fun _ => hdown)
    split
    · assumption
    · trivial
  | forceIdle hc =>
    exact Solo.Orderly.of_down (ho.starting (by rw [hc]; rfl)) rfl nofun
  | sendFalse hc =>
    rw [hc] at hexp
    exact ho.setCall (fun _ => ho.starting (by rw [hc]; rfl)) hexp
  | sendTrue hc => exact ho.setCall (fun hs => Bool.noConfusion hs) trivial
  | @subscribe s hc =>
    rw [hc] at hexp
    have hdown := ho.starting (by rw [hc]; rfl)
    cases s with
    | server cfg => exact ho.setCall (fun _ => hdown) hexp
    | client tunFd cfg => exact ho.setCall (fun _ => hdown) hexp
  | @spawn s rx hc =>
    rw [hc] at hexp
    have hv : m.value = .connecting s.mode 1 := hexp
    rw [hv]
    cases s with
    | server cfg => exact ⟨nofun, trivial, fun _ => ⟨_, _, rfl⟩, nofun, nofun⟩
    | client tunFd cfg => exact ⟨nofun, trivial, fun _ => ⟨_, _, rfl⟩, nofun, nofun⟩
  | callDispatch hev => exact ho.callDispatch hev
  | taskDispatch hev => exact ho.taskDispatch hev
  | @task a t t' pc' ht hpc hpc' hp =>
    rcases ht.stage_cases with hsame | ⟨pc, pc'', h1, h2, hpeer, hst⟩
    · obtain rfl : pc' = m.task := by
        rw [hpc', hpc] at hsame
        exact Thread.ready.inj hsame
      exact ho
    · obtain rfl : m.task = pc := Thread.ready.inj (hpc.symm.trans h1)
      obtain rfl : pc' = pc'' := Thread.ready.inj (hpc'.symm.trans h2)
      have halive (hs : m.call.starting = true) : m.task.stage = .down :=
        (TaskPc.alive_eq_false_iff _).mp (ho.starting hs)
      refine ⟨?_, ho.expects, ?_, ?_, ?_⟩
      · intro hs
        rcases hst with ⟨hd, -⟩ | ⟨hu, -⟩
        · cases (halive hs).symm.trans hd
        · cases (halive hs).symm.trans hu
      · intro hd
        rcases hst with ⟨hd', -⟩ | ⟨-, hu | hl⟩
        · exact ho.dialing hd'
        · cases hu.symm.trans hd
        · cases hl.symm.trans hd
      · intro hu
        rcases hst with ⟨-, hd⟩ | ⟨hu', -⟩
        · rcases hu with hu | hu <;> cases hd.symm.trans hu
        · exact ho.up (Or.inl hu')
      · intro mode peer hv
        rw [hpeer]
        exact ho.peer mode peer hv

end GravitalShare.Engine
