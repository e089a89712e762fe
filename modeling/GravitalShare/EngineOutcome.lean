import GravitalShare.EngineIsolation

/-! What the state says of a session whose task is over. -/
namespace GravitalShare.Engine

open SharedCell

/-- A receiver of the shutdown flag that this task still waits on has seen version `seen`. -/
def TaskPc.Receives (seen : ℕ) : TaskPc → Prop
  | .server _ rx .proxyConnected | .client _ _ rx .openTun | .client _ _ rx .newStack
  | .client _ _ rx .fatalError | .client _ _ rx .proxyConnected | .client _ _ rx .select =>
    rx = seen
  | .server _ _ (.serving runs) => ∃ p, runs p = .bind seen ∨ runs p = .accept seen
  | _ => False

namespace Solo

def Stopping (m : Solo) : Prop := ∃ mode reason, m.value = .stopping mode reason

/-- `shutdown` is not called on a session that is up, and its two servers do not both fail to
bind: tasks end by `stop`. -/
def EndsByStop (m : Solo) : SoloAct → Prop
  | .request .shutdown => m.task.alive = false ∨ m.Stopping
  | .task (.bindFailed p) => ∀ cfg rx runs, m.task = .server cfg rx (.serving runs) →
      (∃ p', p' ≠ p ∧ runs p' ≠ .ended) ∨ m.Stopping
  | _ => True

/-- The task is told to end only by a `stop` that the session has accepted. -/
structure Honest (m : Solo) : Prop where
  down : m.task.stage = .down → m.call.starting = false →
    m.value = .idle ∨ ∃ mode err recoverable, m.value = .failed mode err recoverable
  leaving : m.task.stage = .leaving → m.Stopping
  told : m.task.stage = .dialing ∨ m.task.stage = .up → m.Stopping ∨
    m.call ≠ .sendTrue ∧ ∀ seen, m.task.Receives seen → seen = m.flag.version
  ended : ∀ cfg rx runs, m.task = .server cfg rx (.serving runs) → (∀ p, runs p = .ended) →
    m.Stopping
  receiver : ∀ s rx, m.call = .engineReady s (some rx) ∨ m.call = .spawn s rx →
    rx = m.flag.version

variable {m m' : Solo} {a : SoloAct}

/-- Nothing is said of a task that is over, except by the state. -/
theorem Honest.of_down {c : CallPc} {task : TaskPc} {v : SessionState} {flag : Watch Bool}
    (hdown : task.stage = .down)
    (hv : c.starting = false →
      v = .idle ∨ ∃ mode err recoverable, v = .failed mode err recoverable)
    (hr : ∀ s rx, c = .engineReady s (some rx) ∨ c = .spawn s rx → rx = flag.version) :
    Honest ⟨c, task, v, flag⟩ := by
  refine ⟨fun _ => hv, ?_, ?_, ?_, hr⟩
  · intro hl
    cases hdown.symm.trans hl
  · rintro (hd | hu)
    · cases hdown.symm.trans hd
    · cases hdown.symm.trans hu
  · rintro cfg rx runs rfl
    cases hdown

theorem Honest.of_starting {c : CallPc} {task : TaskPc} {v : SessionState} {flag : Watch Bool}
    (hd : task.alive = false) (hs : c.starting = true)
    (hr : ∀ s rx, c = .engineReady s (some rx) ∨ c = .spawn s rx → rx = flag.version) :
    Honest ⟨c, task, v, flag⟩ := by
  apply Honest.of_down ((TaskPc.alive_eq_false_iff _).mp hd) _ hr
  intro hn
  cases hs.symm.trans hn

/-- Once the session is stopping, its task may go wherever it likes but down. -/
theorem Honest.of_stopping {c : CallPc} {task : TaskPc} {v : SessionState} {flag : Watch Bool}
    (hv : ∃ mode reason, v = .stopping mode reason) (hd : task.alive = true)
    (hc : c.starting = false) : Honest ⟨c, task, v, flag⟩ := by
  refine ⟨?_, fun _ => hv, fun _ => Or.inl hv, fun _ _ _ _ _ => hv, ?_⟩
  · intro hdown _
    cases ((TaskPc.alive_eq_false_iff _).mpr hdown).symm.trans hd
  · rintro s rx (rfl | rfl)
    · cases hc
    · cases hc

theorem Honest.callDispatch (h : m.Honest) (ho : m.Orderly) {ev : SessionEvent}
    (hev : m.call.event = some ev) :
    Honest { m with
      call := m.call.resume (alone transition m.value ev).1
      value := (alone transition m.value ev).2 } := by
  have hexp := ho.expects
  have hrx := h.receiver
  rcases CallPc.event_cases hev with ⟨s, hs, rfl⟩ | ⟨s, rx, hs, rfl⟩ | ⟨hs, rfl⟩
  · have hdead := ho.starting (by rw [hs]; rfl)
    rw [hs] at hexp
    rw [hs, show m.value = .idle from hexp]
    cases s with
    | server cfg => exact Honest.of_starting hdead rfl (by rintro _ _ (h | h) <;> cases h)
    | client tunFd cfg => exact Honest.of_starting hdead rfl (by rintro _ _ (h | h) <;> cases h)
  · have hdead := ho.starting (by rw [hs]; rfl)
    rw [hs] at hexp hrx
    rw [hs]
    cases s with
    | server cfg =>
      cases rx with
      | none => exact hexp.elim
      | some rx =>
        rw [show m.value = _ from hexp]
        refine Honest.of_starting hdead rfl ?_
        rintro s rx' (h | h)
        · cases h
        · cases h
          exact hrx _ _ (Or.inl rfl)
    | client tunFd cfg =>
      cases rx with
      | none =>
        rw [show m.value = _ from hexp]
        exact Honest.of_starting hdead rfl (by rintro _ _ (h | h) <;> cases h)
      | some rx => exact hexp.elim
  · have hnot : m.call.starting = false := by rw [hs]; rfl
    rw [hs]
    rcases userStop_cases m.value with ⟨⟨mode, halone⟩, hfrom⟩ | ⟨halone, -⟩
    · rw [halone]
      refine Honest.of_stopping ⟨mode, _, rfl⟩ ?_ rfl
      -- a session without a task is not in a state that accepts UserStop
      by_contra hn
      have hdown := (TaskPc.alive_eq_false_iff _).mp (Bool.eq_false_of_not_eq_true hn)
      rcases h.down hdown hnot with hv | ⟨_, _, _, hv⟩ <;>
        rcases hfrom with ⟨_, _, hv'⟩ | ⟨_, _, _, hv'⟩ <;> cases hv.symm.trans hv'
    · rw [halone]
      refine ⟨fun hd _ => h.down hd hnot, h.leaving, ?_, h.ended, by rintro _ _ (h | h) <;> cases h⟩
      intro hst
      rcases h.told hst with hstop | ⟨-, hcalm⟩
      · exact Or.inl hstop
      · exact Or.inr ⟨CallPc.noConfusion, hcalm⟩

/-- A session that connects waits on the receivers it had, and no loop of it has ended. -/
theorem receives_of_resume {pc : TaskPc} (hd : pc.stage = .dialing) (hup : pc.resume.stage = .up) :
    (∀ seen, pc.resume.Receives seen → pc.Receives seen) ∧
      ∀ cfg rx runs, pc.resume = .server cfg rx (.serving runs) → ¬∀ p, runs p = .ended := by
  rcases pc with _ | ⟨cfg, rx, pc⟩ | ⟨tunFd, cfg, rx, pc⟩
  · cases hd
  · cases pc with
    | proxyConnected =>
      refine ⟨?_, ?_⟩
      · rintro seen ⟨p, hp | hp⟩
        · exact RunPc.bind.inj hp
        · cases hp
      · intro cfg' rx' runs hr hall
        cases hr
        cases hall .socks
    | _ => cases hd
  · cases pc with
    | proxyConnected => exact ⟨fun _ h => h, nofun⟩
    | select => cases hd
    | _ => cases hup

theorem Honest.taskDispatch (h : m.Honest) (ho : m.Orderly) {ev : SessionEvent}
    (hev : m.task.event = some ev) :
    Honest { m with
      task := m.task.resume
      value := (alone transition m.value ev).2 } := by
  rcases TaskPc.event_cases hev with ⟨hd, ⟨peer, rfl, -, hup⟩ | ⟨rfl, hdown⟩⟩ | ⟨hl, rfl, hdown⟩
  · obtain ⟨mode, attempt, hv⟩ := ho.dialing hd
    obtain ⟨hrx, hruns⟩ := receives_of_resume hd hup
    rw [hv]
    refine ⟨?_, ?_, ?_, ?_, h.receiver⟩
    · intro hdown
      cases hup.symm.trans hdown
    · intro hl
      cases hup.symm.trans hl
    · intro _
      rcases h.told (Or.inl hd) with ⟨_, _, hstop⟩ | ⟨hcall, hcalm⟩
      · cases hv.symm.trans hstop
      · exact Or.inr ⟨hcall, fun seen hs => hcalm seen (hrx seen hs)⟩
    · intro cfg rx runs hr hall
      exact absurd hall (hruns cfg rx runs hr)
  · exact Honest.of_down hdown (fun _ => Or.inr ⟨_, _, _, rfl⟩) h.receiver
  · obtain ⟨mode, reason, hv⟩ := h.leaving hl
    rw [hv]
    exact Honest.of_down hdown (fun _ => Or.inl rfl) h.receiver

/-- The task goes on without leaving its loops. -/
theorem Honest.move (h : m.Honest) {pc : TaskPc}
    (hst : m.task.stage = .dialing ∨ m.task.stage = .up)
    (hst' : pc.stage = .dialing ∨ pc.stage = .up)
    (hrx : ∀ seen, pc.Receives seen → m.task.Receives seen)
    (hend : ∀ cfg rx runs, pc = .server cfg rx (.serving runs) → (∀ p, runs p = .ended) →
      m.Stopping) : Honest { m with task := pc } := by
  refine ⟨?_, ?_, ?_, hend, h.receiver⟩
  · intro hdown
    rcases hst' with hs | hs <;> cases hs.symm.trans hdown
  · intro hl
    rcases hst' with hs | hs <;> cases hs.symm.trans hl
  · intro _
    rcases h.told hst with hstop | ⟨hcall, hcalm⟩
    · exact Or.inl hstop
    · exact Or.inr ⟨hcall, fun seen hs => hcalm seen (hrx seen hs)⟩

theorem Honest.dial (h : m.Honest) {pc : TaskPc} (hst : m.task.stage = .dialing)
    (hst' : pc.stage = .dialing) (hrx : ∀ seen, pc.Receives seen → m.task.Receives seen) :
    Honest { m with task := pc } := by
  apply h.move (Or.inl hst) (Or.inl hst') hrx
  intro cfg rx runs hr
  rw [hr] at hst'
  cases hst'

/-- A receiver that finds a newer version has been told by an accepted `stop`. -/
theorem Honest.stopping_of_newer (h : m.Honest) {seen : ℕ}
    (hst : m.task.stage = .dialing ∨ m.task.stage = .up) (hr : m.task.Receives seen)
    (hv : seen < m.flag.version) : m.Stopping := by
  rcases h.told hst with hstop | ⟨-, hcalm⟩
  · exact hstop
  · exact absurd (hcalm seen hr) hv.ne

theorem Honest.task (h : m.Honest) (ho : m.Orderly) {a : TaskAct} {t t' : Task} {pc' : TaskPc}
    (hc : m.EndsByStop (.task a)) (hstep : TaskStep m.flag t a t') (hpc : t.thread = .ready m.task)
    (hpc' : t'.thread = .ready pc') (hp : ¬t.plane.PollReturned) :
    Honest { m with task := pc' } := by
  have hcall (hs : m.task.alive = true) : m.call.starting = false := by
    by_contra hn
    cases (ho.starting (Bool.eq_true_of_not_eq_false hn)).symm.trans hs
  have hsame (hs : t'.thread = t.thread) : Honest { m with task := pc' } := by
    cases (hpc'.symm.trans hs).trans hpc
    exact h
  have htask {pc : TaskPc} (ht : t.thread = .ready pc) : m.task = pc :=
    Thread.ready.inj (hpc.symm.trans ht)
  cases hstep with
  | @bound cfg rx runs p seen ht hb =>
    cases hpc'
    have hm := htask ht
    apply h.move (by rw [hm]; exact Or.inr rfl) (Or.inr rfl)
    · intro seen' hs
      rw [hm]
      rcases waiting_of_update hs with (hr | hr) | hr
      · cases hr
      · cases hr
        exact ⟨p, Or.inl hb⟩
      · exact hr
    · intro cfg' rx' runs' hr hall
      cases hr
      have hp := hall p
      rw [Function.update_self] at hp
      cases hp
  | @bindFailed cfg rx runs p seen ht hb =>
    cases hpc'
    have hm := htask ht
    apply h.move (by rw [hm]; exact Or.inr rfl) (Or.inr rfl)
    · intro seen' hs
      rw [hm]
      rcases waiting_of_update hs with (hr | hr) | hr
      · cases hr
      · cases hr
      · exact hr
    · -- the other server has not failed, or the session is stopping anyway
      intro cfg' rx' runs' hr hall
      cases hr
      rcases hc cfg rx runs hm with ⟨p', hne, hrun⟩ | hstop
      · have hp' := hall p'
        rw [Function.update_of_ne hne] at hp'
        exact absurd hp' hrun
      · exact hstop
  | @changed cfg rx runs p seen ht hb hv =>
    cases hpc'
    have hm := htask ht
    have hstop := h.stopping_of_newer (by rw [hm]; exact Or.inr rfl)
      (by rw [hm]; exact ⟨p, Or.inr hb⟩) hv
    exact Honest.of_stopping hstop rfl (hcall (by rw [hm]; rfl))
  | @joined cfg rx runs ht hall =>
    cases hpc'
    have hm := htask ht
    exact Honest.of_stopping (h.ended cfg rx runs hm hall) rfl (hcall (by rw [hm]; rfl))
  | tunOpened ht | tunOpenFailed ht =>
    cases hpc'
    have hm := htask ht
    apply h.dial (by rw [hm]; rfl) rfl
    rw [hm]
    exact fun _ hs => hs
  | @stackNew tunFd cfg rx ht =>
    cases hpc'
    have hm := htask ht
    split
    · apply h.dial (by rw [hm]; rfl) rfl
      rw [hm]
      exact fun _ hs => hs
    · apply h.dial (by rw [hm]; rfl) rfl
      rw [hm]
      exact fun _ hs => hs
  | loopReturned _ hs =>
    rw [hs] at hp
    exact absurd rfl hp
  | @shutdownChanged tunFd cfg rx ht hv =>
    cases hpc'
    have hm := htask ht
    have hstop := h.stopping_of_newer (by rw [hm]; exact Or.inr rfl) (by rw [hm]; exact rfl) hv
    exact Honest.of_stopping hstop rfl (hcall (by rw [hm]; rfl))
  | _ => exact hsame rfl

end Solo

/-- The file descriptor passes the check of `start_client`. -/
def Start.Valid : Start → Prop
  | .server _ => True
  | .client tunFd _ => 0 ≤ tunFd

theorem Start.entry_cases (s : Start) :
    s.Valid ∧ (Request.start s).entry = .checkState s ∨
      ¬s.Valid ∧ (Request.start s).entry = .returned (.error .invalidFd) := by
  cases s with
  | server cfg => exact Or.inl ⟨trivial, rfl⟩
  | client tunFd cfg =>
    by_cases hfd : tunFd < 0
    · exact Or.inr ⟨Int.not_le.mpr hfd, if_pos hfd⟩
    · exact Or.inl ⟨Int.not_lt.mp hfd, if_neg hfd⟩

theorem Request.entry_cases (r : Request) :
    r = .shutdown ∧ r.entry = .sendTrue ∨ r.entry = .userStop ∨ (∃ s, r.entry = .checkState s) ∨
      ∃ err, r.entry = .returned (.error err) := by
  rcases r with s | _ | _
  · rcases s.entry_cases with ⟨-, h⟩ | ⟨-, h⟩
    · exact Or.inr (Or.inr (Or.inl ⟨s, h⟩))
    · exact Or.inr (Or.inr (Or.inr ⟨_, h⟩))
  · exact Or.inr (Or.inl rfl)
  · exact Or.inl ⟨rfl, rfl⟩

theorem Solo.Honest.request {m : Solo} (h : m.Honest) (r : Request) (hover : m.call.ended = true)
    (hc : m.EndsByStop (.request r)) : Honest { m with call := r.entry } := by
  have hidle : m.call.starting = false := by
    cases hcall : m.call with
    | unused | returned _ => rfl
    | _ =>
      rw [hcall] at hover
      cases hover
  refine ⟨fun hd _ => h.down hd hidle, h.leaving, ?_, h.ended, ?_⟩
  · intro hst
    by_cases hnot : m.Stopping
    · exact Or.inl hnot
    · have hcalm := ((h.told hst).resolve_left hnot).2
      refine Or.inr ⟨?_, hcalm⟩
      rintro (hr : r.entry = .sendTrue)
      rcases r.entry_cases with ⟨rfl, -⟩ | he | ⟨s, he⟩ | ⟨err, he⟩
      · rcases hc with hd | hstop
        · have hdown := (TaskPc.alive_eq_false_iff _).mp hd
          rcases hst with hs | hs <;> cases hdown.symm.trans hs
        · exact hnot hstop
      · cases hr.symm.trans he
      · cases hr.symm.trans he
      · cases hr.symm.trans he
  · intro s rx hr
    rcases r.entry_cases with ⟨-, he⟩ | he | ⟨s, he⟩ | ⟨err, he⟩ <;>
      rcases hr with hr | hr <;> cases he.symm.trans hr

/-- Each step keeps the state honest if it does not end a session behind its back. -/
theorem SoloStep.honest {m m' : Solo} {a : SoloAct} (h : SoloStep m a m') (hc : m.EndsByStop a)
    (ho : m.Orderly) (hh : m.Honest) : m'.Honest := by
  have hdead {c : CallPc} (hcall : m.call = c) (hs : c.starting = true) : m.task.alive = false :=
    ho.starting (by rw [hcall]; exact hs)
  cases h with
  | request r hover _ => exact hh.request r hover hc
  | checkState hcall =>
    apply Solo.Honest.of_starting (hdead hcall rfl)
    · split <;> rfl
    · split <;> rintro _ _ (hr | hr) <;> cases hr
  | forceIdle hcall | sendFalse hcall =>
    exact Solo.Honest.of_starting (hdead hcall rfl) rfl (by rintro _ _ (hr | hr) <;> cases hr)
  | sendTrue hcall =>
    -- the flag is set under a session that is stopping, or under none
    refine ⟨fun hd _ => hh.down hd (by rw [hcall]; rfl), hh.leaving, ?_, hh.ended,
      by rintro _ _ (hr | hr) <;> cases hr⟩
    intro hst
    rcases hh.told hst with hstop | ⟨hcalm, -⟩
    · exact Or.inl hstop
    · exact absurd hcall hcalm
  | @subscribe s hcall =>
    cases s with
    | server cfg =>
      apply Solo.Honest.of_starting (hdead hcall rfl) rfl
      rintro _ _ (hr | hr)
      · cases hr
        rfl
      · cases hr
    | client tunFd cfg =>
      apply Solo.Honest.of_starting (hdead hcall rfl) rfl
      rintro _ _ (hr | hr)
      · cases hr
      · cases hr
        rfl
  | @spawn s rx hcall =>
    have hrx := hh.receiver s rx (Or.inr hcall)
    have hdialing : (s.task rx).thread.pc.stage = .dialing := by cases s <;> rfl
    refine ⟨?_, ?_, ?_, ?_, by rintro _ _ (hr | hr) <;> cases hr⟩
    · intro hs
      cases hdialing.symm.trans hs
    · intro hs
      cases hdialing.symm.trans hs
    · intro _
      refine Or.inr ⟨CallPc.noConfusion, ?_⟩
      intro seen hs
      rw [← hrx]
      cases s <;> exact hs.symm
    · intro cfg rx' runs hr
      cases s <;> cases hr
  | callDispatch hev => exact hh.callDispatch ho hev
  | taskDispatch hev => exact hh.taskDispatch ho hev
  | task hstep hpc hpc' hp => exact hh.task ho hc hstep hpc hpc' hp

/-- Until the session is stopping, `shutdown` is called only when no task is left, and at most
one of its two servers fails to bind. -/
def EndsByStop (e : World) : EngineAct → Prop
  | .request _ .shutdown => (∀ k, (e.tasks k).thread.pc.alive = false) ∨
      ∃ mode reason, e.session.value = .stopping mode reason
  | .task k (.bindFailed p) => ∀ cfg rx runs,
      (e.tasks k).thread = .ready (.server cfg rx (.serving runs)) →
      (∃ p', p' ≠ p ∧ runs p' ≠ .ended) ∨ ∃ mode reason, e.session.value = .stopping mode reason
  | _ => True

section Runs

variable {tr : List (World × EngineAct)} {e e' : World} {a : EngineAct} {i k : ℕ}

theorem Shadow.endsByStop (hs : Shadow e i k) (h : EngineStep e a e') (hc : EndsByStop e a) :
    (e.solo i k).EndsByStop a.solo := by
  cases h with
  | @request i' r _ =>
    cases r with
    | shutdown =>
      rcases hc with hdead | hstop
      · obtain ⟨pc, hpc, hd⟩ := hs.task_ready (hdead k)
        left
        rw [World.solo_task hpc]
        exact hd
      · exact Or.inr hstop
    | _ => trivial
  | @task k' a t' ht =>
    cases ht with
    | @bindFailed cfg rx runs p seen hpc hp =>
      obtain rfl : k' = k := hs.alone.task_eq hpc fun _ hr => by cases hr; rfl
      intro cfg' rx' runs' hm
      rw [World.solo_task hpc] at hm
      cases hm
      exact hc cfg rx runs hpc
    | _ => trivial
  | _ => trivial

/-- A start that is inside `dispatch` has been one before. -/
theorem World.starting_of_solo (h : (e.solo i k).call.starting = true) :
    (e.calls i).pc.starting = true := by
  have hslot : (e.solo i k).call = ((e.calls i).slot e.session).effective CallPc.resume := rfl
  rw [hslot] at h
  cases hc : e.calls i with
  | ready pc =>
    rw [hc] at h
    exact h
  | calling pc j =>
    rw [hc, Thread.slot] at h
    rcases Slot.effective_calling CallPc.resume pc (e.session.calls j) with hr | ⟨_, hr⟩
    · rw [hr] at h
      exact h
    · rw [hr] at h
      exact CallPc.starting_of_resume h

/-- While sessions do not overlap and tasks end by `stop`, a session whose task is over is
Idle, Stopping or Failed until the next one is started. -/
theorem dead_session_not_up (h : Run EngineStep World.new tr e)
    (hone : ∀ q ∈ tr, OneAtATime q.1 q.2) (hends : ∀ q ∈ tr, EndsByStop q.1 q.2)
    (hdead : ∀ k, (e.tasks k).thread.pc.alive = false)
    (hcalls : ∀ i, (e.calls i).pc.starting = false) :
    e.session.value = .idle ∨ (∃ mode reason, e.session.value = .stopping mode reason) ∨
      ∃ mode err recoverable, e.session.value = .failed mode err recoverable := by
  have hnew : (World.new.solo 0 0).Honest :=
    Solo.Honest.of_down rfl (fun _ => Or.inl rfl) (by rintro _ _ (hr | hr) <;> cases hr)
  obtain ⟨i, k, hs, -, hh⟩ := solo_of_run h hone hends hnew
    fun e a e' i k m hstep hs hc hh hsolo => hsolo.honest (hs.endsByStop hstep hc) hs.orderly hh
  obtain ⟨pc, hpc, hd⟩ := hs.task_ready (hdead k)
  have hdown : (e.solo i k).task.stage = .down := by
    rw [World.solo_task hpc]
    exact (TaskPc.alive_eq_false_iff pc).mp hd
  have hnot : (e.solo i k).call.starting = false := by
    by_contra hn
    have hstart := World.starting_of_solo (Bool.eq_true_of_not_eq_false hn)
    cases (hcalls i).symm.trans hstart
  rcases hh.down hdown hnot with hv | hv
  · exact Or.inl hv
  · exact Or.inr (Or.inr hv)

end Runs

theorem Routine.endsByStop {e : World} {a : EngineAct} (h : Routine e a) : EndsByStop e a := by
  cases a with
  | request i r =>
    cases r with
    | shutdown => exact absurd rfl h.2.2
    | _ => trivial
  | task k a =>
    cases a with
    | bindFailed p => exact h.elim
    | _ => trivial
  | _ => trivial

theorem stopped_server_not_up : ∃ tr e, Run EngineStep World.new tr e ∧
    (e.tasks 0).thread = .ready (.server exampleServer 0 .finished) ∧
    (e.session.value = .idle ∨ (∃ mode reason, e.session.value = .stopping mode reason) ∨
      ∃ mode err recoverable, e.session.value = .failed mode err recoverable) := by
  obtain ⟨tr, e, hrun, -, -, hover, -, htask, -, hdead⟩ := server_finished
  obtain ⟨hrun, hroutine⟩ := hrun.guarded
  have hcalls : ∀ i, (e.calls i).pc.starting = false := by
    intro i
    obtain ⟨pc, hpc, hended⟩ := hover i
    rw [hpc]
    exact CallPc.starting_of_ended hended
  exact ⟨tr, e, hrun, htask, dead_session_not_up hrun (fun q hq => (hroutine q hq).oneAtATime)
    (fun q hq => (hroutine q hq).endsByStop) hdead hcalls⟩

/-- Both binds fail after the session has been reported as Connected: the task ends, its
EngineStopped is refused, and the state stays Connected. -/
theorem dead_server_connected : ∃ tr e, Run EngineStep World.new tr e ∧
    (∀ q ∈ tr, OneAtATime q.1 q.2) ∧ e.calls 0 = .ready (.returned (.ok ())) ∧
    (∀ k, (e.tasks k).thread.pc.alive = false) ∧
    (e.tasks 0).thread = .ready (.server exampleServer 0 .finished) ∧
    e.session.value = .connected .server ⟨exampleServer.socksBind⟩ := by
  obtain ⟨_, e, h1, hvalue, hcalls, hflag, hdone, hunused, htask, hnone⟩ := server_connected
  have h2 : Run (fun e a e' => EngineStep e a e' ∧ OneAtATime e a) World.new _ e :=
    h1.mono fun _ _ _ hs => ⟨hs.1, hs.2.oneAtATime⟩
  obtain ⟨⟨value, calls, written, delivered⟩, shutdown, calls', tasks⟩ := e
  subst hvalue
  have h3 := ((h2.snoc ⟨.task (k := 0) (.bindFailed (p := .socks) (congrArg Task.thread htask) rfl),
    trivial⟩).snoc ⟨.task (k := 0) (.bindFailed (p := .http) rfl rfl), trivial⟩).snoc
    ⟨.task (k := 0) (.joined rfl (by rintro (_ | _) <;> rfl)), trivial⟩
  have h4 := ((h3.snoc ⟨.taskDispatch (k := 0) (j := 3) rfl rfl (.invoke _ (hcalls 0)),
    trivial⟩).snoc ⟨.session (a := .read 3) rfl (.read rfl), trivial⟩).snoc
    ⟨.taskReturn (k := 0) (j := 3) rfl rfl, trivial⟩
  obtain ⟨hrun, hone⟩ := h4.guarded
  refine ⟨_, _, hrun, hone, hdone, ?_, rfl, rfl⟩
  rintro (_ | k)
  · rfl
  · exact congrArg (fun t : Task => t.thread.pc.alive) (hnone k)

end GravitalShare.Engine
