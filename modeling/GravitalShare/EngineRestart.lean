import GravitalShare.EngineShutdown

/-! What a restart does to the servers that are still running. The request to stop travels
over the shutdown flag, which keeps its last value only. -/
namespace GravitalShare.Engine

open SharedCell

/-- A server loop of this task, running or yet to begin, has last seen version `seen`. -/
def TaskPc.Watches (seen : ℕ) : TaskPc → Prop
  | .server _ rx .proxyConnected => rx = seen
  | .server _ _ (.serving runs) => ∃ p, runs p = .bind seen ∨ runs p = .accept seen
  | _ => False

/-- The same for a call that is about to spawn a server. -/
def CallPc.Watches (seen : ℕ) : CallPc → Prop
  | .engineReady (.server _) (some rx) | .spawn (.server _) rx => rx = seen
  | _ => False

def World.Watched (e : World) (seen : ℕ) : Prop :=
  (∃ i, (e.calls i).pc.Watches seen) ∨ ∃ k, (e.tasks k).thread.pc.Watches seen

/-- `start_server` or `start_client` resets the flag when no server is left to miss it. -/
def ResetsUnwatched (e : World) : EngineAct → Prop
  | .call i => ∀ s, e.calls i = .ready (.sendFalse s) → ∀ seen, ¬e.Watched seen
  | _ => True

/-- A server that has not seen the current version of the flag finds it set. -/
def World.FlagStands (e : World) : Prop :=
  ∀ seen, e.Watched seen →
    seen ≤ e.shutdown.version ∧ (seen < e.shutdown.version → e.shutdown.value = true)

/-- At its next `changed()` the task of session `k` leaves the accept loop of `p`. -/
def World.LeavesLoop (e : World) (k : ℕ) (p : Proxy) : Prop :=
  ∀ e', EngineStep e (.task k (.changed p)) e' →
    ∃ cfg rx runs, (e'.tasks k).thread = .ready (.server cfg rx (.serving runs)) ∧
      runs p = .ended

section Watched

variable {e e' : World} {a : EngineAct} {seen : ℕ}

theorem World.watched_setCall (e : World) {i : ℕ} {c : Thread CallPc}
    (h : e'.Watched seen) (hcalls : e'.calls = (e.setCall i c).calls)
    (htasks : e'.tasks = e.tasks) : c.pc.Watches seen ∨ e.Watched seen := by
  rcases h with ⟨i', hi'⟩ | ⟨k, hk⟩
  · rw [hcalls] at hi'
    rcases e.setCall_cases i i' c with ⟨-, hc⟩ | ⟨-, hc⟩
    · rw [hc] at hi'
      exact Or.inl hi'
    · rw [hc] at hi'
      exact Or.inr (Or.inl ⟨i', hi'⟩)
  · rw [htasks] at hk
    exact Or.inr (Or.inr ⟨k, hk⟩)

theorem World.watched_setTask (e : World) {k : ℕ} {t : Task} (h : e'.Watched seen)
    (hcalls : e'.calls = e.calls) (htasks : e'.tasks = (e.setTask k t).tasks) :
    t.thread.pc.Watches seen ∨ e.Watched seen := by
  rcases h with ⟨i, hi⟩ | ⟨k', hk'⟩
  · rw [hcalls] at hi
    exact Or.inr (Or.inl ⟨i, hi⟩)
  · rw [htasks] at hk'
    rcases e.setTask_cases k k' t with ⟨-, ht⟩ | ⟨-, ht⟩
    · rw [ht] at hk'
      exact Or.inl hk'
    · rw [ht] at hk'
      exact Or.inr (Or.inr ⟨k', hk'⟩)

theorem World.watched_of_call {i : ℕ} {c : Thread CallPc} (hc : e.calls i = c)
    (h : c.pc.Watches seen) : e.Watched seen :=
  Or.inl ⟨i, by rwa [hc]⟩

theorem World.watched_of_task {k : ℕ} {c : Thread TaskPc} (hc : (e.tasks k).thread = c)
    (h : c.pc.Watches seen) : e.Watched seen :=
  Or.inr ⟨k, by rwa [hc]⟩

/-- After `dispatch` a call waits for the version it waited for before. -/
theorem CallPc.watches_of_resume {pc : CallPc} {result : Except EngineError Unit}
    (h : (pc.resume result).Watches seen) : pc.Watches seen := by
  cases pc with
  | userStart s => cases result <;> cases s <;> exact h.elim
  | engineReady s rx => cases result <;> cases rx <;> cases s <;> first | exact h.elim | exact h
  | userStop => cases result <;> exact h.elim
  | _ => exact h

theorem TaskPc.watches_of_resume {pc : TaskPc} (h : pc.resume.Watches seen) :
    pc.Watches seen := by
  rcases pc with _ | ⟨cfg, rx, pc⟩ | ⟨tunFd, cfg, rx, pc⟩
  · exact h
  · cases pc with
    | proxyConnected =>
      obtain ⟨p, hp | hp⟩ := h
      · exact RunPc.bind.inj hp
      · cases hp
    | _ => exact h
  · cases pc <;> exact h

theorem waiting_of_update {runs : Proxy → RunPc} {p : Proxy} {r : RunPc}
    (h : ∃ p', Function.update runs p r p' = .bind seen ∨
      Function.update runs p r p' = .accept seen) :
    (r = .bind seen ∨ r = .accept seen) ∨ ∃ p', runs p' = .bind seen ∨ runs p' = .accept seen := by
  obtain ⟨p', hp'⟩ := h
  rcases eq_or_ne p' p with rfl | hne
  · rw [Function.update_self] at hp'
    exact Or.inl hp'
  · rw [Function.update_of_ne hne] at hp'
    exact Or.inr ⟨p', hp'⟩

/-- A step of a task lets a loop end, lets it wait as before, or shows it the current
version. -/
theorem TaskStep.watches_cases {w : Watch Bool} {t t' : Task} {a : TaskAct}
    (h : TaskStep w t a t') (hw : t'.thread.pc.Watches seen) :
    t.thread.pc.Watches seen ∨ seen = w.version := by
  cases h with
  | bound ht hp =>
    rw [ht]
    rcases waiting_of_update hw with hr | hr
    · rcases hr with hr | hr
      · cases hr
      · cases hr
        exact Or.inl ⟨_, Or.inl hp⟩
    · exact Or.inl hr
  | bindFailed ht hp =>
    rw [ht]
    rcases waiting_of_update hw with hr | hr
    · rcases hr with hr | hr <;> cases hr
    · exact Or.inl hr
  | changed ht hp hv =>
    rw [ht]
    rcases waiting_of_update hw with hr | hr
    · split_ifs at hr
      · rcases hr with hr | hr <;> cases hr
      · rcases hr with hr | hr
        · cases hr
        · exact Or.inr (RunPc.accept.inj hr).symm
    · exact Or.inl hr
  | joined ht _ => exact hw.elim
  | tunOpened ht | tunOpenFailed ht | loopReturned ht _ | shutdownChanged ht _ => exact hw.elim
  | stackNew ht => split_ifs at hw <;> exact hw.elim
  | _ => exact Or.inl hw

/-- A step lets no server wait for anything but the current version or one that was
waited for before. -/
theorem EngineStep.watched_cases (h : EngineStep e a e') (hw : e'.Watched seen) :
    e.Watched seen ∨ seen = e.shutdown.version := by
  cases h with
  | request r hc =>
    rcases World.watched_setCall e hw rfl rfl with hr | hr
    · rcases r with (_ | ⟨tunFd, cfg⟩) | _ | _
      · exact hr.elim
      · simp only [Thread.pc, Request.entry] at hr
        split_ifs at hr <;> exact hr.elim
      · exact hr.elim
      · exact hr.elim
    · exact Or.inl hr
  | checkState hc =>
    rcases World.watched_setCall e hw rfl rfl with hr | hr
    · simp only [Thread.pc] at hr
      split_ifs at hr <;> exact hr.elim
    · exact Or.inl hr
  | forceIdle hc | sendFalse hc _ | sendTrue hc _ =>
    rcases World.watched_setCall e hw rfl rfl with hr | hr
    · exact hr.elim
    · exact Or.inl hr
  | @subscribe i s hc =>
    rcases World.watched_setCall e hw rfl rfl with hr | hr
    · cases s with
      | server cfg => exact Or.inr hr.symm
      | client tunFd cfg => exact hr.elim
    · exact Or.inl hr
  | @spawn i s rx k hc hk =>
    rcases World.watched_setTask (e.setCall i _) hw rfl rfl with hr | hr
    · cases s with
      | server cfg => exact Or.inl (World.watched_of_call hc hr)
      | client tunFd cfg => exact hr.elim
    · rcases World.watched_setCall e hr rfl rfl with hr | hr
      · exact hr.elim
      · exact Or.inl hr
  | callDispatch hc _ _ =>
    rcases World.watched_setCall e hw rfl rfl with hr | hr
    · exact Or.inl (World.watched_of_call hc hr)
    · exact Or.inl hr
  | callReturn hc _ =>
    rcases World.watched_setCall e hw rfl rfl with hr | hr
    · exact Or.inl (World.watched_of_call hc (CallPc.watches_of_resume hr))
    · exact Or.inl hr
  | session _ _ => exact Or.inl hw
  | taskDispatch hc _ _ =>
    rcases World.watched_setTask e hw rfl rfl with hr | hr
    · exact Or.inl (World.watched_of_task hc hr)
    · exact Or.inl hr
  | taskReturn hc _ =>
    rcases World.watched_setTask e hw rfl rfl with hr | hr
    · exact Or.inl (World.watched_of_task hc (TaskPc.watches_of_resume hr))
    · exact Or.inl hr
  | @task k a t' ht =>
    rcases World.watched_setTask e hw rfl rfl with hr | hr
    · rcases ht.watches_cases hr with hr | hr
      · exact Or.inl (Or.inr ⟨k, hr⟩)
      · exact Or.inr hr
    · exact Or.inl hr

theorem EngineStep.shutdown_cases (h : EngineStep e a e') :
    e'.shutdown = e.shutdown ∨
    (∃ i s, a = .call i ∧ e.calls i = .ready (.sendFalse s) ∧
      ∀ seen, e'.Watched seen → e.Watched seen) ∨
    (e'.shutdown = ⟨true, e.shutdown.version+1⟩ ∧
      ∀ seen, e'.Watched seen → e.Watched seen) := by
  have hkeep {i : ℕ} {pc : CallPc} {w : Watch Bool} (hpc : ∀ seen, ¬pc.Watches seen) (seen : ℕ)
      (hw : World.Watched { e.setCall i (.ready pc) with shutdown := w } seen) :
      e.Watched seen := by
    rcases World.watched_setCall e hw rfl rfl with hr | hr
    · exact absurd hr (hpc seen)
    · exact hr
  cases h with
  | @sendFalse i s _ hc _ => exact Or.inr (Or.inl ⟨i, s, rfl, hc, hkeep fun _ => id⟩)
  | @sendTrue i alive hc _ =>
    cases alive with
    | false => exact Or.inl rfl
    | true => exact Or.inr (Or.inr ⟨rfl, hkeep fun _ => id⟩)
  | _ => exact Or.inl rfl

/-- Only a reset that a server misses brings the flag down again before its eyes. -/
theorem EngineStep.flagStands (h : EngineStep e a e') (hf : e.FlagStands)
    (hreset : ResetsUnwatched e a) : e'.FlagStands := by
  intro seen hw
  rcases h.shutdown_cases with hs | ⟨i, s, rfl, hc, hkeep⟩ | ⟨hs, hkeep⟩
  · rw [hs]
    rcases h.watched_cases hw with hw | rfl
    · exact hf seen hw
    · exact ⟨le_rfl, fun hlt => absurd hlt (lt_irrefl _)⟩
  · exact absurd (hkeep seen hw) (hreset s hc seen)
  · rw [hs]
    have hle := (hf seen (hkeep seen hw)).1
    exact ⟨Nat.le_succ_of_le hle, fun _ => rfl⟩

end Watched

/-- Steps of routine use: calls are made one after the other, a session is started when the
task of the last one has returned, every bind succeeds, and nothing is reset. -/
def Routine (e : World) : EngineAct → Prop
  | .request _ r => (∀ i, ∃ pc, e.calls i = .ready pc ∧ pc.ended = true) ∧
      (r.isStart = true → ∀ k, (e.tasks k).thread.pc.alive = false) ∧ r ≠ .shutdown
  | .call i => ∀ s, e.calls i ≠ .ready (.sendFalse s)
  | .task _ (.bindFailed _) => False
  | _ => True

abbrev RoutineStep (e : World) (a : EngineAct) (e' : World) : Prop :=
  EngineStep e a e' ∧ Routine e a

def exampleServer : ServerConfig := ⟨.v4 ⟨0, 0, 0, 0⟩ 1080, .v4 ⟨0, 0, 0, 0⟩ 8080⟩

/-- `start_server`, up to its return. -/
theorem server_spawned : ∃ tr e, Run RoutineStep World.new tr e ∧
    e.session.value = .connecting .server 1 ∧
    (∀ j, e.session.calls (j+2) = .idle) ∧ e.shutdown = ⟨false, 0⟩ ∧
    e.calls 0 = .ready (.returned (.ok ())) ∧ (∀ i, e.calls (i+1) = .ready .unused) ∧
    e.tasks 0 = ⟨.ready (.server exampleServer 0 .proxyConnected), .unspawned⟩ ∧
    ∀ k, e.tasks (k+1) = .absent := by
  have h1 : RoutineStep World.new (.request 0 (.start (.server exampleServer))) _ :=
    ⟨.request _ rfl, fun _ => ⟨_, rfl, rfl⟩, fun _ _ => rfl, nofun⟩
  have h2 := ((Run.single h1).snoc ⟨.checkState (i := 0) rfl, nofun⟩).snoc
    ⟨.callDispatch (i := 0) (j := 0) rfl rfl (.invoke _ rfl), trivial⟩
  obtain ⟨_, h3⟩ := dispatch_completes_in (fun _ _ _ hs => ⟨hs, trivial⟩) 0 h2 rfl rfl
  have h4 := ((h3.snoc ⟨.callReturn (i := 0) rfl rfl, trivial⟩).snoc
    ⟨.subscribe (i := 0) rfl, nofun⟩).snoc
    ⟨.callDispatch (i := 0) (j := 1) rfl rfl (.invoke _ rfl), trivial⟩
  obtain ⟨_, h5⟩ := dispatch_completes_in (fun _ _ _ hs => ⟨hs, trivial⟩) 1 h4 rfl rfl
  have h6 := (h5.snoc ⟨.callReturn (i := 0) rfl rfl, trivial⟩).snoc
    ⟨.spawn (i := 0) (k := 0) rfl rfl, nofun⟩
  exact ⟨_, _, h6, rfl, fun _ => rfl, rfl, rfl, fun _ => rfl, rfl, fun _ => rfl⟩

/-- The task it spawns, up to its two binds. -/
theorem server_connected : ∃ tr e, Run RoutineStep World.new tr e ∧
    e.session.value = .connected .server ⟨exampleServer.socksBind⟩ ∧
    (∀ j, e.session.calls (j+3) = .idle) ∧ e.shutdown = ⟨false, 0⟩ ∧
    e.calls 0 = .ready (.returned (.ok ())) ∧ (∀ i, e.calls (i+1) = .ready .unused) ∧
    e.tasks 0 = ⟨.ready (.server exampleServer 0 (.serving fun _ => .bind 0)), .unspawned⟩ ∧
    ∀ k, e.tasks (k+1) = .absent := by
  obtain ⟨_, e, h1, hvalue, hcalls, hflag, hdone, hunused, htask, hnone⟩ := server_spawned
  obtain ⟨⟨value, calls, written, delivered⟩, shutdown, _, tasks⟩ := e
  subst hvalue hflag
  have h2 := h1.snoc ⟨.taskDispatch (k := 0) (j := 2) (congrArg Task.thread htask) rfl
    (.invoke _ (hcalls 0)), trivial⟩
  obtain ⟨_, h3⟩ := dispatch_completes_in (fun _ _ _ hs => ⟨hs, trivial⟩) 2 h2 rfl rfl
  have h4 := h3.snoc ⟨.taskReturn (k := 0) rfl rfl, trivial⟩
  refine ⟨_, _, h4, rfl, ?_, rfl, hdone, hunused, ?_, hnone⟩
  · intro j
    exact hcalls (j+1)
  · have hplane : (tasks 0).plane = .unspawned := congrArg Task.plane htask
    change Task.mk (.ready (.server exampleServer 0 (.serving fun _ => .bind 0)))
      (tasks 0).plane = _
    rw [hplane]

/-- Both servers listen. -/
theorem server_listening : ∃ tr e, Run RoutineStep World.new tr e ∧
    e.session.value = .connected .server ⟨exampleServer.socksBind⟩ ∧
    (∀ j, e.session.calls (j+3) = .idle) ∧ e.shutdown = ⟨false, 0⟩ ∧
    e.calls 0 = .ready (.returned (.ok ())) ∧ (∀ i, e.calls (i+1) = .ready .unused) ∧
    e.tasks 0 = ⟨.ready (.server exampleServer 0 (.serving fun _ => .accept 0)), .unspawned⟩ ∧
    ∀ k, e.tasks (k+1) = .absent := by
  obtain ⟨_, e, h1, hvalue, hcalls, hflag, hdone, hunused, htask, hnone⟩ := server_connected
  have h2 := (h1.snoc ⟨.task (k := 0) (.bound (p := .socks) (congrArg Task.thread htask) rfl),
    trivial⟩).snoc ⟨.task (k := 0) (.bound (p := .http) rfl rfl), trivial⟩
  refine ⟨_, _, h2, hvalue, hcalls, hflag, hdone, hunused, ?_, hnone⟩
  have hruns : Function.update (Function.update (fun _ => .bind 0) Proxy.socks (.accept 0))
      .http (.accept 0) = fun _ => RunPc.accept 0 := by
    funext p
    cases p <;> rfl
  change Task.mk (.ready (.server exampleServer 0 (.serving (Function.update
    (Function.update (fun _ => .bind 0) Proxy.socks (.accept 0)) .http (.accept 0)))))
    (e.tasks 0).plane = _
  rw [hruns, htask]

/-- `stop`, up to its return, with the task of the session still to notice. -/
theorem server_told : ∃ tr e, Run RoutineStep World.new tr e ∧
    e.session.value = .stopping .server .userRequest ∧
    (∀ j, e.session.calls (j+4) = .idle) ∧ e.shutdown = ⟨true, 1⟩ ∧
    e.calls 0 = .ready (.returned (.ok ())) ∧ e.calls 1 = .ready (.returned (.ok ())) ∧
    (∀ i, e.calls (i+2) = .ready .unused) ∧
    e.tasks 0 = ⟨.ready (.server exampleServer 0 (.serving fun _ => .accept 0)), .unspawned⟩ ∧
    ∀ k, e.tasks (k+1) = .absent := by
  obtain ⟨_, e, h1, hvalue, hcalls, hflag, hdone, hunused, htask, hnone⟩ := server_listening
  have hover : ∀ i, ∃ pc, e.calls i = .ready pc ∧ pc.ended = true := by
    rintro (_ | i)
    · exact ⟨_, hdone, rfl⟩
    · exact ⟨_, hunused i, rfl⟩
  obtain ⟨⟨value, calls, written, delivered⟩, shutdown, _, tasks⟩ := e
  subst hvalue hflag
  have halive : (tasks 0).thread.pc.alive = true := by
    rw [show tasks 0 = _ from htask]
    rfl
  have h2 := (h1.snoc ⟨.request (i := 1) .stop (hunused 0), hover, nofun, nofun⟩).snoc
    ⟨.callDispatch (i := 1) (j := 3) rfl rfl (.invoke _ (hcalls 0)), trivial⟩
  obtain ⟨_, h3⟩ := dispatch_completes_in (fun _ _ _ hs => ⟨hs, trivial⟩) 3 h2 rfl rfl
  have h4 := (h3.snoc ⟨.callReturn (i := 1) rfl rfl, trivial⟩).snoc
    ⟨.sendTrue (i := 1) rfl (iff_of_true rfl (Or.inr ⟨0, halive⟩)), nofun⟩
  refine ⟨_, _, h4, rfl, ?_, rfl, hdone, rfl, ?_, htask, hnone⟩
  · intro j
    exact hcalls (j+1)
  · intro i
    exact hunused (i+1)

/-- The task of the session that has been stopped, up to its end. -/
theorem server_finished : ∃ tr e, Run RoutineStep World.new tr e ∧ e.session.value = .idle ∧
    (∀ j, e.session.calls (j+5) = .idle) ∧
    (∀ i, ∃ pc, e.calls i = .ready pc ∧ pc.ended = true) ∧
    (∀ i, e.calls (i+2) = .ready .unused) ∧
    (e.tasks 0).thread = .ready (.server exampleServer 0 .finished) ∧
    (∀ k, e.tasks (k+1) = .absent) ∧ ∀ k, (e.tasks k).thread.pc.alive = false := by
  obtain ⟨_, e, h1, hvalue, hcalls, hflag, hdone, hstop, hunused, htask, hnone⟩ := server_told
  obtain ⟨⟨value, calls, written, delivered⟩, shutdown, calls', tasks⟩ := e
  subst hvalue hflag
  have h2 := ((h1.snoc ⟨.task (k := 0) (.changed (p := .socks) (congrArg Task.thread htask) rfl
    Nat.zero_lt_one), trivial⟩).snoc ⟨.task (k := 0) (.changed (p := .http) rfl rfl
    Nat.zero_lt_one), trivial⟩).snoc
    ⟨.task (k := 0) (.joined rfl (by rintro (_ | _) <;> rfl)), trivial⟩
  have h3 := h2.snoc ⟨.taskDispatch (k := 0) (j := 4) rfl rfl (.invoke _ (hcalls 0)), trivial⟩
  obtain ⟨_, h4⟩ := dispatch_completes_in (fun _ _ _ hs => ⟨hs, trivial⟩) 4 h3 rfl rfl
  have h5 := h4.snoc ⟨.taskReturn (k := 0) rfl rfl, trivial⟩
  refine ⟨_, _, h5, rfl, fun j => hcalls (j+1), ?_, hunused, rfl, hnone, ?_⟩
  · rintro (_ | _ | i)
    · exact ⟨_, hdone, rfl⟩
    · exact ⟨_, hstop, rfl⟩
    · exact ⟨_, hunused i, rfl⟩
  · rintro (_ | k)
    · rfl
    · exact congrArg (fun t : Task => t.thread.pc.alive) (hnone k)

def otherServer : ServerConfig := ⟨.v4 ⟨0, 0, 0, 0⟩ 1081, .v4 ⟨0, 0, 0, 0⟩ 8081⟩

/-- `start_server` with a session around whose state is not Idle. -/
theorem server_restarted {e : World} (hvalue : e.session.value ≠ .idle)
    (hcalls : e.session.calls 6 = .idle ∧ e.session.calls 7 = .idle)
    (halive : (e.tasks 0).thread.pc.alive = true) (hunused : e.calls 2 = .ready .unused)
    (hnone : e.tasks 1 = .absent) :
    ∃ tr e', Run EngineStep e tr e' ∧ e'.session.value = .connecting .server 1 ∧
      e'.session.calls = Function.update (Function.update e.session.calls
        6 (.done (.userStart .server) (.ok ()))) 7 (.done .engineReady (.ok ())) ∧
      e'.shutdown = ⟨false, e.shutdown.version+1⟩ ∧
      e'.calls = Function.update e.calls 2 (.ready (.returned (.ok ()))) ∧
      e'.tasks = Function.update e.tasks 1
        ⟨.ready (.server otherServer (e.shutdown.version+1) .proxyConnected), .unspawned⟩ := by
  have h1 : EngineStep e (.request 2 (.start (.server otherServer))) _ := .request _ hunused
  have h2 := (Run.single h1).snoc (.checkState (i := 2) rfl)
  rw [if_neg (by exact hvalue)] at h2
  have h3 := ((h2.snoc (.forceIdle (i := 2) rfl)).snoc
    (.sendFalse (i := 2) rfl (iff_of_true rfl (Or.inr ⟨0, halive⟩)))).snoc
    (.callDispatch (i := 2) (j := 6) rfl rfl (.invoke _ hcalls.1))
  obtain ⟨_, h4⟩ := dispatch_completes 6 h3 rfl rfl
  have h5 := ((h4.snoc (.callReturn (i := 2) rfl rfl)).snoc (.subscribe (i := 2) rfl)).snoc
    (.callDispatch (i := 2) (j := 7) rfl rfl (.invoke _ hcalls.2))
  obtain ⟨_, h6⟩ := dispatch_completes 7 h5 rfl rfl
  have h7 := (h6.snoc (.callReturn (i := 2) rfl rfl)).snoc (.spawn (i := 2) (k := 1) rfl hnone)
  refine ⟨_, _, h7, rfl, ?_, rfl, ?_, rfl⟩
  · simp only [Cell.setCall, Function.update_idem]
    rfl
  · simp only [World.setCall, World.setTask, Function.update_idem]

/-- While the flag is reset only when no server can miss it, every server leaves an accept
loop at its next `changed()`, however often the engine is started and stopped. -/
theorem server_leaves_loop {tr : List (World × EngineAct)} {e : World}
    (h : Run EngineStep World.new tr e) (hreset : ∀ q ∈ tr, ResetsUnwatched q.1 q.2)
    (k : ℕ) (p : Proxy) : e.LeavesLoop k p := by
  have hf : e.FlagStands := by
    refine h.history_of ResetsUnwatched (fun _ e => e.FlagStands) ?_ ?_ hreset
    · rintro seen (⟨i, hi⟩ | ⟨k, hk⟩)
      · exact hi.elim
      · exact hk.elim
    · intro tr e a e' hf hr hstep
      exact hstep.flagStands hf hr
  intro e' hstep
  cases hstep with
  | task ht =>
    cases ht with
    | @changed cfg rx runs _ seen ht hp hv =>
      have hw : e.Watched seen := World.watched_of_task ht ⟨p, Or.inr hp⟩
      have hset : e.shutdown.value = true := (hf seen hw).2 hv
      refine ⟨cfg, rx, _, by rw [World.tasks_setTask_self], ?_⟩
      rw [Function.update_self, if_pos hset]

theorem told_server_leaves_loop : ∃ tr e e', Run EngineStep World.new tr e ∧
    EngineStep e (.task 0 (.changed .socks)) e' ∧
    ∃ cfg rx runs, (e'.tasks 0).thread = .ready (.server cfg rx (.serving runs)) ∧
      runs .socks = .ended := by
  obtain ⟨tr, e, hrun, -, -, hflag, -, -, -, htask, -⟩ := server_told
  obtain ⟨hrun, hroutine⟩ := hrun.guarded
  have hreset : ∀ q ∈ tr, ResetsUnwatched q.1 q.2 := by
    intro q hq
    have hr := hroutine q hq
    rcases q with ⟨e, a⟩
    cases a with
    | call i => exact fun s hs => absurd hs (hr s)
    | _ => trivial
  have hpending : 0 < e.shutdown.version := by
    rw [hflag]
    exact Nat.zero_lt_one
  have hstep : EngineStep e (.task 0 (.changed .socks)) _ :=
    .task (.changed (congrArg Task.thread htask) rfl hpending)
  exact ⟨tr, e, _, hrun, hstep, server_leaves_loop hrun hreset 0 .socks _ hstep⟩

/-- A server that finds the flag reset waits on. -/
theorem EngineStep.changed_of_reset {e : World} {k rx seen : ℕ} {cfg : ServerConfig}
    {runs : Proxy → RunPc} {p : Proxy}
    (ht : (e.tasks k).thread = .ready (.server cfg rx (.serving runs)))
    (hp : runs p = .accept seen) (hv : seen < e.shutdown.version) (hw : e.shutdown.value = false) :
    ∃ e', EngineStep e (.task k (.changed p)) e' ∧ e'.shutdown = e.shutdown ∧
      (e'.tasks k).thread = .ready (.server cfg rx (.serving
        (Function.update runs p (.accept e.shutdown.version)))) := by
  have h := TaskStep.changed ht hp hv
  rw [if_neg (by rw [hw]; exact Bool.false_ne_true)] at h
  exact ⟨_, .task h, rfl, congrArg Task.thread (World.tasks_setTask_self e k _)⟩

/-- `stop` has returned, but before the server notices `start_server` resets the flag: both
loops of the old server go on after `changed()`, and nothing is left for them to see. -/
theorem old_server_survives_restart : ∃ tr e e₁ e₂, Run EngineStep World.new tr e ∧
    e.calls 0 = .ready (.returned (.ok ())) ∧ e.calls 1 = .ready (.returned (.ok ())) ∧
    e.calls 2 = .ready (.returned (.ok ())) ∧
    (e.tasks 1).thread = .ready (.server otherServer 2 .proxyConnected) ∧
    EngineStep e (.task 0 (.changed .socks)) e₁ ∧ EngineStep e₁ (.task 0 (.changed .http)) e₂ ∧
    e₂.shutdown = ⟨false, 2⟩ ∧
    ∃ runs, (e₂.tasks 0).thread = .ready (.server exampleServer 0 (.serving runs)) ∧
      ∀ p, runs p = .accept 2 := by
  obtain ⟨_, e, hrun, hvalue, hcalls, hflag, hdone, hstop, hunused, htask, hnone⟩ := server_told
  obtain ⟨_, e', hrestart, -, -, hflag', hcalls', htasks'⟩ := server_restarted
    (by rw [hvalue]; exact nofun) ⟨hcalls 2, hcalls 3⟩ (by rw [htask]; rfl) (hunused 0) (hnone 0)
  rw [hflag] at hflag' htasks'
  have hold : (e'.tasks 0).thread =
      .ready (.server exampleServer 0 (.serving fun _ => .accept 0)) := by
    rw [htasks']
    exact congrArg Task.thread htask
  have hpending : 0 < e'.shutdown.version := by
    rw [hflag']
    exact Nat.zero_lt_two
  have hreset : e'.shutdown.value = false := by rw [hflag']
  obtain ⟨e₁, h1, hflag₁, hold₁⟩ := EngineStep.changed_of_reset hold (p := .socks) rfl
    hpending hreset
  obtain ⟨e₂, h2, hflag₂, hold₂⟩ := EngineStep.changed_of_reset hold₁ (p := .http) rfl
    (by rwa [hflag₁]) (by rwa [hflag₁])
  rw [hflag₁, hflag'] at hflag₂ hold₂
  refine ⟨_, e', e₁, e₂, hrun.guarded.1.append hrestart, ?_, ?_, ?_, ?_, h1, h2, hflag₂, _,
    hold₂, ?_⟩
  · rw [hcalls']
    exact hdone
  · rw [hcalls']
    exact hstop
  · rw [hcalls']
    rfl
  · rw [htasks']
    rfl
  · intro p
    cases p <;> rfl

end GravitalShare.Engine
