import GravitalShare.EngineRunner

/-! What is left of a client session after its `select!` has ended. -/
namespace GravitalShare.Engine

open SharedCell

/-- `run_client_loop` of session `k` has been polled. -/
def World.LoopPolled (e : World) (k : ℕ) : Prop := (e.tasks k).plane.isSpawned = true

section Steps

variable {e e' : World} {a : EngineAct}

theorem EngineStep.poll_not_returned (h : EngineStep e a e') (k : ℕ)
    (hp : ¬(e.tasks k).plane.PollReturned) : ¬(e'.tasks k).plane.PollReturned := by
  rcases h.task_cases k with ht | ⟨s, rx, -, ht⟩ | ⟨pc, j, -, ht⟩ | ⟨pc, j, -, ht⟩ | ⟨a', -, ht⟩
  · rwa [ht]
  · rw [ht]
    cases s <;> exact id
  · rwa [ht]
  · rwa [ht]
  · exact ht.poll_not_returned hp

/-- Only its own steps spawn the data plane of a session or end its `select!`. -/
theorem EngineStep.exit_cases (h : EngineStep e a e') (k : ℕ) :
    a = .task k .firstPoll ∧ (e.tasks k).exit = none ∧ (e'.tasks k).exit = none ∨
    (e'.tasks k).plane.isSpawned = (e.tasks k).plane.isSpawned ∧
      ((e'.tasks k).exit = (e.tasks k).exit ∨
        a = .task k .loopReturned ∧ (e.tasks k).plane.PollReturned ∨
        a = .task k .shutdownChanged ∧ (e.tasks k).exit = none ∧
          (e'.tasks k).exit = some .shutdown) := by
  rcases h.task_cases k with ht | ⟨s, rx, h0, ht⟩ | ⟨pc, j, hpc, ht⟩ | ⟨pc, j, hpc, ht⟩ |
    ⟨a', rfl, ht⟩
  · rw [ht]
    exact Or.inr ⟨rfl, Or.inl rfl⟩
  · rw [ht, h0]
    cases s <;> exact Or.inr ⟨rfl, Or.inl rfl⟩
  · rw [ht]
    refine Or.inr ⟨rfl, Or.inl ?_⟩
    rw [Task.exit, Task.exit, hpc]
    rfl
  · rw [ht]
    refine Or.inr ⟨rfl, Or.inl ?_⟩
    rw [Task.exit, Task.exit, hpc]
    exact pc.exit_resume
  · rcases ht.exit_cases with ⟨rfl, h1, h2⟩ | ⟨hs, hx | ⟨rfl, hp⟩ | ⟨rfl, h1, h2⟩⟩
    · exact Or.inl ⟨rfl, h1, h2⟩
    · exact Or.inr ⟨hs, Or.inl hx⟩
    · exact Or.inr ⟨hs, Or.inr (Or.inl ⟨rfl, hp⟩)⟩
    · exact Or.inr ⟨hs, Or.inr (Or.inr ⟨rfl, h1, h2⟩)⟩

end Steps

variable {tr tr' : List (World × EngineAct)} {e e' : World} {k : ℕ}

/-- `poll_task` never returns, hence neither does `run_client_loop`: a `select!` that ends
has ended through the shutdown flag. -/
theorem select_ends_by_shutdown (h : Run EngineStep World.new tr e) (k : ℕ) :
    ¬(e.tasks k).plane.PollReturned ∧ (e.tasks k).exit ≠ some .loopReturned := by
  refine h.invariant
    (fun e => ¬(e.tasks k).plane.PollReturned ∧ (e.tasks k).exit ≠ some .loopReturned)
    ⟨id, fun hx => by cases hx⟩ ?_
  rintro e a e' ⟨hp, hx⟩ hstep
  refine ⟨hstep.poll_not_returned k hp, ?_⟩
  -- the branch of the loop needs a `poll_task` that has returned
  rcases hstep.exit_cases k with ⟨-, -, hx'⟩ | ⟨-, hx' | ⟨-, hr⟩ | ⟨-, -, hx'⟩⟩
  · rw [hx']
    exact nofun
  · rwa [hx']
  · exact absurd hr hp
  · rw [hx']
    exact nofun

/-- From the end of the `select!` on, the data plane stays as spawned as it was. -/
theorem shutdown_step_mem (h : Run EngineStep World.new tr e)
    (hexit : (e.tasks k).exit = some .shutdown) :
    ∃ p ∈ tr, p.2 = .task k .shutdownChanged ∧
      (e.tasks k).plane.isSpawned = (p.1.tasks k).plane.isSpawned := by
  -- either this step ended the `select!`, or an earlier one and this one spawned nothing
  induction h with
  | nil => cases hexit
  | @snoc tr e a e' hrun hstep ih =>
    have hp := (select_ends_by_shutdown hrun k).1
    rcases hstep.exit_cases k with ⟨-, -, hx⟩ | ⟨hs, hx | ⟨-, hr⟩ | ⟨rfl, -, -⟩⟩
    · cases hx.symm.trans hexit
    · obtain ⟨p, hmem, hact, heq⟩ := ih (hx.symm.trans hexit)
      exact ⟨p, List.mem_append_left _ hmem, hact, hs.trans heq⟩
    · exact absurd hr hp
    · exact ⟨_, List.mem_append_right _ (List.mem_singleton_self _), rfl, hs⟩

/-- A session whose `select!` has ended before the loop was polled leaves the device alone. -/
theorem not_usesTun_of_unspawned (h : Run EngineStep e tr e')
    (hexit : (e.tasks k).exit = some .shutdown) (hs : (e.tasks k).plane.isSpawned = false) :
    ∀ q ∈ tr, ¬q.2.UsesTun k := by
  have key := h.history (fun tr e => ((e.tasks k).exit = some .shutdown ∧
    (e.tasks k).plane.isSpawned = false) ∧ ∀ q ∈ tr, ¬q.2.UsesTun k)
    ⟨⟨hexit, hs⟩, fun _ hq => absurd hq List.not_mem_nil⟩ ?_
  · exact key.2
  rintro tr e a e' ⟨⟨hx, hs⟩, hall⟩ hstep
  refine ⟨?_, ?_⟩
  · -- the first poll needs a `select!` that has not ended
    rcases hstep.exit_cases k with ⟨-, hx', -⟩ | ⟨hs', hx' | ⟨-, hr⟩ | ⟨-, hx', -⟩⟩
    · cases hx'.symm.trans hx
    · exact ⟨hx'.trans hx, hs'.trans hs⟩
    · cases hplane : (e.tasks k).plane with
      | unspawned => rw [hplane] at hr; exact hr.elim
      | spawned _ _ _ => rw [hplane] at hs; cases hs
    · cases hx'.symm.trans hx
  · intro q hq
    rcases List.mem_append.mp hq with hq | hq
    · exact hall q hq
    · rw [List.mem_singleton.mp hq]
      rintro ⟨a', rfl, hu⟩
      cases hstep with
      | task ht => exact Bool.noConfusion ((ht.usesTun_eq_false hs).symm.trans hu)

def exampleConfig : ClientConfig := ⟨examplePeer.proxyAddr, 1280⟩

/-- A `dispatch` that changes the state, from its invocation to its last listener, within
any steps of the engine that allow for those of `dispatch`. -/
theorem dispatch_completes_in {step : World → EngineAct → World → Prop}
    (hstep : ∀ e a e', EngineStep e (.session a) e' → step e (.session a) e')
    {e₀ e : World} {tr : List (World × EngineAct)} {ev : SessionEvent}
    {next : SessionState} (j : ℕ) (h : Run step e₀ tr e)
    (hj : e.session.calls j = .invoked ev)
    (hread : afterRead transition e.session.value ev = .loaded ev e.session.value next) :
    ∃ tr', Run step e₀ tr' { e with session :=
      ⟨next, Function.update e.session.calls j (.done ev (.ok ())),
        e.session.written ++ [(j, next)], e.session.delivered ++ [(j, next)]⟩ } := by
  have hcall (c : CallState SessionState SessionEvent EngineError) :
      Function.update e.session.calls j c j = c := Function.update_self _ _ _
  have h1 : EngineStep e (.session (.read j)) _ := .session rfl (.read hj)
  rw [hread] at h1
  have h2 := ((h.snoc (hstep _ _ _ h1)).snoc
    (hstep _ _ _ (.session rfl (.write (hcall _))))).snoc
    (hstep _ _ _ (.session rfl (.notify (Function.update_self _ _ _))))
  simp only [Cell.setCall, Function.update_idem] at h2
  exact ⟨_, h2⟩

theorem dispatch_completes {e₀ e : World} {tr : List (World × EngineAct)} {ev : SessionEvent}
    {next : SessionState} (j : ℕ) (h : Run EngineStep e₀ tr e)
    (hj : e.session.calls j = .invoked ev)
    (hread : afterRead transition e.session.value ev = .loaded ev e.session.value next) :
    ∃ tr', Run EngineStep e₀ tr' { e with session :=
      ⟨next, Function.update e.session.calls j (.done ev (.ok ())),
        e.session.written ++ [(j, next)], e.session.delivered ++ [(j, next)]⟩ } :=
  dispatch_completes_in (fun _ _ _ hs => hs) j h hj hread

/-- `start_client`, up to the `select!` of the task it spawns. -/
theorem client_started : ∃ tr e, Run EngineStep World.new tr e ∧
    e.session.value = .connected .client examplePeer ∧
    (∀ j, e.session.calls (j+3) = .idle) ∧ e.shutdown = ⟨false, 0⟩ ∧
    e.calls 1 = .ready .unused ∧
    e.tasks 0 = ⟨.ready (.client 3 exampleConfig 0 .select), .unspawned⟩ := by
  have h1 : EngineStep World.new (.request 0 (.start (.client 3 exampleConfig))) _ :=
    .request _ rfl
  obtain ⟨_, h2⟩ := dispatch_completes 0 (((Run.single h1).snoc (.checkState (i := 0) rfl)).snoc
    (.callDispatch (i := 0) (j := 0) rfl rfl (.invoke _ rfl))) rfl rfl
  obtain ⟨_, h3⟩ := dispatch_completes 1 ((h2.snoc (.callReturn (i := 0) rfl rfl)).snoc
    (.callDispatch (i := 0) (j := 1) rfl rfl (.invoke _ rfl))) rfl rfl
  have h4 := ((h3.snoc (.callReturn (i := 0) rfl rfl)).snoc (.subscribe (i := 0) rfl)).snoc
    (.spawn (i := 0) (k := 0) rfl rfl)
  obtain ⟨_, h5⟩ := dispatch_completes 2 (((h4.snoc (.task (k := 0) (.tunOpened rfl))).snoc
    (.task (k := 0) (.stackNew rfl))).snoc
    (.taskDispatch (k := 0) (j := 2) rfl rfl (.invoke _ rfl))) rfl rfl
  exact ⟨_, _, h5.snoc (.taskReturn (k := 0) rfl rfl), rfl, fun _ => rfl, rfl, rfl, rfl⟩

/-- `stop`, and what the task of the session makes of it: whatever the loop has spawned by
then stays. -/
theorem client_stopped {e : World}
    (hthread : (e.tasks 0).thread = .ready (.client 3 exampleConfig 0 .select))
    (hvalue : e.session.value = .connected .client examplePeer)
    (hcalls : ∀ j, e.session.calls (j+3) = .idle) (hflag : e.shutdown = ⟨false, 0⟩)
    (hcall : e.calls 1 = .ready .unused) :
    ∃ tr e', Run EngineStep e tr e' ∧ e'.session.value = .idle ∧
      e'.tasks 0 = ⟨.ready (.client 3 exampleConfig 0 (.finished (some .shutdown))),
        (e.tasks 0).plane⟩ := by
  have halive : (e.tasks 0).thread.pc.alive = true := by rw [hthread]; rfl
  obtain ⟨⟨value, calls, written, delivered⟩, shutdown, _, tasks⟩ := e
  subst hvalue hflag
  have h1 : EngineStep _ (.request 1 .stop) _ := .request .stop hcall
  obtain ⟨_, h2⟩ := dispatch_completes 3 ((Run.single h1).snoc
    (.callDispatch (i := 1) (j := 3) rfl rfl (.invoke _ (hcalls 0)))) rfl rfl
  have h3 := ((h2.snoc (.callReturn (i := 1) rfl rfl)).snoc
    (.sendTrue (i := 1) rfl (iff_of_true rfl (Or.inr ⟨0, halive⟩)))).snoc
    (.task (k := 0) (.shutdownChanged hthread Nat.zero_lt_one))
  obtain ⟨_, h4⟩ := dispatch_completes 4
    (h3.snoc (.taskDispatch (k := 0) (j := 4) rfl rfl (.invoke _ (hcalls 1)))) rfl rfl
  exact ⟨_, _, h4.snoc (.taskReturn (k := 0) rfl rfl), rfl, rfl⟩

/-- After the `select!` of a client session has ended through the shutdown flag, its data
plane is gone exactly if `run_client_loop` had not been polled by then; and then the session
never touches the TUN device. -/
theorem data_plane_gone_iff (h : Run EngineStep World.new tr e)
    (hexit : (e.tasks k).exit = some .shutdown) :
    ∃ p ∈ tr, p.2 = .task k .shutdownChanged ∧
      (¬(e.tasks k).plane.Running ↔ ¬p.1.LoopPolled k) ∧
      (¬p.1.LoopPolled k → ∀ tr' e', Run EngineStep e tr' e' → ∀ q ∈ tr', ¬q.2.UsesTun k) := by
  obtain ⟨p, hp, hact, hs⟩ := shutdown_step_mem h hexit
  refine ⟨p, hp, hact, ?_, ?_⟩
  · rw [Plane.running_iff (select_ends_by_shutdown h k).1, World.LoopPolled, hs]
  · intro hn tr' e' h'
    apply not_usesTun_of_unspawned h' hexit
    rw [hs]
    exact Bool.eq_false_iff.mpr hn

/-- The flag is set before the `select!` is first polled. -/
theorem data_plane_gone_of_early_stop : ∃ tr e, Run EngineStep World.new tr e ∧
    e.session.value = .idle ∧
    (e.tasks 0).thread = .ready (.client 3 exampleConfig 0 (.finished (some .shutdown))) ∧
    ¬(e.tasks 0).plane.Running ∧
    ∃ p ∈ tr, p.2 = .task 0 .shutdownChanged ∧
      (¬(e.tasks 0).plane.Running ↔ ¬p.1.LoopPolled 0) ∧
      (¬p.1.LoopPolled 0 → ∀ tr' e', Run EngineStep e tr' e' → ∀ q ∈ tr', ¬q.2.UsesTun 0) := by
  obtain ⟨tr, e, hrun, hvalue, hcalls, hflag, hcall, htask⟩ := client_started
  obtain ⟨tr', e', hstop, hidle, htask'⟩ :=
    client_stopped (congrArg Task.thread htask) hvalue hcalls hflag hcall
  have hexit : (e'.tasks 0).exit = some .shutdown := by rw [htask']; rfl
  refine ⟨_, e', hrun.append hstop, hidle, by rw [htask'], ?_,
    data_plane_gone_iff (hrun.append hstop) hexit⟩
  rw [htask', htask]
  exact id

/-- The loop was polled before `stop`: with the session back in Idle and its task finished,
`tun_read_task` and `poll_task` are still running, and a packet is read from the device. -/
theorem stopped_client_reads_packet : ∃ tr e, Run EngineStep World.new tr e ∧
    e.session.value = .idle ∧
    e.tasks 0 = ⟨.ready (.client 3 exampleConfig 0 (.finished (some .shutdown))),
      .spawned true .tick []⟩ ∧
    (e.tasks 0).plane.Running ∧ ∀ pkt, ∃ e', EngineStep e (.task 0 (.tunRead pkt)) e' := by
  obtain ⟨tr, e, hrun, hvalue, hcalls, hflag, hcall, htask⟩ := client_started
  have hpoll : EngineStep e (.task 0 .firstPoll)
      (e.setTask 0 ⟨(e.tasks 0).thread, .spawned true .tick []⟩) :=
    .task (.firstPoll (congrArg Task.thread htask) (congrArg Task.plane htask))
  have hthread : ((e.setTask 0 ⟨(e.tasks 0).thread, .spawned true .tick []⟩).tasks 0).thread =
      .ready (.client 3 exampleConfig 0 .select) := congrArg Task.thread htask
  obtain ⟨tr', e', hstop, hidle, htask'⟩ := client_stopped hthread hvalue hcalls hflag hcall
  have hplane : (e'.tasks 0).plane = .spawned true .tick [] := by rw [htask']; rfl
  refine ⟨_, e', (hrun.snoc hpoll).append hstop, hidle, htask', ?_, ?_⟩
  · rw [hplane]
    exact Or.inl rfl
  · intro pkt
    exact ⟨_, .task (.tunRead pkt hplane)⟩

end GravitalShare.Engine
