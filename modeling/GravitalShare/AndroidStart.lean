import GravitalShare.AndroidFollow

/-! `startClient` from launch to rest. Whether the state shown is the engine's depends on when the
coroutine gets to its last write. -/
namespace GravitalShare.Android

open Engine (World EngineStep EngineAct)

/-- A step that launches nothing. -/
abbrev QuietStep (x : App) (a : AppAct) (x' : App) : Prop :=
  AppStep x a x' ∧ ∀ n l, a ≠ .launch n l

abbrev CalmStep (x : App) (a : AppAct) (x' : App) : Prop := AppStep x a x' ∧ Calm x a

theorem quiet_job {x x' : App} {n : ℕ} (h : AppStep x (.job n) x') :
    QuietStep x (.job n) x' := ⟨h, nofun⟩

theorem quiet_handler {x x' : App} (h : AppStep x .handler x') : QuietStep x .handler x' :=
  ⟨h, nofun⟩

/-- The collector handles an event. -/
theorem event_handled {x : App} {v : Engine.SessionState} (hw : x.handler = .waiting)
    (hv : x.emitted[x.handled]? = some v) (hidle : phaseOf v ≠ .idle) :
    ∃ tr, Run QuietStep x tr { x with
      state := applyTransition (sessionStateToJson v) x.state (x.state.mode.getD x.mode)
      handled := x.handled+1 } := by
  have h1 := quiet_handler (.take hw hv)
  have h2 := (((Run.single h1).snoc (quiet_handler (.decide rfl))).snoc
    (quiet_handler (.apply rfl))).snoc (quiet_handler (.write rfl))
  rw [toState_sessionStateToJson] at h2
  dsimp only at h2
  rw [if_neg hidle, ← hw] at h2
  exact ⟨_, h2⟩

abbrev OwnStep (e : World) (a : EngineAct) (e' : World) : Prop :=
  EngineStep e a e' ∧ ∀ i r, a ≠ .request i r

theorem ownStep_session (e : World) (a : SharedCell.Act Engine.SessionEvent) (e' : World)
    (h : EngineStep e (.session a) e') : OwnStep e (.session a) e' := ⟨h, nofun⟩

theorem run_engine (x : App) {tr : List (World × EngineAct)} {e : World}
    (h : Run OwnStep x.engine tr e) : ∃ tr', Run QuietStep x tr' { x with engine := e } := by
  induction h with
  | nil => exact ⟨_, .nil⟩
  | snoc _ hl ih =>
    obtain ⟨tr', hrun⟩ := ih
    exact ⟨_, hrun.snoc ⟨.engine hl.2 hl.1, nofun⟩⟩

def exampleStart : Start := .client 3 Engine.exampleConfig

/-- `start_client`, from the call to the task it spawns. -/
theorem client_call_returns : ∃ tr e,
    Run OwnStep (World.new.setCall 0 (.ready (.checkState exampleStart.engine))) tr e ∧
    e.session.value = .connecting .client 1 ∧
    e.session.delivered.map Prod.snd = [.preparing .client, .connecting .client 1] ∧
    SharedCell.Quiescent e.session ∧ (∀ j, e.session.calls (j+2) = .idle) ∧
    e.shutdown = ⟨false, 0⟩ ∧ e.calls 0 = .ready (.returned (.ok ())) ∧
    (∀ i, e.calls (i+1) = .ready .unused) ∧
    e.tasks 0 = ⟨.ready (.client 3 Engine.exampleConfig 0 .openTun), .unspawned⟩ ∧
    ∀ k, e.tasks (k+1) = .absent := by
  have h1 : OwnStep (World.new.setCall 0 (.ready (.checkState exampleStart.engine))) (.call 0) _ :=
    ⟨.checkState rfl, nofun⟩
  obtain ⟨_, h2⟩ := Engine.dispatch_completes_in ownStep_session 0 ((Run.single h1).snoc
    ⟨.callDispatch (i := 0) (j := 0) rfl rfl (.invoke _ rfl), nofun⟩) rfl rfl
  obtain ⟨_, h3⟩ := Engine.dispatch_completes_in ownStep_session 1 ((h2.snoc
    ⟨.callReturn (i := 0) rfl rfl, nofun⟩).snoc
    ⟨.callDispatch (i := 0) (j := 1) rfl rfl (.invoke _ rfl), nofun⟩) rfl rfl
  have h4 := ((h3.snoc ⟨.callReturn (i := 0) rfl rfl, nofun⟩).snoc
    ⟨.subscribe (i := 0) rfl, nofun⟩).snoc ⟨.spawn (i := 0) (k := 0) rfl rfl, nofun⟩
  refine ⟨_, _, h4, rfl, rfl, ?_, fun _ => rfl, rfl, rfl, fun _ => rfl, rfl, fun _ => rfl⟩
  rintro (_ | _ | j)
  · exact Or.inr ⟨_, _, rfl⟩
  · exact Or.inr ⟨_, _, rfl⟩
  · exact Or.inl rfl

/-- The task of the session gets as far as its `select!`. -/
theorem client_connects {e : World} {j : ℕ}
    (htask : e.tasks 0 = ⟨.ready (.client 3 Engine.exampleConfig 0 .openTun), .unspawned⟩)
    (hvalue : e.session.value = .connecting .client 1) (hj : e.session.calls j = .idle) :
    ∃ tr e', Run OwnStep e tr e' ∧ e'.session.value = .connected .client Engine.examplePeer ∧
      e'.session.delivered.map Prod.snd =
        e.session.delivered.map Prod.snd ++ [.connected .client Engine.examplePeer] ∧
      (∃ ev r, e'.session.calls = Function.update e.session.calls j (.done ev r)) ∧
      e'.shutdown = e.shutdown ∧ e'.calls = e.calls ∧
      (e'.tasks 0).thread = .ready (.client 3 Engine.exampleConfig 0 .select) := by
  obtain ⟨⟨value, calls, written, delivered⟩, shutdown, calls', tasks⟩ := e
  subst hvalue
  have h1 : OwnStep _ (.task 0 (.tunOpened 3)) _ :=
    ⟨.task (.tunOpened (congrArg Engine.Task.thread htask)), nofun⟩
  obtain ⟨_, h2⟩ := Engine.dispatch_completes_in ownStep_session j (((Run.single h1).snoc
    ⟨.task (k := 0) (.stackNew rfl), nofun⟩).snoc
    ⟨.taskDispatch (k := 0) (j := j) rfl rfl (.invoke _ hj), nofun⟩)
    (Function.update_self _ _ _) rfl
  have h3 := h2.snoc ⟨.taskReturn (k := 0) rfl (Function.update_self _ _ _), nofun⟩
  exact ⟨_, _, h3, rfl, List.map_append, ⟨.proxyConnected Engine.examplePeer, .ok (),
    Function.update_idem _ _ _⟩, rfl, rfl, rfl⟩

/-- The two writes before the engine's call. -/
theorem client_called {tr : List (World × EngineAct)} {e : World}
    (h : Run OwnStep (World.new.setCall 0 (.ready (.checkState exampleStart.engine))) tr e) :
    ∃ tr', Run QuietStep (App.new.setJob 0 (.setMode exampleStart)) tr'
      ⟨e, .preparing .client, .client, 0, .waiting,
        Function.update (fun _ => .unused) 0 (.inStart exampleStart 0)⟩ := by
  have h1 : QuietStep (App.new.setJob 0 (.setMode exampleStart)) (.job 0) _ :=
    quiet_job (.access rfl)
  have h2 := ((Run.single h1).snoc (quiet_job (.access (n := 0) rfl))).snoc
    (quiet_job (.call (n := 0) (i := 0) rfl (.request _ rfl)))
  simp only [App.setJob, Function.update_idem] at h2
  obtain ⟨_, h3⟩ := run_engine ⟨World.new.setCall 0 (.ready (.checkState exampleStart.engine)),
    .preparing .client, .client, 0, .waiting,
    Function.update (fun _ => .unused) 0 (.inStart exampleStart 0)⟩ h
  exact ⟨_, h2.append h3⟩

/-- The coroutine of `startClient` is done and the first two events are handled. -/
theorem client_reported {tr : List (World × EngineAct)} {e : World}
    (h : Run OwnStep (World.new.setCall 0 (.ready (.checkState exampleStart.engine))) tr e)
    (hcall : e.calls 0 = .ready (.returned (.ok ())))
    (hemitted : [.preparing .client, .connecting .client 1] <+: e.session.delivered.map Prod.snd) :
    ∃ tr', Run QuietStep (App.new.setJob 0 (.setMode exampleStart)) tr'
      ⟨e, .connecting .client 1, .client, 2, .waiting,
        Function.update (fun _ => .unused) 0 .done⟩ := by
  obtain ⟨_, h1⟩ := client_called h
  have h2 := (h1.snoc (quiet_job (.resume (n := 0) rfl hcall))).snoc
    (quiet_job (.access (n := 0) rfl))
  simp only [App.setJob, Function.update_idem] at h2
  obtain ⟨_, h3⟩ := event_handled (x := ⟨e, .connecting .client 1, .client, 0, .waiting,
    Function.update (fun _ => .unused) 0 .done⟩) rfl (getElem?_of_isPrefix hemitted rfl)
    (by decide)
  obtain ⟨_, h4⟩ := event_handled (x := ⟨e, .connecting .client 1, .client, 1, .waiting,
    Function.update (fun _ => .unused) 0 .done⟩) rfl (getElem?_of_isPrefix hemitted rfl)
    (by decide)
  exact ⟨_, (h2.append h3).append h4⟩

/-- `start_client` and its session, up to Connected. -/
theorem client_up : ∃ tr e,
    Run OwnStep (World.new.setCall 0 (.ready (.checkState exampleStart.engine))) tr e ∧
    e.session.value = .connected .client Engine.examplePeer ∧
    e.session.delivered.map Prod.snd = [.preparing .client, .connecting .client 1,
      .connected .client Engine.examplePeer] ∧
    SharedCell.Quiescent e.session ∧ (∀ j, e.session.calls (j+3) = .idle) ∧
    e.calls 0 = .ready (.returned (.ok ())) ∧ (∀ i, e.calls (i+1) = .ready .unused) ∧
    (e.tasks 0).thread = .ready (.client 3 Engine.exampleConfig 0 .select) := by
  obtain ⟨_, e, he, hvalue, hemitted, hquiescent, hcalls, -, hcall, hunused, htask, -⟩ :=
    client_call_returns
  obtain ⟨_, e₁, he₁, hvalue₁, hemitted₁, ⟨ev, r, hcalls₁⟩, -, hcall₁, htask₁⟩ :=
    client_connects htask hvalue (hcalls 0)
  rw [hemitted] at hemitted₁
  refine ⟨_, e₁, he.append he₁, hvalue₁, hemitted₁, ?_, ?_, ?_, ?_, htask₁⟩
  · intro j
    rw [hcalls₁]
    rcases eq_or_ne j 2 with rfl | hne
    · exact Or.inr ⟨ev, r, Function.update_self _ _ _⟩
    · rw [Function.update_of_ne hne]
      exact hquiescent j
  · intro j
    rw [hcalls₁]
    exact hcalls (j+1)
  · rw [hcall₁]
    exact hcall
  · intro i
    rw [hcall₁]
    exact hunused i

/-- All of `startClient`, with the coroutine done before the first event is handled. -/
theorem client_connected : ∃ tr e, Run QuietStep (App.new.setJob 0 (.setMode exampleStart)) tr
      ⟨e, .connected .client (.shown Engine.examplePeer.proxyAddr), .client, 3, .waiting,
        Function.update (fun _ => .unused) 0 .done⟩ ∧
    e.session.value = .connected .client Engine.examplePeer ∧
    e.session.delivered.length = 3 ∧ SharedCell.Quiescent e.session ∧
    (∀ j, e.session.calls (j+3) = .idle) ∧ (∀ i, e.calls (i+1) = .ready .unused) ∧
    (e.tasks 0).thread = .ready (.client 3 Engine.exampleConfig 0 .select) := by
  obtain ⟨_, e, he, hvalue, hemitted, hquiescent, hcalls, hcall, hunused, htask⟩ := client_up
  obtain ⟨_, h1⟩ := client_reported he hcall (by rw [hemitted]; exact ⟨[_], rfl⟩)
  obtain ⟨_, h2⟩ := event_handled (x := ⟨e, .connecting .client 1, .client, 2, .waiting,
    Function.update (fun _ => .unused) 0 .done⟩) (v := .connected .client Engine.examplePeer) rfl
    (by rw [App.emitted, hemitted]; rfl) (by decide)
  refine ⟨_, e, h1.append h2, hvalue, ?_, hquiescent, hcalls, hunused, htask⟩
  rw [← List.length_map, hemitted]
  rfl

theorem App.settled_of_done {e : World} (state : SessionState) (mode : SessionMode) {m : ℕ}
    (hlength : e.session.delivered.length = m) (hq : SharedCell.Quiescent e.session) :
    App.Settled ⟨e, state, mode, m, .waiting, Function.update (fun _ => .unused) 0 .done⟩ := by
  refine ⟨by rintro (_ | n) <;> rfl, rfl, ?_, hq⟩
  rw [App.emitted, List.length_map]
  exact hlength.symm

theorem quiet_run {x y : App} {tr : List (App × AppAct)} (h : Run QuietStep x tr y) :
    Run AppStep x tr y ∧ ∀ q ∈ tr, ∀ n l, q.2 ≠ .launch n l := h.guarded

theorem calm_of_not_launch {x : App} {a : AppAct} (h : ∀ n l, a ≠ .launch n l) : Calm x a := by
  cases a with
  | launch n l => exact absurd rfl (h n l)
  | _ => trivial

theorem calm_run {x y : App} {tr : List (App × AppAct)} (h : Run QuietStep x tr y) :
    Run CalmStep x tr y := h.mono fun _ _ _ hs => ⟨hs.1, calm_of_not_launch hs.2⟩

theorem App.settled_new : App.new.Settled := ⟨fun _ => rfl, rfl, rfl, fun _ => Or.inl rfl⟩

/-- A `startClient` that finds the app settled and no session left, and what is shown once its
coroutine is done and the collector has nothing left to see. With a file descriptor that the
engine refuses, Failed is shown, whatever the engine's state is. Otherwise the state shown is the
engine's if and only if the coroutine's last write, Connecting, replaced Preparing or Connecting
and not what the session had come to by then. -/
theorem start_followed_iff {tr₀ tr : List (App × AppAct)} {x₀ x₁ x : App} {n : ℕ} {tunFd : ℤ}
    {cfg : Engine.ClientConfig} (h₀ : Run AppStep App.new tr₀ x₀)
    (hcalm : ∀ q ∈ tr₀, Calm q.1 q.2)
    (hl : AppStep x₀ (.launch n (.start (.client tunFd cfg))) x₁)
    (hc : Calm x₀ (.launch n (.start (.client tunFd cfg)))) (h : Run AppStep x₁ tr x)
    (hquiet : ∀ q ∈ tr, ∀ n l, q.2 ≠ .launch n l) (hdone : x.jobs n = .done) (hd : x.Drained) :
    x.state.phase = phaseOf x.engine.session.value ↔
      if tunFd < 0 then phaseOf x₀.engine.session.value = .failed else InTime n tr := by
  obtain ⟨hothers, hp⟩ := Progress.launch h₀ hcalm hl hc
  have hrun := h.history_of (fun _ a => ∀ n l, a ≠ .launch n l)
    (fun tr x => (∀ n', n' ≠ n → (x.jobs n').ended = true) ∧
      Progress tr x n (.client tunFd cfg) x₀.engine.session.value x₀.handled (x.jobs n))
    ⟨hothers, hp⟩ (fun _ _ _ _ ih ha hstep => hstep.progress ha rfl ih.1 ih.2) hquiet
  have hout := hrun.2
  rw [hdone] at hout
  rcases Outcome.shown_iff hout hd with ⟨hvalid, hs, hv⟩ | ⟨hvalid, hiff⟩
  · rw [if_pos (Int.not_le.mp hvalid), hs, hv]
    exact eq_comm
  · rw [if_neg (Int.not_lt.mpr hvalid)]
    exact hiff

theorem client_start_followed : ∃ tr x₁ x,
    AppStep App.new (.launch 0 (.start exampleStart)) x₁ ∧ Run AppStep x₁ tr x ∧
    x.jobs 0 = .done ∧ x.Drained ∧ x.engine.session.value = .connected .client Engine.examplePeer ∧
    x.state = .connected .client (.shown Engine.examplePeer.proxyAddr) ∧ InTime 0 tr := by
  obtain ⟨_, e, h1, hvalue, hlength, hquiescent, -⟩ := client_connected
  obtain ⟨h2, hquiet⟩ := quiet_run h1
  have hd := (App.settled_of_done (.connected .client (.shown Engine.examplePeer.proxyAddr)) .client
    hlength hquiescent).drained
  refine ⟨_, _, _, .launch _ rfl, h2, rfl, hd, hvalue, rfl, ?_⟩
  have hiff := start_followed_iff .nil (fun _ hq => absurd hq List.not_mem_nil) (.launch _ rfl)
    ⟨App.settled_new, fun _ => rfl⟩ h2 hquiet rfl hd
  rw [if_neg (by decide)] at hiff
  exact hiff.mp (by dsimp only; rw [hvalue]; rfl)

/-- The session is connected, and SessionManager has been told, before the thread of `startClient`
goes on: it shows Connecting from then on. -/
theorem late_start_shows_connecting : ∃ tr x₁ x,
    AppStep App.new (.launch 0 (.start exampleStart)) x₁ ∧ Run AppStep x₁ tr x ∧
    (∀ q ∈ tr, ∀ n l, q.2 ≠ .launch n l) ∧ x.Settled ∧
    x.engine.session.value = .connected .client Engine.examplePeer ∧
    x.state = .connecting .client 1 := by
  obtain ⟨_, e, he, hvalue, hemitted, hquiescent, -, hcall, -⟩ := client_up
  obtain ⟨_, h1⟩ := client_called he
  have hnext (n : ℕ) (state : SessionState) : (⟨e, state, .client, n, .waiting,
      Function.update (fun _ => .unused) 0 (.inStart exampleStart 0)⟩ : App).emitted[n]? =
      [Engine.SessionState.preparing .client, .connecting .client 1,
        .connected .client Engine.examplePeer][n]? := by
    rw [App.emitted, hemitted]
  obtain ⟨_, h2⟩ := event_handled rfl (hnext 0 (.preparing .client)) (by decide)
  obtain ⟨_, h3⟩ := event_handled rfl (hnext 1 (.preparing .client)) (by decide)
  obtain ⟨_, h4⟩ := event_handled rfl (hnext 2 (.connecting .client 1)) (by decide)
  have h5 := ((((h1.append h2).append h3).append h4).snoc
    (quiet_job (.resume (n := 0) rfl hcall))).snoc (quiet_job (.access (n := 0) rfl))
  simp only [App.setJob, Function.update_idem] at h5
  obtain ⟨h6, hquiet⟩ := quiet_run h5
  have hlength : e.session.delivered.length = 3 := by
    rw [← List.length_map, hemitted]
    rfl
  exact ⟨_, _, _, .launch _ rfl, h6, hquiet, App.settled_of_done _ _ hlength hquiescent, hvalue,
    rfl⟩

end GravitalShare.Android
