import GravitalShare.AndroidStart

/-! What SessionManager makes of a stop. It does not look at the engine's answer, so that all
depends on when it is called. -/
namespace GravitalShare.Android

open Engine (World EngineStep EngineAct Tracked)

section Closed

variable {x x' : App} {a : AppAct} {i k n : ℕ}

/-- The coroutine is a start in progress. -/
def Pc.isStart : Pc → Bool
  | .setMode _ | .setPreparing _ | .callStart _ | .inStart _ _ | .report _ _ => true
  | _ => false

theorem Pc.access_of_not_start {state state' : SessionState} {mode mode' : SessionMode}
    {pc pc' : Pc} (h : pc.access state mode = some (pc', state', mode')) (hno : pc.isStart = false)
    (hs : state.phase ≠ .connected) : pc'.isStart = false ∧ state'.phase ≠ .connected := by
  cases pc with
  | readState | readMode current | setModeIdle o =>
    cases h
    exact ⟨rfl, hs⟩
  | setStopping m | setIdle o =>
    cases h
    exact ⟨rfl, nofun⟩
  | unused | done | callStop | inStop i => cases h
  | _ => cases hno

/-- Without a start, what is closed stays closed. -/
theorem AppStep.closed (h : AppStep x a x') (hi : Inv x i k n) (hc : Closed x)
    (hno : ∀ n, (x.jobs n).isStart = false) (ha : ∀ n s, a ≠ .launch n (.start s)) :
    Closed x' ∧ ∀ n, (x'.jobs n).isStart = false := by
  have hset {n' : ℕ} {pc' : Pc} (hpc : pc'.isStart = false) (n'' : ℕ) :
      ((x.setJob n' pc').jobs n'').isStart = false := by
    rcases x.setJob_cases n' n'' pc' with ⟨-, heq⟩ | ⟨-, heq⟩
    · rw [heq, hpc]
    · rw [heq, hno]
  cases a with
  | launch n' l =>
    cases h with
    | launch =>
      refine ⟨hc.of_eq rfl rfl rfl hc.state, hset ?_⟩
      cases l with
      | start s => exact absurd rfl (ha n' s)
      | _ => rfl
  | job n' =>
    cases h with
    | access h =>
      obtain ⟨hpc, hs⟩ := Pc.access_of_not_start h (hno n') hc.state
      exact ⟨hc.of_eq rfl rfl rfl hs, hset hpc⟩
    | @call _ i' r pc' _ h he =>
      obtain rfl := hi.job_eq (Pc.ended_of_call h)
      obtain ⟨-, hs⟩ := hi.stage.call (n := n') hi.tracked h he _ rfl
      have hpc := hno n'
      cases hjob : x.jobs n' with
      | callStop =>
        rw [hjob] at h
        cases h
        exact ⟨hs.2.1, hset rfl⟩
      | callStart s =>
        rw [hjob] at hpc
        cases hpc
      | _ =>
        rw [hjob] at h
        cases h
    | @resume _ i' result pc' h hr =>
      have hpc := hno n'
      cases hjob : x.jobs n' with
      | inStop i₁ =>
        rw [hjob] at h
        cases h
        exact ⟨hc.of_eq rfl rfl rfl hc.state, hset rfl⟩
      | inStart s i₁ =>
        rw [hjob] at hpc
        cases hpc
      | _ =>
        rw [hjob] at h
        cases h
  | handler =>
    refine ⟨hc.handler_step h, ?_⟩
    rw [h.handler_engine.2]
    exact hno
  | engine a =>
    cases h with
    | engine ha he => exact ⟨hc.engine hi.tracked he ha, hno⟩

end Closed

section Trace

variable {tr tr' : List (App × AppAct)} {x x' : App} {i : ℕ}

/-- The UserStop that call `i` of the engine dispatched has been accepted. -/
def Accepted (tr : List (App × AppAct)) (i : ℕ) : Prop :=
  ∃ q ∈ tr, ∃ j ev, q.2 = .engine (.callReturn i j) ∧ q.1.engine.calls i = .calling .userStop j ∧
    q.1.engine.session.calls j = .done ev (.ok ())

/-- Call `i` of the engine has sent the shutdown signal. -/
def Signalled (tr : List (App × AppAct)) (i : ℕ) : Prop :=
  ∃ q ∈ tr, q.2 = .engine (.call i) ∧ q.1.engine.calls i = .ready .sendTrue

theorem Accepted.mono (h : Accepted tr i) (q : App × AppAct) : Accepted (tr ++ [q]) i := by
  obtain ⟨q', hq', h'⟩ := h
  exact ⟨q', List.mem_append_left _ hq', h'⟩

theorem Signalled.mono (h : Signalled tr i) (q : App × AppAct) : Signalled (tr ++ [q]) i := by
  obtain ⟨q', hq', h'⟩ := h
  exact ⟨q', List.mem_append_left _ hq', h'⟩

/-- How far a call of `stop` has got, and what it has done by then. -/
inductive StopTrace (tr : List (App × AppAct)) (i : ℕ) : Engine.Thread Engine.CallPc → Prop
  | userStop : StopTrace tr i (.ready .userStop)
  | dispatching {j} : StopTrace tr i (.calling .userStop j)
  | refused {err} : StopTrace tr i (.ready (.returned (.error err)))
  | sendTrue (h : Accepted tr i) : StopTrace tr i (.ready .sendTrue)
  | returned (h : Accepted tr i) (h' : Signalled tr i) :
      StopTrace tr i (.ready (.returned (.ok ())))

theorem StopTrace.mono {c : Engine.Thread Engine.CallPc} (h : StopTrace tr i c)
    (q : App × AppAct) : StopTrace (tr ++ [q]) i c := by
  cases h with
  | userStop => exact .userStop
  | dispatching => exact .dispatching
  | refused => exact .refused
  | sendTrue h => exact .sendTrue (h.mono q)
  | returned h h' => exact .returned (h.mono q) (h'.mono q)

/-- A step of the engine, seen from a call of `stop`. -/
theorem StopTrace.engine {a : EngineAct} {e : World} (h : StopTrace tr i (x.engine.calls i))
    (he : EngineStep x.engine a e) :
    StopTrace (tr ++ [(x, .engine a)]) i (e.calls i) := by
  have hmem : (x, AppAct.engine a) ∈ tr ++ [(x, .engine a)] :=
    List.mem_append_right _ (List.mem_singleton_self _)
  have hset {i' : ℕ} {c : Engine.Thread Engine.CallPc}
      (hown : i' = i → StopTrace (tr ++ [(x, .engine a)]) i c) :
      StopTrace (tr ++ [(x, .engine a)]) i ((x.engine.setCall i' c).calls i) := by
    rcases x.engine.setCall_cases i' i c with ⟨rfl, heq⟩ | ⟨-, heq⟩
    · rw [heq]
      exact hown rfl
    · rw [heq]
      exact h.mono _
  have hnot {i' : ℕ} {c c' : Engine.Thread Engine.CallPc} (hc : x.engine.calls i' = c)
      (hno : ¬StopTrace tr i' c) (hi : i' = i) : StopTrace (tr ++ [(x, .engine a)]) i c' := by
    subst hi
    rw [hc] at h
    exact absurd h hno
  cases he with
  | request r hc => exact hset (hnot hc nofun)
  | checkState hc | forceIdle hc | subscribe hc => exact hset (hnot hc nofun)
  | sendFalse hc _ => exact hset (hnot hc nofun)
  | spawn hc _ => exact hset (hnot hc nofun)
  | sendTrue hc _ =>
    refine hset ?_
    rintro rfl
    rw [hc] at h
    cases h with
    | sendTrue h => exact .returned (h.mono _) ⟨_, hmem, rfl, hc⟩
  | @callDispatch i' j pc ev _ hc hev _ =>
    refine hset ?_
    rintro rfl
    rw [hc] at h
    cases h with
    | userStop => exact .dispatching
    | _ => cases hev
  | @callReturn i' j pc ev result hc hd =>
    refine hset ?_
    rintro rfl
    rw [hc] at h
    cases h with
    | dispatching =>
      cases result with
      | error err => exact .refused
      | ok u => exact .sendTrue ⟨_, hmem, j, ev, rfl, hc, hd⟩
  | _ => exact h.mono _

/-- The call of the engine that a stop has made. -/
def Pc.stopCall : Pc → Option ℕ
  | .inStop i => some i
  | .setIdle o | .setModeIdle o => o
  | _ => none

/-- Only a call of `stop` is looked back on, and only by its own coroutine. -/
theorem Pc.stopCall_of_access {pc pc' : Pc} {state state' : SessionState}
    {mode mode' : SessionMode} (h : pc.access state mode = some (pc', state', mode'))
    (hs : pc'.stopCall = some i) : pc.stopCall = some i := by
  cases pc with
  | setIdle o =>
    cases h
    exact hs
  | _ => cases h <;> cases hs

theorem Pc.stopCall_of_resume {pc pc' : Pc} {result : Except Engine.EngineError Unit} {i' : ℕ}
    (h : pc.resume result = some (i', pc')) (hs : pc'.stopCall = some i) :
    pc.stopCall = some i := by
  cases pc with
  | inStop i₁ =>
    cases h
    exact hs
  | _ => cases h <;> cases hs

theorem Pc.stopCall_of_call {pc pc' : Pc} {r : Engine.Request} {i' : ℕ}
    (h : pc.call i' = some (r, pc')) (hs : pc'.stopCall = some i) : r = .stop ∧ i' = i := by
  cases pc with
  | callStop =>
    cases h
    cases hs
    exact ⟨rfl, rfl⟩
  | _ => cases h <;> cases hs

theorem stopTrace_of_run (h : Run AppStep App.new tr x) :
    ∀ n i, (x.jobs n).stopCall = some i → StopTrace tr i (x.engine.calls i) := by
  refine h.history (fun tr x => ∀ n i, (x.jobs n).stopCall = some i →
    StopTrace tr i (x.engine.calls i)) nofun ?_
  intro tr x a x' ih hstep n i hn
  have hset {n' : ℕ} {pc : Pc} (hpc : ((x.setJob n' pc).jobs n).stopCall = some i)
      (hnew : pc.stopCall = some i → (x.jobs n').stopCall = some i) :
      StopTrace (tr ++ [(x, a)]) i (x.engine.calls i) := by
    rcases x.setJob_cases n' n pc with ⟨rfl, heq⟩ | ⟨-, heq⟩
    · rw [heq] at hpc
      exact (ih n i (hnew hpc)).mono _
    · rw [heq] at hpc
      exact (ih n i hpc).mono _
  cases hstep with
  | @launch n' l hun =>
    refine hset hn ?_
    intro hl
    cases l <;> cases hl
  | access h => exact hset hn (Pc.stopCall_of_access h)
  | resume h _ => exact hset hn (Pc.stopCall_of_resume h)
  | @call n' i' r pc e h he =>
    cases he with
    | request _ hunused =>
      rcases x.setJob_cases n' n pc with ⟨rfl, heq⟩ | ⟨-, heq⟩
      · dsimp only at hn ⊢
        rw [heq] at hn
        obtain ⟨rfl, rfl⟩ := Pc.stopCall_of_call h hn
        rw [World.calls_setCall_self]
        exact .userStop
      · -- a call that is made now is none that a stop has made before
        have hs : (x.jobs n).stopCall = some i := by
          rw [← heq]
          exact hn
        rcases x.engine.setCall_cases i' i (.ready r.entry) with ⟨rfl, -⟩ | ⟨-, heq'⟩
        · have hc := ih n i hs
          rw [hunused] at hc
          cases hc
        · dsimp only
          rw [heq']
          exact (ih n i hs).mono _
  | take | decide | apply | write => exact (ih n i hn).mono _
  | engine ha he => exact (ih n i hn).engine he

end Trace

/-- A `stop` that finds the session Connected. -/
theorem stop_accepted (e : World) {i j : ℕ}
    (hvalue : e.session.value = .connected .client Engine.examplePeer)
    (hcall : e.calls i = .ready .userStop) (hj : e.session.calls j = .idle)
    (halive : ∃ k, (e.tasks k).thread.pc.alive = true) :
    ∃ tr e', Run OwnStep e tr e' ∧ e'.calls i = .ready (.returned (.ok ())) := by
  obtain ⟨⟨value, calls, written, delivered⟩, shutdown, calls', tasks⟩ := e
  subst hvalue
  have h1 : OwnStep _ (.callDispatch i j) _ := ⟨.callDispatch hcall rfl (.invoke _ hj), nofun⟩
  obtain ⟨_, h2⟩ := Engine.dispatch_completes_in ownStep_session j (Run.single h1)
    (Function.update_self _ _ _) rfl
  have h3 := h2.snoc ⟨.callReturn (i := i) (Function.update_self _ _ _)
    (Function.update_self _ _ _), nofun⟩
  have h4 := h3.snoc ⟨.sendTrue (i := i) (Function.update_self _ _ _)
    (iff_of_true (rfl : true = true) (Or.inr halive)), nofun⟩
  exact ⟨_, _, h4, Function.update_self _ _ _⟩

/-- While starts and acknowledgements find the app settled and no session left, and stops find
it settled with the engine in Connected: Connected is never shown under mode IDLE; a stop that is
about to leave mode IDLE has had its UserStop accepted and the shutdown signal sent; and from
there on Connected does not come back before the next start. -/
theorem stop_honest {tr : List (App × AppAct)} {x : App} (h : Run AppStep App.new tr x)
    (hcalm : ∀ q ∈ tr, Calm q.1 q.2) :
    (x.state.phase = .connected → x.mode ≠ .idle) ∧
    ∀ n i, x.jobs n = .setModeIdle (some i) →
      Accepted tr i ∧ Signalled tr i ∧
      ∀ tr' x', Run AppStep x tr' x' → (∀ q ∈ tr', Calm q.1 q.2) →
        (∀ q ∈ tr', ∀ n s, q.2 ≠ .launch n (.start s)) → x'.state.phase ≠ .connected := by
  obtain ⟨i, k, n, hi⟩ := inv_of_run h hcalm
  refine ⟨?_, ?_⟩
  · intro hs
    rcases hi.stage.regime with hc | ho
    · exact absurd hs hc.state
    · exact ho.mode
  · intro n' i' hjob
    obtain rfl : n' = n := hi.job_eq (by rw [hjob]; rfl)
    have hstage := hi.stage
    rw [hjob] at hstage
    obtain ⟨-, hclosed, hret⟩ := hstage
    have htrace := stopTrace_of_run h n' i' (by rw [hjob]; rfl)
    rw [hret] at htrace
    cases htrace with
    | returned haccepted hsent =>
      refine ⟨haccepted, hsent, ?_⟩
      intro tr' x' hrun hcalm' hstart
      -- the invariant of the whole run and closedness, step by step
      have hkeep : (∃ i k n, Inv x' i k n) ∧ Closed x' ∧ ∀ n, (x'.jobs n).isStart = false := by
        refine hrun.history_of (fun x a => Calm x a ∧ ∀ n s, a ≠ .launch n (.start s))
          (fun _ x => (∃ i k n, Inv x i k n) ∧ Closed x ∧ ∀ n, (x.jobs n).isStart = false) ?_ ?_
          fun q hq => ⟨hcalm' q hq, hstart q hq⟩
        · refine ⟨⟨i, k, n', hi⟩, hclosed, ?_⟩
          intro n''
          rcases eq_or_ne n'' n' with rfl | hne
          · rw [hjob]
            rfl
          · have hover := hi.others n'' hne
            cases hpc : x.jobs n'' with
            | unused | done => rfl
            | _ =>
              rw [hpc] at hover
              cases hover
        · rintro tr y a y' ⟨⟨i, k, n, hi⟩, hc, hno⟩ ⟨hcalm, ha⟩ hstep
          exact ⟨hstep.inv hcalm hi, hstep.closed hi hc hno ha⟩
      exact hkeep.2.1.state

theorem connected_stop_honest : ∃ tr x, Run AppStep App.new tr x ∧
    x.jobs 1 = .setModeIdle (some 1) ∧ x.state = .idle ∧ Accepted tr 1 ∧ Signalled tr 1 ∧
    ∀ tr' x', Run AppStep x tr' x' → (∀ q ∈ tr', Calm q.1 q.2) →
      (∀ q ∈ tr', ∀ n s, q.2 ≠ .launch n (.start s)) → x'.state.phase ≠ .connected := by
  obtain ⟨_, e, h1, hvalue, hlength, hquiescent, hcalls, hunused, htask⟩ := client_connected
  have hsettled := App.settled_of_done (.connected .client (.shown Engine.examplePeer.proxyAddr))
    .client hlength hquiescent
  have h2 : CalmStep App.new (.launch 0 (.start exampleStart)) _ :=
    ⟨.launch _ rfl, App.settled_new, fun _ => rfl⟩
  have h3 := ((((((Run.single h2).append (calm_run h1)).snoc
    ⟨.launch (n := 1) .stop rfl, hsettled, _, _, hvalue⟩).snoc
    ⟨.access (n := 1) rfl, trivial⟩).snoc ⟨.access (n := 1) rfl, trivial⟩).snoc
    ⟨.access (n := 1) rfl, trivial⟩).snoc
    ⟨.call (n := 1) (i := 1) rfl (.request _ (hunused 0)), trivial⟩
  simp only [App.setJob, Function.update_idem] at h3
  obtain ⟨_, e₁, he₁, hcall₁⟩ := stop_accepted (e.setCall 1 (.ready .userStop)) (j := 3) hvalue
    (World.calls_setCall_self e 1 _) (hcalls 0)
    ⟨0, by dsimp only [World.setCall]; rw [htask]; rfl⟩
  obtain ⟨_, h4⟩ := run_engine ⟨e.setCall 1 (.ready .userStop), .stopping .client, .client, 3,
    .waiting, Function.update (Function.update (fun _ => .unused) 0 .done) 1 (.inStop 1)⟩ he₁
  have h5 := ((h3.append (calm_run h4)).snoc ⟨.resume (n := 1) rfl hcall₁, trivial⟩).snoc
    ⟨.access (n := 1) rfl, trivial⟩
  obtain ⟨h6, hall⟩ := h5.guarded
  exact ⟨_, _, h6, rfl, rfl, (stop_honest h6 hall).2 1 1 rfl⟩

/-- A `stop` that comes while the session is connecting. -/
theorem stop_refused (e : World) {i j : ℕ} (hvalue : e.session.value = .connecting .client 1)
    (hcall : e.calls i = .ready .userStop) (hj : e.session.calls j = .idle) :
    ∃ tr e', Run OwnStep e tr e' ∧ e'.session.value = .connecting .client 1 ∧
      e'.session.delivered = e.session.delivered ∧
      (∃ ev r, e'.session.calls = Function.update e.session.calls j (.done ev r)) ∧
      e'.shutdown = e.shutdown ∧
      e'.calls i = .ready (.returned (.error .invalidTransition)) ∧ e'.tasks = e.tasks := by
  obtain ⟨⟨value, calls, written, delivered⟩, shutdown, calls', tasks⟩ := e
  subst hvalue
  have h1 : OwnStep _ (.callDispatch i j) _ := ⟨.callDispatch hcall rfl (.invoke _ hj), nofun⟩
  have h2 := ((Run.single h1).snoc ⟨.session (a := .read j) rfl
    (.read (Function.update_self _ _ _)), nofun⟩).snoc
    ⟨.callReturn (i := i) (j := j) (Function.update_self _ _ _) (Function.update_self _ _ _), nofun⟩
  exact ⟨_, _, h2, rfl, rfl, ⟨.userStop, .error .invalidTransition, Function.update_idem _ _ _⟩,
    rfl, Function.update_self _ _ _, rfl⟩

/-- `stop` while the engine is still connecting: UserStop is refused, SessionManager shows Idle
all the same, and Connected comes afterwards, with the mode IDLE. -/
theorem refused_stop_then_connected : ∃ tr y tr' x, Run AppStep App.new tr y ∧
    y.jobs 1 = .done ∧ y.state = .idle ∧ y.mode = .idle ∧
    y.engine.calls 1 = .ready (.returned (.error .invalidTransition)) ∧
    y.engine.shutdown = ⟨false, 0⟩ ∧ Run AppStep y tr' x ∧
    (∀ q ∈ tr', ∀ n l, q.2 ≠ .launch n l) ∧
    x.state = .connected .idle (.shown Engine.examplePeer.proxyAddr) ∧ x.mode = .idle := by
  obtain ⟨_, e, he, hvalue, hemitted, -, hcalls, hflag, hcall, hunused, htask, -⟩ :=
    client_call_returns
  obtain ⟨_, h1⟩ := client_reported he hcall
    ⟨[], (List.append_nil _).trans hemitted.symm⟩
  have h2 : AppStep App.new (.launch 0 (.start exampleStart)) _ := .launch _ rfl
  have h3 := ((((((Run.single h2).append (quiet_run h1).1).snoc (.launch (n := 1) .stop rfl)).snoc
    (.access (n := 1) rfl)).snoc (.access (n := 1) rfl)).snoc (.access (n := 1) rfl)).snoc
    (.call (n := 1) (i := 1) rfl (.request _ (hunused 0)))
  simp only [App.setJob, Function.update_idem] at h3
  obtain ⟨_, e₁, he₁, hvalue₁, hdelivered₁, ⟨ev, r, hcalls₁⟩, hflag₁, hcall₁, htasks₁⟩ :=
    stop_refused (e.setCall 1 (.ready .userStop)) hvalue (World.calls_setCall_self e 1 _) (hcalls 0)
  obtain ⟨_, h4⟩ := run_engine ⟨e.setCall 1 (.ready .userStop), .stopping .client, .client, 2,
    .waiting, Function.update (Function.update (fun _ => .unused) 0 .done) 1 (.inStop 1)⟩ he₁
  have h5 := (((h3.append (quiet_run h4).1).snoc (.resume (n := 1) rfl hcall₁)).snoc
    (.access (n := 1) rfl)).snoc (.access (n := 1) rfl)
  simp only [App.setJob, Function.update_idem] at h5
  -- the task knows nothing of the stop
  have hidle : e₁.session.calls 3 = .idle := by
    rw [hcalls₁]
    exact hcalls 1
  obtain ⟨_, e₂, he₂, -, hemitted₂, -⟩ := client_connects (j := 3)
    ((congrFun htasks₁ 0).trans htask) hvalue₁ hidle
  obtain ⟨_, h6⟩ := run_engine ⟨e₁, .idle, .idle, 2, .waiting,
    Function.update (Function.update (fun _ => .unused) 0 .done) 1 .done⟩ he₂
  have hnext : (⟨e₂, .idle, .idle, 2, .waiting, Function.update (Function.update (fun _ => .unused)
      0 .done) 1 .done⟩ : App).emitted[2]? = some (.connected .client Engine.examplePeer) := by
    have hold : e₁.session.delivered = e.session.delivered := hdelivered₁
    rw [App.emitted, hemitted₂, hold, hemitted]
    rfl
  obtain ⟨_, h7⟩ := event_handled rfl hnext (by decide)
  obtain ⟨h8, hquiet⟩ := quiet_run (h6.append h7)
  exact ⟨_, _, _, _, h5, rfl, rfl, rfl, hcall₁, hflag₁.trans hflag, h8, hquiet, rfl, rfl⟩

end GravitalShare.Android
