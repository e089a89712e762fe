import GravitalShare.EngineRestart
import GravitalShare.EngineShadow

/-! Whose events move the state of the session. An event carries no mark of the session its
task belongs to, so the tasks of earlier sessions are kept out only by being over. -/
namespace GravitalShare.Engine

open SharedCell

theorem Shadow.new : Shadow World.new 0 0 where
  alone := ⟨fun _ _ => ⟨_, rfl, rfl⟩, fun _ _ => ⟨_, rfl, rfl⟩,
    fun _ hj => Bool.noConfusion hj, fun _ _ _ hc => Thread.noConfusion rfl (heq_of_eq hc),
    fun hp => Bool.noConfusion hp⟩
  callFresh := trivial
  taskFresh := trivial
  orderly := Solo.Orderly.of_down rfl trivial nofun

section Runs

variable {tr : List (World × EngineAct)} {e : World}

theorem begun_of_mem (h : Run EngineStep World.new tr e) {k : ℕ} :
    ∀ q ∈ tr, q.1.Begun k → e.Begun k := by
  refine h.history (fun tr e => ∀ q ∈ tr, q.1.Begun k → e.Begun k)
    (fun _ hq => absurd hq List.not_mem_nil) ?_
  intro tr e a e' ih hstep
  have hmono (hb : e.Begun k) : e'.Begun k := by
    rcases hstep.begun_cases with hiff | ⟨i, s, rx, k', -, -, hk', rfl⟩
    · exact (hiff k).mpr hb
    · rcases (e.setCall i (.ready (.returned (.ok ())))).setTask_cases k' k (s.task rx) with
        ⟨rfl, -⟩ | ⟨-, ht⟩
      · rw [World.Begun, hk'] at hb
        exact absurd rfl hb
      · rw [World.Begun, ht]
        exact hb
  intro q hq hb
  rcases List.mem_append.mp hq with hq | hq
  · exact hmono (ih q hq hb)
  · rw [List.mem_singleton.mp hq] at hb
    exact hmono hb

/-- While sessions do not overlap, the engine is a solo engine with the latest session, and
what the steps of the solo engine preserve holds of it. -/
theorem solo_of_run {P : Solo → Prop} {C : World → EngineAct → Prop}
    (h : Run EngineStep World.new tr e) (hone : ∀ q ∈ tr, OneAtATime q.1 q.2)
    (hC : ∀ q ∈ tr, C q.1 q.2) (h0 : P (World.new.solo 0 0))
    (hstep : ∀ e a e' i k m, EngineStep e a e' → Shadow e i k → C e a → P (e.solo i k) →
      SoloStep (e.solo i k) a.solo m → P m) :
    ∃ i k, Shadow e i k ∧ ¬Superseded tr e k ∧ P (e.solo i k) := by
  -- the invariant is carried along the run, with the whole run so far at hand
  induction h with
  | nil =>
    refine ⟨0, 0, Shadow.new, ?_, h0⟩
    rintro ⟨q, hq, -⟩
    exact absurd hq List.not_mem_nil
  | @snoc tr e a e' hrun hl ih =>
    have hlast : (e, a) ∈ tr ++ [(e, a)] := List.mem_append_right _ (List.mem_singleton_self _)
    obtain ⟨i, k, hs, hcur, hP⟩ := ih (fun q hq => hone q (List.mem_append_left _ hq))
      fun q hq => hC q (List.mem_append_left _ hq)
    obtain ⟨i', k', hs', hsolo, hk, -⟩ := hl.shadow (hone _ hlast)
      (fun k => (select_ends_by_shutdown hrun k).1) hs
    refine ⟨i', k', hs', ?_, ?_⟩
    · rintro ⟨q, hq, hbegun, k₂, hnot, hbegun₂⟩
      -- a session that was not there before this step has not been superseded
      have hfresh : e.Begun k' := by
        rcases List.mem_append.mp hq with hq | hq
        · exact begun_of_mem hrun q hq hbegun
        · rw [List.mem_singleton.mp hq] at hbegun
          exact hbegun
      rcases hl.begun_cases with hiff | ⟨i₁, s, rx, k₁, -, -, hk₁, rfl⟩
      · have hb := (hiff k₂).mp hbegun₂
        rcases hk with rfl | hk
        · rcases List.mem_append.mp hq with hq | hq
          · exact hcur ⟨q, hq, hbegun, k₂, hnot, hb⟩
          · rw [List.mem_singleton.mp hq] at hnot
            exact hnot hb
        · rw [World.Begun, hk] at hfresh
          exact hfresh rfl
      · -- the new session is the one whose task is alive
        have hnew := World.tasks_setTask_self (e.setCall i₁ (.ready (.returned (.ok ())))) k₁
          (s.task rx)
        obtain rfl : k₁ = k' := by
          apply hs'.alone.task_eq (congrArg Task.thread hnew)
          intro pc hpc
          cases s <;> cases hpc <;> rfl
        rw [World.Begun, hk₁] at hfresh
        exact hfresh rfl
    · rcases hsolo with hsolo | hsolo
      · exact hstep e a e' i k _ hl hs (hC _ hlast) hP hsolo
      · rwa [hsolo]

/-- The peer of a session is the same wherever its task is. -/
theorem World.solo_peer (e : World) (i k : ℕ) :
    (e.solo i k).task.peer = (e.tasks k).thread.pc.peer := by
  have hslot : (e.solo i k).task = ((e.tasks k).thread.slot e.session).effective
    (fun pc _ => pc.resume) := rfl
  rw [hslot]
  cases (e.tasks k).thread with
  | ready pc => rfl
  | calling pc j =>
    rw [Thread.slot]
    rcases Slot.effective_calling (fun pc _ => pc.resume) pc (e.session.calls j) with h | ⟨_, h⟩
    · rw [h]
      rfl
    · rw [h]
      exact pc.peer_resume

/-- While calls are made one after the other and a session is started when the tasks of the
earlier ones have returned, only the latest session's events change the state, and Connected
carries the peer of its configuration. -/
theorem session_isolated (h : Run EngineStep World.new tr e)
    (hone : ∀ q ∈ tr, OneAtATime q.1 q.2) :
    (∀ k pc j e', (e.tasks k).thread = .calling pc j → EngineStep e (.session (.write j)) e' →
      ¬Superseded tr e k) ∧
    ∀ mode peer, e.session.value = .connected mode peer →
      ∃ k, e.Begun k ∧ ¬Superseded tr e k ∧ (e.tasks k).thread.pc.peer = some peer := by
  obtain ⟨i, k, hs, hcur, -⟩ := solo_of_run (P := fun _ => True) (C := fun _ _ => True) h hone
    (fun _ _ => trivial) trivial fun _ _ _ _ _ _ _ _ _ _ _ => trivial
  constructor
  · intro k' pc j e' ht _
    obtain rfl : k' = k := hs.alone.task_eq ht fun _ hpc => by cases hpc
    exact hcur
  · intro mode peer hv
    have hpeer := hs.orderly.peer mode peer hv
    rw [e.solo_peer] at hpeer
    refine ⟨k, ?_, hcur, hpeer⟩
    intro habsent
    rw [habsent] at hpeer
    cases hpeer

end Runs

theorem Routine.oneAtATime {e : World} {a : EngineAct} (h : Routine e a) : OneAtATime e a := by
  cases a with
  | request i r => exact ⟨h.1, h.2.1⟩
  | _ => trivial

/-- A session that is there where a run begins is superseded by every one that begins in it. -/
theorem superseded_of_begun {step : World → EngineAct → World → Prop} {e e' : World}
    {tr' : List (World × EngineAct)} {k k' : ℕ} (h : Run step e tr' e') (hold : e.Begun k)
    (hnone : ¬e.Begun k') (hnew : e'.Begun k') (tr : List (World × EngineAct)) :
    Superseded (tr ++ tr') e' k := by
  rcases h.first_mem with rfl | ⟨a, hmem⟩
  · exact absurd hnew hnone
  · exact ⟨(e, a), List.mem_append_right _ hmem, hold, k', hnone, hnew⟩

/-- A second session, started when the first one is over, up to its ProxyConnected. -/
theorem second_server_connected : ∃ tr e, Run RoutineStep World.new tr e ∧
    e.session.value = .connected .server ⟨otherServer.socksBind⟩ ∧ Superseded tr e 0 := by
  obtain ⟨_, e, h1, hvalue, hcalls, hover, hunused, htask, hnone, hdead⟩ := server_finished
  have hbegun : e.Begun 0 ∧ ¬e.Begun 1 := by
    rw [World.Begun, World.Begun, htask, hnone 0]
    exact ⟨nofun, fun hne => hne rfl⟩
  -- the run of the second session by itself, which begins where the first one ended
  obtain ⟨tr, e', hrun, hvalue', hnew⟩ : ∃ tr e', Run RoutineStep e tr e' ∧
      e'.session.value = .connected .server ⟨otherServer.socksBind⟩ ∧ e'.Begun 1 := by
    obtain ⟨⟨value, calls, written, delivered⟩, shutdown, calls', tasks⟩ := e
    subst hvalue
    have h2 : RoutineStep _ (.request 2 (.start (.server otherServer))) _ :=
      ⟨.request _ (hunused 0), hover, fun _ => hdead, nofun⟩
    have h3 := ((Run.single h2).snoc ⟨.checkState (i := 2) rfl, nofun⟩).snoc
      ⟨.callDispatch (i := 2) (j := 5) rfl rfl (.invoke _ (hcalls 0)), trivial⟩
    obtain ⟨_, h4⟩ := dispatch_completes_in (fun _ _ _ hs => ⟨hs, trivial⟩) 5 h3 rfl rfl
    have h5 := ((h4.snoc ⟨.callReturn (i := 2) rfl rfl, trivial⟩).snoc
      ⟨.subscribe (i := 2) rfl, nofun⟩).snoc
      ⟨.callDispatch (i := 2) (j := 6) rfl rfl (.invoke _ (hcalls 1)), trivial⟩
    obtain ⟨_, h6⟩ := dispatch_completes_in (fun _ _ _ hs => ⟨hs, trivial⟩) 6 h5 rfl rfl
    have h7 := ((h6.snoc ⟨.callReturn (i := 2) rfl rfl, trivial⟩).snoc
      ⟨.spawn (i := 2) (k := 1) rfl (hnone 0), nofun⟩).snoc
      ⟨.taskDispatch (k := 1) (j := 7) rfl rfl (.invoke _ (hcalls 2)), trivial⟩
    obtain ⟨_, h8⟩ := dispatch_completes_in (fun _ _ _ hs => ⟨hs, trivial⟩) 7 h7 rfl rfl
    exact ⟨_, _, h8, rfl, nofun⟩
  exact ⟨_, e', h1.append hrun, hvalue', superseded_of_begun hrun hbegun.1 hbegun.2 hnew _⟩

theorem restarted_server_isolated : ∃ tr e, Run EngineStep World.new tr e ∧ Superseded tr e 0 ∧
    e.session.value = .connected .server ⟨otherServer.socksBind⟩ ∧
    ∃ k, e.Begun k ∧ ¬Superseded tr e k ∧
      (e.tasks k).thread.pc.peer = some ⟨otherServer.socksBind⟩ := by
  obtain ⟨tr, e, hrun, hvalue, hover⟩ := second_server_connected
  obtain ⟨hrun, hroutine⟩ := hrun.guarded
  have hiso := session_isolated hrun fun q hq => (hroutine q hq).oneAtATime
  exact ⟨tr, e, hrun, hover, hvalue, hiso.2 _ _ hvalue⟩

/-- `start_server` has returned for a second session when the task of the first one gets to
dispatch ProxyConnected: the state becomes Connected with the first session's peer. -/
theorem old_session_connects : ∃ tr e e', Run EngineStep World.new tr e ∧
    e.calls 2 = .ready (.returned (.ok ())) ∧
    (e.tasks 1).thread = .ready (.server otherServer 1 .proxyConnected) ∧
    (e.tasks 0).thread = .calling (.server exampleServer 0 .proxyConnected) 8 ∧
    Superseded tr e 0 ∧ EngineStep e (.session (.write 8)) e' ∧
    e.session.value = .connecting .server 1 ∧
    e'.session.value = .connected .server ⟨exampleServer.socksBind⟩ ∧
    exampleServer.socksBind ≠ otherServer.socksBind := by
  obtain ⟨tr₁, e₁, hrun, hvalue, hcalls, hflag, -, hunused, htask, hnone⟩ := server_spawned
  obtain ⟨tr₂, e₂, hrestart, hvalue₂, hcalls₂, -, hdone₂, htasks₂⟩ := server_restarted
    (by rw [hvalue]; exact nofun) ⟨hcalls 4, hcalls 5⟩ (by rw [htask]; rfl) (hunused 1) (hnone 0)
  rw [hflag] at htasks₂
  have hidle : e₂.session.calls 8 = .idle := by
    rw [hcalls₂]
    exact hcalls 6
  have hold : (e₂.tasks 0).thread = .ready (.server exampleServer 0 .proxyConnected) := by
    rw [htasks₂]
    exact congrArg Task.thread htask
  have hnew : (e₂.tasks 1).thread = .ready (.server otherServer 1 .proxyConnected) := by
    rw [htasks₂]
    rfl
  -- the first session is there when the restart begins, the second is not
  have hbegun : e₁.Begun 0 ∧ ¬e₁.Begun 1 := by
    rw [World.Begun, World.Begun, htask, hnone 0]
    exact ⟨nofun, fun hne => hne rfl⟩
  have hdone : e₂.calls 2 = .ready (.returned (.ok ())) := by
    rw [hdone₂]
    rfl
  obtain ⟨⟨value, calls, written, delivered⟩, shutdown, calls', tasks⟩ := e₂
  subst hvalue₂
  have h1 := (hrestart.snoc
    (.taskDispatch (k := 0) (j := 8) hold rfl (.invoke _ hidle))).snoc
    (.session (a := .read 8) rfl (.read rfl))
  refine ⟨_, _, _, hrun.guarded.1.append h1, hdone, hnew, rfl,
    superseded_of_begun h1 hbegun.1 hbegun.2 ?_ _, .session rfl (.write rfl), rfl, rfl, by decide⟩
  change (tasks 1).thread.pc ≠ .absent
  rw [hnew]
  exact nofun

end GravitalShare.Engine
