import GravitalShare.EngineEvents

/-! What a start tells the listener. Its own two states come first, then what the session comes
to; a call that is refused at its file descriptor tells nothing. -/
namespace GravitalShare.Engine

open SharedCell

/-- Since the listener had been told `b` states it has been told `w`, up to one state that is
written already. -/
structure World.Told (e : World) (b : ℕ) (w : List SessionState) : Prop where
  length : b ≤ e.session.delivered.length
  told : (∀ v, ¬e.Storing v) ∧ (e.session.delivered.drop b).map Prod.snd = w ∨
    ∃ j ev v, e.session.calls j = .stored ev v ∧
      (∀ j' ev' v', e.session.calls j' = .stored ev' v' → j' = j) ∧
      (e.session.delivered.drop b).map Prod.snd ++ [v] = w

section Told

variable {e e' : World} {a : EngineAct} {i k b : ℕ} {w : List SessionState}

theorem World.Told.write (ht : e.Told b w) {j : ℕ} (h : EngineStep e (.session (.write j)) e')
    (hno : ∀ v, ¬e.Storing v) : e'.Told b (w ++ [e'.session.value]) := by
  have hw : (e.session.delivered.drop b).map Prod.snd = w := by
    rcases ht.told with ⟨-, hw⟩ | ⟨j, ev, v, hj, -, -⟩
    · exact hw
    · exact absurd ⟨j, ev, hj⟩ (hno v)
  rcases h.told_cases with ⟨j', ev, ha, hd, hu⟩ | ⟨_, _, _, ha, -⟩ | ⟨hne, -⟩
  · refine ⟨by rw [hd]; exact ht.length, Or.inr ⟨j', ev, _,
      by rw [hu, Function.update_self], ?_, ?_⟩⟩
    · intro j₁ ev₁ v₁ hj₁
      rcases calls_cases hu j₁ with ⟨heq, -⟩ | heq
      · exact heq
      · exact absurd ⟨j₁, ev₁, heq.symm.trans hj₁⟩ (hno v₁)
    · rw [hd, hw]
  · cases ha
  · exact absurd rfl (hne j)

theorem World.Told.other (ht : e.Told b w) (h : EngineStep e a e')
    (hno : ∀ j, a ≠ .session (.write j)) : e'.Told b w := by
  rcases h.told_cases with ⟨j, _, ha, -⟩ | ⟨j, ev, v, -, hst, hd, hu⟩ | ⟨-, hd, hst⟩
  · exact absurd ha (hno j)
  · -- the one state that was waiting is told
    rcases ht.told with ⟨hnone, -⟩ | ⟨j₁, ev₁, v₁, hj₁, hone, hw⟩
    · exact absurd ⟨j, ev, hst⟩ (hnone v)
    · obtain rfl := hone j ev v hst
      cases hst.symm.trans hj₁
      refine ⟨?_, Or.inl ⟨?_, ?_⟩⟩
      · rw [hd, List.length_append]
        have := ht.length
        omega
      · rintro v' ⟨j', ev', hj'⟩
        rcases calls_cases hu j' with ⟨rfl, heq⟩ | heq
        · cases heq.symm.trans hj'
        · obtain rfl := hone j' ev' v' (heq.symm.trans hj')
          rw [hu, Function.update_self] at hj'
          cases hj'
      · rw [hd, List.drop_append_of_le_length ht.length, List.map_append, ← hw]
        rfl
  · rcases ht.told with ⟨hnone, hw⟩ | ⟨j, ev, v, hj, hone, hw⟩
    · refine ⟨by rw [hd]; exact ht.length, Or.inl ⟨?_, by rw [hd, hw]⟩⟩
      rintro v ⟨j, ev, hj⟩
      exact hnone v ⟨j, ev, (hst j ev v).mp hj⟩
    · refine ⟨by rw [hd]; exact ht.length, Or.inr ⟨j, ev, v, (hst j ev v).mpr hj, ?_,
        by rw [hd, hw]⟩⟩
      intro j' ev' v' hj'
      exact hone j' ev' v' ((hst j' ev' v').mp hj')

end Told

/-- What setting up a session comes to. -/
def SessionState.Reached (v : SessionState) : Prop :=
  (∃ mode peer, v = .connected mode peer) ∨
    ∃ mode err recoverable, v = .failed mode err recoverable

namespace Solo

/-- The states a start has written, read off the point it has got to. -/
def told (s : Start) (m : Solo) : List SessionState :=
  match m.call with
  | .engineReady _ _ | .subscribe (.server _) => [.preparing s.mode]
  | .subscribe (.client _ _) | .spawn _ _ => [.preparing s.mode, .connecting s.mode 1]
  | .returned (.ok ()) =>
    if m.task.stage = .dialing then [.preparing s.mode, .connecting s.mode 1]
    else [.preparing s.mode, .connecting s.mode 1, m.value]
  | _ => []

/-- A start `s` that found the state `v`, and the session it has begun. -/
def Script (s : Start) (v : SessionState) (m : Solo) : Prop :=
  match m.call with
  | .checkState s' | .forceIdle s' | .sendFalse s' | .userStart s' | .engineReady s' _
  | .subscribe s' | .spawn s' _ => s' = s ∧ s.Valid
  | .returned (.ok ()) => s.Valid ∧
      (m.task.stage = .dialing → m.value = .connecting s.mode 1) ∧
      (m.task.stage ≠ .dialing → m.value.Reached)
  | .returned (.error _) => ¬s.Valid ∧ m.task.stage = .down ∧ m.value = v
  | _ => False

end Solo

section Script

variable {s : Start} {v : SessionState} {m m' : Solo}

theorem Solo.Script.callDispatch (hs : m.Script s v) (ho : m.Orderly) {ev : SessionEvent}
    (hev : m.call.event = some ev)
    (hm : m' = { m with
      call := m.call.resume (alone transition m.value ev).1
      value := (alone transition m.value ev).2 }) :
    m'.Script s v ∧ m'.told s = m.told s ++ [m'.value] ∧ m'.value ≠ m.value := by
  subst hm
  have hexp := ho.expects
  rcases CallPc.event_cases hev with ⟨s', hc, rfl⟩ | ⟨s', rx, hc, rfl⟩ | ⟨hc, rfl⟩
  · rw [Solo.Script, hc] at hs
    obtain ⟨rfl, hvalid⟩ := hs
    rw [hc] at hexp
    rw [Solo.told, Solo.told, hc, show m.value = .idle from hexp]
    cases s' with
    | server cfg => exact ⟨⟨rfl, hvalid⟩, rfl, nofun⟩
    | client tunFd cfg => exact ⟨⟨rfl, hvalid⟩, rfl, nofun⟩
  · -- the server subscribes before EngineReady, the client afterwards
    rw [Solo.Script, hc] at hs
    obtain ⟨rfl, hvalid⟩ := hs
    rw [hc] at hexp
    rw [Solo.told, Solo.told, hc]
    cases s' with
    | server cfg =>
      cases rx with
      | none => exact hexp.elim
      | some rx =>
        rw [show m.value = _ from hexp]
        exact ⟨⟨rfl, hvalid⟩, rfl, nofun⟩
    | client tunFd cfg =>
      cases rx with
      | none =>
        rw [show m.value = _ from hexp]
        exact ⟨⟨rfl, hvalid⟩, rfl, nofun⟩
      | some rx => exact hexp.elim
  · rw [Solo.Script, hc] at hs
    exact hs.elim

/-- A task that does something belongs to a start that has returned. -/
theorem Solo.Script.returned (hs : m.Script s v) (ho : m.Orderly) (hd : m.task.stage ≠ .down) :
    m.call = .returned (.ok ()) := by
  have hnot {c : CallPc} (hc : m.call = c) (hst : c.starting = true) {P : Prop} : P :=
    absurd ((TaskPc.alive_eq_false_iff _).mp (ho.starting (by rw [hc]; exact hst))) hd
  rw [Solo.Script] at hs
  cases hc : m.call with
  | returned result =>
    rw [hc] at hs
    cases result with
    | ok u => rfl
    | error err => exact absurd hs.2.1 hd
  | unused | userStop | sendTrue =>
    rw [hc] at hs
    exact hs.elim
  | _ => exact hnot hc rfl

theorem Solo.Script.taskDispatch (hs : m.Script s v) (ho : m.Orderly) {ev : SessionEvent}
    (hev : m.task.event = some ev)
    (hm : m' = { m with
      task := m.task.resume
      value := (alone transition m.value ev).2 }) :
    m'.Script s v ∧ (m'.told s = m.told s ∧ m'.value = m.value ∧
        (∀ next, transition m.value ev ≠ .ok next) ∨
      m'.told s = m.told s ++ [m'.value] ∧ m'.value ≠ m.value) := by
  subst hm
  -- the task dispatches nothing while its start is still in progress
  have hne : m.task.stage ≠ .down := by
    intro hd
    rcases TaskPc.event_cases hev with ⟨h, -⟩ | ⟨h, -⟩ <;> cases hd.symm.trans h
  have hc := hs.returned ho hne
  rw [Solo.Script, hc] at hs
  obtain ⟨hvalid, hdial, hup⟩ := hs
  rcases TaskPc.event_cases hev with ⟨hd, hev'⟩ | ⟨hl, rfl, hdown⟩
  · have hv := hdial hd
    have hres : m.task.resume.stage ≠ .dialing := by
      rcases hev' with ⟨_, -, -, h⟩ | ⟨-, h⟩
      · rw [h]
        exact nofun
      · rw [h]
        exact nofun
    rcases hev' with ⟨peer, rfl, -, -⟩ | ⟨rfl, -⟩
    · rw [Solo.Script, Solo.told, Solo.told, hc, hv]
      dsimp only
      rw [if_neg hres, if_pos hd]
      exact ⟨⟨hvalid, fun h => absurd h hres, fun _ => Or.inl ⟨_, _, rfl⟩⟩, Or.inr ⟨rfl, nofun⟩⟩
    · rw [Solo.Script, Solo.told, Solo.told, hc, hv]
      dsimp only
      rw [if_neg hres, if_pos hd]
      exact ⟨⟨hvalid, fun h => absurd h hres, fun _ => Or.inr ⟨_, _, _, rfl⟩⟩, Or.inr ⟨rfl, nofun⟩⟩
  · -- refused in Connected as in Failed
    have hn : m.task.stage ≠ .dialing := by
      rw [hl]
      exact nofun
    have hres : m.task.resume.stage ≠ .dialing := by
      rw [hdown]
      exact nofun
    have hv : (alone transition m.value .engineStopped).2 = m.value ∧
        ∀ next, transition m.value .engineStopped ≠ .ok next := by
      rcases hup hn with ⟨_, _, hv⟩ | ⟨_, _, _, hv⟩
      · rw [hv]
        exact ⟨rfl, nofun⟩
      · rw [hv]
        exact ⟨rfl, nofun⟩
    rw [Solo.Script, Solo.told, Solo.told, hc]
    dsimp only
    rw [hv.1, if_neg hres, if_neg hn]
    exact ⟨⟨hvalid, fun h => absurd h hres, fun _ => hup hn⟩, Or.inl ⟨rfl, rfl, hv.2⟩⟩

/-- The dispatches of a start change the state, unless they are refused. -/
theorem Solo.Script.changes (hs : m.Script s v) (ho : m.Orderly) {ev : SessionEvent}
    (hev : m.call.event = some ev ∨ m.task.event = some ev) {next : SessionState}
    (hδ : transition m.value ev = .ok next) : next ≠ m.value := by
  rcases hev with hev | hev
  · have hne := (hs.callDispatch ho hev rfl).2.2
    rw [alone_of_ok hδ] at hne
    exact hne
  · obtain ⟨-, ⟨-, -, hno⟩ | ⟨-, hne⟩⟩ := hs.taskDispatch ho hev rfl
    · exact absurd hδ (hno next)
    · rw [alone_of_ok hδ] at hne
      exact hne

theorem Solo.Script.task (hs : m.Script s v) (ho : m.Orderly) {pc : TaskPc}
    (hd : m.task.stage ≠ .down) (hiff : pc.stage = .dialing ↔ m.task.stage = .dialing) :
    Script s v { m with task := pc } ∧ told s { m with task := pc } = m.told s := by
  have hc := hs.returned ho hd
  rw [Solo.Script, hc] at hs
  rw [Solo.Script, Solo.told, Solo.told, hc]
  exact ⟨⟨hs.1, fun h => hs.2.1 (hiff.mp h), fun h => hs.2.2 fun h' => h (hiff.mpr h')⟩,
    if_congr hiff rfl rfl⟩

/-- A step of the start or of its session keeps to the script, and tells what it writes. -/
theorem SoloStep.script {a : SoloAct} (h : SoloStep m a m') (ha : ∀ r, a ≠ .request r)
    (ho : m.Orderly) (hs : m.Script s v) :
    m'.Script s v ∧ (m'.told s = m.told s ∧ (a = .dispatch → m'.value = m.value) ∨
      a = .dispatch ∧ m'.told s = m.told s ++ [m'.value] ∧ m'.value ≠ m.value) := by
  cases h with
  | request r => exact absurd rfl (ha r)
  | checkState hc =>
    rw [Solo.Script, hc] at hs
    obtain ⟨rfl, hvalid⟩ := hs
    split <;> exact ⟨⟨rfl, hvalid⟩, Or.inl ⟨by rw [Solo.told, Solo.told, hc], nofun⟩⟩
  | forceIdle hc | sendFalse hc =>
    rw [Solo.Script, hc] at hs
    exact ⟨hs, Or.inl ⟨by rw [Solo.told, Solo.told, hc], nofun⟩⟩
  | sendTrue hc =>
    rw [Solo.Script, hc] at hs
    exact hs.elim
  | @subscribe s' hc =>
    rw [Solo.Script, hc] at hs
    obtain ⟨rfl, hvalid⟩ := hs
    cases s' <;>
      exact ⟨⟨rfl, hvalid⟩, Or.inl ⟨by rw [Solo.told, Solo.told, hc]; rfl, nofun⟩⟩
  | @spawn s' rx hc =>
    have hexp := ho.expects
    rw [hc] at hexp
    rw [Solo.Script, hc] at hs
    obtain ⟨rfl, hvalid⟩ := hs
    have hdial : (s'.task rx).thread.pc.stage = .dialing := by cases s' <;> rfl
    refine ⟨⟨hvalid, fun _ => hexp, fun hne => absurd hdial hne⟩, Or.inl ⟨?_, nofun⟩⟩
    rw [Solo.told, Solo.told, hc]
    exact if_pos hdial
  | callDispatch hev =>
    obtain ⟨hs', ht⟩ := hs.callDispatch ho hev rfl
    exact ⟨hs', Or.inr ⟨rfl, ht⟩⟩
  | taskDispatch hev =>
    obtain ⟨hs', ht | ht⟩ := hs.taskDispatch ho hev rfl
    · exact ⟨hs', Or.inl ⟨ht.1, fun _ => ht.2.1⟩⟩
    · exact ⟨hs', Or.inr ⟨rfl, ht⟩⟩
  | @task a t t' pc' hstep ht ht' hp =>
    rcases hstep.moves ht ht' with rfl | ⟨hd, hiff⟩
    · exact ⟨hs, Or.inl ⟨rfl, nofun⟩⟩
    · obtain ⟨hs', htold⟩ := hs.task ho hd hiff
      exact ⟨hs', Or.inl ⟨htold, nofun⟩⟩

/-- Preparing and Connecting, then Connected or Failed. -/
theorem Solo.Script.told_shape (hs : m.Script s v) :
    ∃ u, m.told s <+: [.preparing s.mode, .connecting s.mode 1, u] ∧ u.Reached := by
  -- short of its end the list goes on with anything
  have hsome {told : List SessionState} (ht : told <+: [.preparing s.mode, .connecting s.mode 1]) :
      ∃ u, told <+: [.preparing s.mode, .connecting s.mode 1, u] ∧ u.Reached :=
    ⟨.failed .client .configInvalid true, ht.trans ⟨[_], rfl⟩, Or.inr ⟨_, _, _, rfl⟩⟩
  rw [Solo.told]
  rw [Solo.Script] at hs
  split
  · exact hsome ⟨[_], rfl⟩
  · exact hsome ⟨[_], rfl⟩
  · exact hsome ⟨[], rfl⟩
  · exact hsome ⟨[], rfl⟩
  · rename_i hc
    rw [hc] at hs
    split
    · exact hsome ⟨[], rfl⟩
    · rename_i hd
      exact ⟨m.value, ⟨[], rfl⟩, hs.2.2 hd⟩
  · exact hsome ⟨_, rfl⟩

theorem Solo.Script.returned_ok (hs : m.Script s v) (hc : m.call = .returned (.ok ())) :
    s.Valid ∧ (m.told s = [.preparing s.mode, .connecting s.mode 1] ∧
      m.value = .connecting s.mode 1 ∨
      m.told s = [.preparing s.mode, .connecting s.mode 1, m.value] ∧ m.value.Reached) := by
  rw [Solo.Script, hc] at hs
  obtain ⟨hvalid, hdial, hup⟩ := hs
  refine ⟨hvalid, ?_⟩
  rw [Solo.told, hc]
  by_cases hd : m.task.stage = .dialing
  · exact Or.inl ⟨if_pos hd, hdial hd⟩
  · exact Or.inr ⟨if_neg hd, hup hd⟩

theorem Solo.Script.returned_error (hs : m.Script s v) {err : EngineError}
    (hc : m.call = .returned (.error err)) : ¬s.Valid ∧ m.told s = [] ∧ m.value = v := by
  rw [Solo.Script, hc] at hs
  refine ⟨hs.1, ?_, hs.2.2⟩
  rw [Solo.told, hc]

end Script

/-- The engine after call `i` has begun as the start `s`, when `b` states had been told and the
session was in `v`. -/
structure World.Course (e : World) (s : Start) (v : SessionState) (b i k : ℕ) : Prop where
  tracked : Tracked e i k
  script : (e.solo i k).Script s v
  told : e.Told b ((e.solo i k).told s)

section Course

variable {e e' : World} {a : EngineAct} {s : Start} {v : SessionState} {b i k : ℕ}

/-- After a start only one dispatch at a time is in flight. -/
theorem Shadow.flight_eq (hs : Shadow e i k) (hm : (e.solo i k).Script s v) {j j' : ℕ}
    (hj : (e.session.calls j).inFlight = true) (hj' : (e.session.calls j').inFlight = true) :
    j = j' := by
  have hnot {pc : CallPc} {pc' : TaskPc} {j j' : ℕ} (hj : (e.session.calls j).inFlight = true)
      (hc : e.calls i = .calling pc j) (ht : (e.tasks k).thread = .calling pc' j') : False := by
    obtain ⟨-, ev, hev⟩ := begun_of_fresh hc hs.callFresh
    have hstart (hst : pc.starting = true) : False := by
      obtain ⟨_, hpc, -⟩ := hs.alone.starting (by rw [hc]; exact hst)
      cases hpc.symm.trans ht
    rcases CallPc.event_cases hev with ⟨s', rfl, -⟩ | ⟨s', rx, rfl, -⟩ | ⟨rfl, -⟩
    · exact hstart rfl
    · exact hstart rfl
    · -- a stop has no place after a start
      rw [Solo.Script, World.solo, World.callSlot, hc, Thread.slot] at hm
      cases hcall : e.session.calls j with
      | idle | done _ _ =>
        rw [hcall] at hj
        cases hj
      | invoked _ | loaded _ _ _ | stored _ _ =>
        rw [hcall] at hm
        exact hm
  rcases hs.alone.owned j hj with ⟨pc, hc⟩ | ⟨pc, ht⟩
  · rcases hs.alone.owned j' hj' with ⟨pc', hc'⟩ | ⟨pc', ht'⟩
    · cases hc.symm.trans hc'
      rfl
    · exact (hnot hj hc ht').elim
  · rcases hs.alone.owned j' hj' with ⟨pc', hc'⟩ | ⟨pc', ht'⟩
    · exact (hnot hj' hc' ht).elim
    · cases ht.symm.trans ht'
      rfl

/-- What has been told stays told, as the start goes on. -/
theorem World.Course.step (hc : e.Course s v b i k) (h : EngineStep e a e')
    (ha : ∀ i r, a ≠ .request i r) :
    ∃ k', e'.Course s v b i k' ∧ (e.solo i k).told s <+: (e'.solo i k').told s := by
  obtain ⟨k', ht, hsolo, hstep⟩ := hc.tracked.own_step h ha
  have hscript : (e'.solo i k').Script s v ∧
      ((e'.solo i k').told s = (e.solo i k).told s ∧
        (a.solo = .dispatch → e'.session.value = e.session.value) ∨
      a.solo = .dispatch ∧ (e'.solo i k').told s = (e.solo i k).told s ++ [e'.session.value] ∧
        e'.session.value ≠ e.session.value) := by
    rcases hstep with hstep | heq
    · exact hstep.script hsolo hc.tracked.shadow.orderly hc.script
    · rw [heq]
      exact ⟨hc.script, Or.inl ⟨rfl, fun _ => congrArg Solo.value heq⟩⟩
  obtain ⟨hs', hcases⟩ := hscript
  by_cases hw : ∃ j, a = .session (.write j)
  · -- the state written is the one that is told next, since no other is waiting
    obtain ⟨j, rfl⟩ := hw
    obtain ⟨ev, hev, hδ⟩ := hc.tracked.shadow.write_cases h
    have hne := hc.script.changes hc.tracked.shadow.orderly hev hδ
    rcases hcases with ⟨-, hv⟩ | ⟨-, htold, -⟩
    · exact absurd (hv rfl) hne
    · refine ⟨k', ⟨ht, hs', ?_⟩, ?_⟩
      · rw [htold]
        refine hc.told.write h ?_
        rintro v' ⟨j', ev', hj'⟩
        cases h with
        | session ha' hd =>
          cases hd with
          | write hl =>
            obtain rfl := hc.tracked.shadow.flight_eq hc.script (by rw [hl]; rfl)
              (by rw [hj']; rfl : (e.session.calls j').inFlight = true)
            cases hl.symm.trans hj'
      · rw [htold]
        exact List.prefix_append _ _
  · have htold : (e'.solo i k').told s = (e.solo i k).told s := by
      rcases hcases with ⟨htold, -⟩ | ⟨hdisp, -, hne⟩
      · exact htold
      · rcases h.value_cases with hv | hw' | ⟨_, _, rfl, -⟩
        · exact absurd hv hne
        · exact absurd hw' hw
        · cases hdisp
    refine ⟨k', ⟨ht, hs', ?_⟩, ?_⟩
    · rw [htold]
      exact hc.told.other h fun j hj => hw ⟨j, hj⟩
    · exact ⟨[], (List.append_nil _).trans htold.symm⟩

/-- A start that finds the engine at rest. -/
theorem World.Course.request (ht : Tracked e i k) (hc : e.CallsOver) (hd : e.TasksOver)
    (hno : ∀ v, ¬e.Storing v) {i' : ℕ} (h : EngineStep e (.request i' (.start s)) e') :
    e'.Course s e.session.value e.session.delivered.length i' k := by
  cases h with
  | request _ hunused =>
    obtain ⟨hshadow, -⟩ := ht.shadow.request (.start s) ⟨hc, fun _ => hd⟩
    have hcall := World.solo_call (k := k) (World.calls_setCall_self e i'
      (.ready (Request.start s).entry))
    have htask : (World.solo (e.setCall i' (.ready (Request.start s).entry)) i' k).task.stage =
        .down := by
      obtain ⟨pc, hpc, hdead⟩ := ht.tasks_ready hd k
      rw [World.solo_task (e := e.setCall i' _) hpc]
      exact (TaskPc.alive_eq_false_iff pc).mp hdead
    have htold : World.Told (e.setCall i' (.ready (Request.start s).entry))
        e.session.delivered.length [] := by
      refine ⟨le_rfl, Or.inl ⟨hno, ?_⟩⟩
      rw [World.setCall, List.drop_length]
      rfl
    rcases s.entry_cases with ⟨hvalid, hentry⟩ | ⟨hvalid, hentry⟩
    · have hcall := hcall.trans hentry
      refine ⟨⟨hshadow, ht.polling⟩, ?_, ?_⟩
      · rw [Solo.Script, hcall]
        exact ⟨rfl, hvalid⟩
      · rw [Solo.told, hcall]
        exact htold
    · have hcall := hcall.trans hentry
      refine ⟨⟨hshadow, ht.polling⟩, ?_, ?_⟩
      · rw [Solo.Script, hcall]
        exact ⟨hvalid, htask, rfl⟩
      · rw [Solo.told, hcall]
        exact htold

/-- What the listener hears next is what has been told next. -/
theorem World.Told.next {w : List SessionState} (ht : e.Told b w) {n : ℕ} {v : SessionState}
    (hv : (e.session.delivered.map Prod.snd)[b+n]? = some v) : w[n]? = some v := by
  have hdrop : ((e.session.delivered.drop b).map Prod.snd)[n]? = some v := by
    rw [List.map_drop, List.getElem?_drop]
    exact hv
  rcases ht.told with ⟨-, hw⟩ | ⟨_, _, u, -, -, hw⟩
  · rw [← hw]
    exact hdrop
  · rw [← hw, List.getElem?_append_left (List.getElem?_eq_some_iff.mp hdrop).1]
    exact hdrop

theorem World.Told.length_eq {w : List SessionState} (ht : e.Told b w)
    (hno : ∀ v, ¬e.Storing v) : b + w.length = e.session.delivered.length := by
  rcases ht.told with ⟨-, hw⟩ | ⟨j, ev, v, hj, -⟩
  · have := ht.length
    rw [← hw, List.length_map, List.length_drop]
    omega
  · exact absurd ⟨j, ev, hj⟩ (hno v)

end Course

end GravitalShare.Engine
