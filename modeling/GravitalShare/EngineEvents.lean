import GravitalShare.EngineOutcome

/-! What the engine tells its listener. A state that is written through `dispatch` is told once
the call gets to it; a state forced to Idle is not told at all. -/
namespace GravitalShare.Engine

open SharedCell

namespace World

/-- A state has been written that the listener is still to be told. -/
def Storing (e : World) (v : SessionState) : Prop := ∃ j ev, e.session.calls j = .stored ev v

/-- No call of the engine is in progress. -/
def CallsOver (e : World) : Prop := ∀ i, ∃ pc, e.calls i = .ready pc ∧ pc.ended = true

/-- The tasks of all sessions have returned. -/
def TasksOver (e : World) : Prop := ∀ k, (e.tasks k).thread.pc.alive = false

end World

variable {e e' : World} {a : EngineAct} {i k : ℕ}

/-- A call that is over stays as it is. -/
theorem EngineStep.calls_eq_of_ended (h : EngineStep e a e') (ha : ∀ i r, a ≠ .request i r)
    {pc : CallPc} (hc : e.calls i = .ready pc) (ho : pc.ended = true) : e'.calls i = e.calls i := by
  have hset {i' : ℕ} {c c' : Thread CallPc} (hc' : e.calls i' = c')
      (hn : ∀ pc, c' = .ready pc → pc.ended = false) :
      (e.setCall i' c).calls i = e.calls i := by
    rcases e.setCall_cases i' i c with ⟨rfl, -⟩ | ⟨-, heq⟩
    · cases (hn pc (hc'.symm.trans hc)).symm.trans ho
    · exact heq
  cases h with
  | request r _ => exact absurd rfl (ha _ r)
  | checkState hc' | forceIdle hc' | subscribe hc' | spawn hc' _ =>
    exact hset hc' fun pc hpc => by cases hpc; rfl
  | sendFalse hc' _ | sendTrue hc' _ => exact hset hc' fun pc hpc => by cases hpc; rfl
  | callDispatch hc' hev _ =>
    exact hset hc' fun pc hpc => by
      cases hpc
      exact CallPc.ended_of_event hev
  | callReturn hc' _ => exact hset hc' fun _ hpc => by cases hpc
  | _ => rfl

theorem EngineStep.callsOver (h : EngineStep e a e') (ha : ∀ i r, a ≠ .request i r)
    (ho : e.CallsOver) : e'.CallsOver := by
  intro i
  obtain ⟨pc, hpc, hover⟩ := ho i
  exact ⟨pc, (h.calls_eq_of_ended ha hpc hover).trans hpc, hover⟩

/-- What a step does to the states that are being told. -/
theorem EngineStep.told_cases (h : EngineStep e a e') :
    (∃ j ev, a = .session (.write j) ∧ e'.session.delivered = e.session.delivered ∧
      e'.session.calls = Function.update e.session.calls j (.stored ev e'.session.value)) ∨
    (∃ j ev v, a = .session (.notify j) ∧ e.session.calls j = .stored ev v ∧
      e'.session.delivered = e.session.delivered ++ [(j, v)] ∧
      e'.session.calls = Function.update e.session.calls j (.done ev (.ok ()))) ∨
    (∀ j, a ≠ .session (.write j)) ∧ e'.session.delivered = e.session.delivered ∧
      ∀ j ev v, e'.session.calls j = .stored ev v ↔ e.session.calls j = .stored ev v := by
  have hsame {d : Session} {j : ℕ} {c : CallState SessionState SessionEvent EngineError}
      (hd : d.calls = Function.update e.session.calls j c) (hc : ∀ ev v, c ≠ .stored ev v)
      (hj : ∀ ev v, e.session.calls j ≠ .stored ev v) (j' : ℕ) (ev : SessionEvent)
      (v : SessionState) : d.calls j' = .stored ev v ↔ e.session.calls j' = .stored ev v := by
    rcases eq_or_ne j' j with rfl | hne
    · rw [hd, Function.update_self]
      exact iff_of_false (hc ev v) (hj ev v)
    · rw [hd, Function.update_of_ne hne]
  cases h with
  | session ha hd =>
    cases hd with
    | invoke => cases ha
    | @read j ev hc =>
      refine Or.inr (Or.inr ⟨(fun _ h => by cases h), rfl,
        hsame rfl (afterRead_ne_stored _ _ _) ?_⟩)
      rw [hc]
      exact fun _ _ h => by cases h
    | @write j ev seen next hc => exact Or.inl ⟨j, ev, rfl, rfl, rfl⟩
    | @notify j ev next hc => exact Or.inr (Or.inl ⟨j, ev, next, rfl, hc, rfl, rfl⟩)
  | callDispatch _ _ hd | taskDispatch _ _ hd =>
    cases hd with
    | invoke _ hj =>
      refine Or.inr (Or.inr ⟨(fun _ h => by cases h), rfl, hsame rfl (fun _ _ h => by cases h) ?_⟩)
      rw [hj]
      exact fun _ _ h => by cases h
  | _ => exact Or.inr (Or.inr ⟨(fun _ h => by cases h), rfl, fun _ _ _ => Iff.rfl⟩)

/-- The state changes when a dispatch writes it, and when it is forced to Idle. -/
theorem EngineStep.value_cases (h : EngineStep e a e') :
    e'.session.value = e.session.value ∨ (∃ j, a = .session (.write j)) ∨
      ∃ i s, a = .call i ∧ e.calls i = .ready (.forceIdle s) := by
  cases h with
  | @forceIdle i s hc => exact Or.inr (Or.inr ⟨i, s, rfl, hc⟩)
  | session ha hd =>
    cases hd with
    | invoke => cases ha
    | @write j => exact Or.inr (Or.inl ⟨j, rfl⟩)
    | _ => exact Or.inl rfl
  | callDispatch _ _ hd | taskDispatch _ _ hd =>
    cases hd
    exact Or.inl rfl
  | _ => exact Or.inl rfl

/-- The two ways back to Idle. -/
theorem transition_eq_idle {v : SessionState} {ev : SessionEvent}
    (h : transition v ev = .ok .idle) :
    ev = .userAcknowledge ∨ ev = .engineStopped ∧ ∃ mode reason, v = .stopping mode reason := by
  cases ev with
  | userAcknowledge => exact Or.inl rfl
  | engineStopped =>
    cases v with
    | stopping mode reason => exact Or.inr ⟨rfl, mode, reason, rfl⟩
    | _ => cases h
  | _ => cases v <;> cases h

/-- What is written is what the one call or the one task makes of the state as it is. -/
theorem Shadow.write_cases (hs : Shadow e i k) {j : ℕ}
    (h : EngineStep e (.session (.write j)) e') :
    ∃ ev, ((e.solo i k).call.event = some ev ∨ (e.solo i k).task.event = some ev) ∧
      transition e.session.value ev = .ok e'.session.value := by
  cases h with
  | session ha hd =>
    cases hd with
    | @write _ ev seen next hc =>
      have hfresh {π : Type} {event : π → Option SessionEvent} {pc : π}
          (hf : Slot.Fresh transition event e.session.value (.calling pc (e.session.calls j))) :
          event pc = some ev ∧ transition e.session.value ev = .ok next := by
        rw [hc] at hf
        obtain ⟨ev', hev, hcall⟩ := hf
        rcases hcall with hcall | ⟨_, hcall, hδ⟩ | ⟨_, hcall⟩ | ⟨_, hcall⟩ <;> cases hcall
        exact ⟨hev, hδ⟩
      rcases hs.alone.owned j (by rw [hc]; rfl) with ⟨pc, hpc⟩ | ⟨pc, hpc⟩
      · have hf := hs.callFresh
        rw [World.callSlot, hpc] at hf
        refine ⟨ev, Or.inl ?_, (hfresh hf).2⟩
        rw [World.solo, World.callSlot, hpc, Thread.slot, hc]
        exact (hfresh hf).1
      · have hf := hs.taskFresh
        rw [World.taskSlot, hpc] at hf
        refine ⟨ev, Or.inr ?_, (hfresh hf).2⟩
        rw [World.solo, World.taskSlot, hpc, Thread.slot, hc]
        exact (hfresh hf).1

namespace Solo

/-- A session is being set up. -/
def SetsUp (m : Solo) : Prop := m.call.starting = true ∨ m.task.stage = .dialing

/-- A session is being stopped. -/
def TearsDown (m : Solo) : Prop :=
  (m.call = .userStop ∨ m.call = .sendTrue) ∨ m.task.stage ≠ .down ∧ m.Stopping

variable {m m' : Solo} {a : SoloAct}

/-- The events of an engine that does not set up a session. -/
theorem event_of_not_setsUp (hno : ¬m.SetsUp) {ev : SessionEvent}
    (hev : m.call.event = some ev ∨ m.task.event = some ev) :
    ev = .userStop ∧ m.call = .userStop ∨ ev = .engineStopped ∧ m.task.stage = .leaving := by
  rcases hev with hev | hev
  · rcases CallPc.event_cases hev with ⟨s, hs, -⟩ | ⟨s, rx, hs, -⟩ | ⟨hs, rfl⟩
    · exact absurd (Or.inl (by rw [hs]; rfl)) hno
    · exact absurd (Or.inl (by rw [hs]; rfl)) hno
    · exact Or.inl ⟨rfl, hs⟩
  · rcases TaskPc.event_cases hev with ⟨hs, -⟩ | ⟨hs, rfl, -⟩
    · exact absurd (Or.inr hs) hno
    · exact Or.inr ⟨rfl, hs⟩

end Solo

theorem SoloStep.not_setsUp {m m' : Solo} {a : SoloAct} (h : SoloStep m a m')
    (ha : ∀ r, a ≠ .request r) (hno : ¬m.SetsUp) : ¬m'.SetsUp := by
  have hcall {c : CallPc} (hc : m.call = c) (hs : c.starting = true) {P : Prop} : P :=
    absurd (Or.inl (by rw [hc]; exact hs)) hno
  have htask (hs : m.task.stage = .dialing) {P : Prop} : P := absurd (Or.inr hs) hno
  cases h with
  | request r => exact absurd rfl (ha r)
  | checkState hc | forceIdle hc | sendFalse hc | subscribe hc | spawn hc => exact hcall hc rfl
  | sendTrue hc =>
    rintro (hs | hs)
    · cases hs
    · exact htask hs
  | callDispatch hev =>
    rcases Solo.event_of_not_setsUp hno (Or.inl hev) with ⟨-, hc⟩ | ⟨rfl, -⟩
    · rintro (hs | hs)
      · exact hno (Or.inl (CallPc.starting_of_resume hs))
      · exact htask hs
    · exact absurd rfl (CallPc.event_ne hev).1
  | taskDispatch hev =>
    rintro (hs | hs)
    · exact hno (Or.inl hs)
    · rcases TaskPc.event_cases hev with ⟨hd, -⟩ | ⟨-, -, hdown⟩
      · exact htask hd
      · cases hdown.symm.trans hs
  | @task a t t' pc' hstep ht ht' hp =>
    rintro (hs | hs)
    · exact hno (Or.inl hs)
    · rcases hstep.moves ht ht' with rfl | ⟨-, hiff⟩
      · exact htask hs
      · exact htask (hiff.mp hs)

/-- Without a call of `stop` no session comes to be stopped. -/
theorem SoloStep.not_tearsDown {m m' : Solo} {a : SoloAct} (h : SoloStep m a m')
    (ha : ∀ r, a ≠ .request r) (ho : m.Orderly) (hno : ¬m.TearsDown) : ¬m'.TearsDown := by
  have hdown {c : CallPc} (hc : m.call = c) (hs : c.starting = true) : m.task.stage = .down :=
    (TaskPc.alive_eq_false_iff _).mp (ho.starting (by rw [hc]; exact hs))
  have hset {c : CallPc} {v : SessionState} {flag : Watch Bool} (hd : m.task.stage = .down)
      (hc : c ≠ .userStop ∧ c ≠ .sendTrue) : ¬Solo.TearsDown ⟨c, m.task, v, flag⟩ := by
    rintro ((hs | hs) | ⟨hs, -⟩)
    · exact hc.1 hs
    · exact hc.2 hs
    · exact hs hd
  have hcall : m.call ≠ .userStop ∧ m.call ≠ .sendTrue :=
    ⟨fun hc => hno (Or.inl (Or.inl hc)), fun hc => hno (Or.inl (Or.inr hc))⟩
  cases h with
  | request r => exact absurd rfl (ha r)
  | checkState hc =>
    apply hset (hdown hc rfl)
    split <;> exact ⟨nofun, nofun⟩
  | forceIdle hc | sendFalse hc => exact hset (hdown hc rfl) ⟨nofun, nofun⟩
  | sendTrue hc => exact absurd hc hcall.2
  | @subscribe s hc =>
    apply hset (hdown hc rfl)
    cases s <;> exact ⟨nofun, nofun⟩
  | @spawn s rx hc =>
    have hexp := ho.expects
    rw [hc] at hexp
    rintro ((hs | hs) | ⟨-, mode, reason, hv⟩)
    · cases hs
    · cases hs
    · cases (show m.value = _ from hexp).symm.trans hv
  | callDispatch hev =>
    rcases CallPc.event_cases hev with ⟨s, hs, rfl⟩ | ⟨s, rx, hs, rfl⟩ | ⟨hs, -⟩
    · apply hset (hdown hs rfl)
      rw [hs]
      cases (alone transition m.value (.userStart s.mode)).1 <;> cases s <;> exact ⟨nofun, nofun⟩
    · apply hset (hdown hs rfl)
      rw [hs]
      cases (alone transition m.value .engineReady).1 <;> cases rx <;> exact ⟨nofun, nofun⟩
    · exact absurd hs hcall.1
  | taskDispatch hev =>
    rintro ((hs | hs) | ⟨hs, mode, reason, hv⟩)
    · exact hcall.1 hs
    · exact hcall.2 hs
    · rcases TaskPc.event_cases hev with ⟨hd, ⟨peer, rfl, -⟩ | ⟨rfl, -⟩⟩ | ⟨-, -, hdown'⟩
      · obtain ⟨mode', attempt, hv'⟩ := ho.dialing hd
        rw [hv'] at hv
        cases hv
      · cases hv
      · exact hs hdown'
  | @task a t t' pc' hstep ht ht' hp =>
    rintro (hs | ⟨hs, hv⟩)
    · exact hno (Or.inl hs)
    · rcases hstep.moves ht ht' with rfl | ⟨hd, -⟩
      · exact hno (Or.inr ⟨hs, hv⟩)
      · exact hno (Or.inr ⟨hd, hv⟩)

/-- A `stop` that finds the session Connected, and what becomes of it. -/
def Solo.StopsWell (m : Solo) : Prop :=
  (m.call = .userStop ∧ ∃ mode peer, m.value = .connected mode peer) ∨ m.call = .sendTrue ∨
    m.call = .returned (.ok ())

theorem SoloStep.stopsWell {m m' : Solo} {a : SoloAct} (h : SoloStep m a m')
    (ha : ∀ r, a ≠ .request r) (hno : ¬m.SetsUp) (hw : m.StopsWell) : m'.StopsWell := by
  have hcall {c : CallPc} (hc : m.call = c) (hs : c.starting = true) {P : Prop} : P :=
    absurd (Or.inl (by rw [hc]; exact hs)) hno
  cases h with
  | request r => exact absurd rfl (ha r)
  | checkState hc | forceIdle hc | sendFalse hc | subscribe hc | spawn hc => exact hcall hc rfl
  | sendTrue hc => exact Or.inr (Or.inr rfl)
  | @callDispatch ev hev =>
    rcases hw with ⟨hc, mode, peer, hv⟩ | hc | hc
    · rw [hc] at hev ⊢
      cases hev
      rw [hv]
      exact Or.inr (Or.inl rfl)
    · rw [hc] at hev
      cases hev
    · rw [hc] at hev
      cases hev
  | @taskDispatch ev hev =>
    rcases hw with ⟨hc, mode, peer, hv⟩ | hc
    · -- an EngineStopped, which is refused
      rcases Solo.event_of_not_setsUp hno (Or.inr hev) with ⟨rfl, -⟩ | ⟨rfl, -⟩
      · exact absurd rfl (TaskPc.event_ne hev).1
      · exact Or.inl ⟨hc, mode, peer, by rw [hv]; rfl⟩
    · exact Or.inr hc
  | task => exact hw

namespace World

def SetsUp (e : World) : Prop := ∃ i k, (e.solo i k).SetsUp

def TearsDown (e : World) : Prop := ∃ i k, (e.solo i k).TearsDown

/-- A session is up and nobody is doing anything about it. -/
structure Up (e : World) : Prop where
  calls : e.CallsOver
  setUp : ¬e.SetsUp
  connected : ∃ mode peer, e.session.value = .connected mode peer

end World

theorem Alone.setsUp (h : Alone e i k) (hs : e.SetsUp) : (e.solo i k).SetsUp := by
  obtain ⟨i', k', hc | ht⟩ := hs
  · left
    rcases eq_or_ne i' i with rfl | hne
    · exact hc
    · obtain ⟨pc, hpc, ho⟩ := h.calls i' hne
      rw [World.solo_call hpc, CallPc.starting_of_ended ho] at hc
      cases hc
  · right
    rcases eq_or_ne k' k with rfl | hne
    · exact ht
    · obtain ⟨pc, hpc, hd⟩ := h.tasks k' hne
      rw [World.solo_task hpc, (TaskPc.alive_eq_false_iff pc).mp hd] at ht
      cases ht

theorem Alone.tearsDown (h : Alone e i k) (hs : e.TearsDown) : (e.solo i k).TearsDown := by
  obtain ⟨i', k', hc | ⟨ht, hv⟩⟩ := hs
  · left
    rcases eq_or_ne i' i with rfl | hne
    · exact hc
    · obtain ⟨pc, hpc, ho⟩ := h.calls i' hne
      rw [World.solo_call hpc] at hc
      rcases hc with rfl | rfl <;> cases ho
  · right
    refine ⟨?_, hv⟩
    rcases eq_or_ne k' k with rfl | hne
    · exact ht
    · obtain ⟨pc, hpc, hd⟩ := h.tasks k' hne
      rw [World.solo_task hpc, (TaskPc.alive_eq_false_iff pc).mp hd] at ht
      exact absurd rfl ht

/-- An engine whose sessions do not overlap, all along. -/
structure Tracked (e : World) (i k : ℕ) : Prop where
  shadow : Shadow e i k
  polling : ∀ k, ¬(e.tasks k).plane.PollReturned

namespace Tracked

theorem new : Tracked World.new 0 0 := ⟨Shadow.new, fun _ => id⟩

theorem step (ht : Tracked e i k) (h : EngineStep e a e') (hone : OneAtATime e a) :
    ∃ i' k', Tracked e' i' k' ∧
      (SoloStep (e.solo i k) a.solo (e'.solo i' k') ∨ e'.solo i' k' = e.solo i k) ∧
      (i' = i ∨ ∃ r, a = .request i' r) := by
  obtain ⟨i', k', hs, hsolo, -, hi⟩ := h.shadow hone ht.polling ht.shadow
  exact ⟨i', k', ⟨hs, fun k => h.poll_not_returned k (ht.polling k)⟩, hsolo, hi⟩

/-- A step that is not a request is a step of the same call. -/
theorem own_step (ht : Tracked e i k) (h : EngineStep e a e') (ha : ∀ i r, a ≠ .request i r) :
    ∃ k', Tracked e' i k' ∧ (∀ r, a.solo ≠ .request r) ∧
      (SoloStep (e.solo i k) a.solo (e'.solo i k') ∨ e'.solo i k' = e.solo i k) := by
  have hone : OneAtATime e a := by
    cases a with
    | request i r => exact absurd rfl (ha i r)
    | _ => trivial
  have hsolo : ∀ r, a.solo ≠ .request r := by
    cases a with
    | request i r => exact absurd rfl (ha i r)
    | _ => exact nofun
  obtain ⟨i', k', ht', hstep, rfl | ⟨r, hr⟩⟩ := ht.step h hone
  · exact ⟨k', ht', hsolo, hstep⟩
  · exact absurd hr (ha i' r)

theorem not_setsUp (ht : Tracked e i k) (h : EngineStep e a e') (ha : ∀ i r, a ≠ .request i r)
    (hno : ¬e.SetsUp) : ¬e'.SetsUp := by
  intro hs
  obtain ⟨k', ht', hsolo, hstep | heq⟩ := ht.own_step h ha
  · exact hstep.not_setsUp hsolo (fun hm => hno ⟨i, k, hm⟩) (ht'.shadow.alone.setsUp hs)
  · have hm := ht'.shadow.alone.setsUp hs
    rw [heq] at hm
    exact hno ⟨i, k, hm⟩

theorem not_tearsDown (ht : Tracked e i k) (h : EngineStep e a e')
    (ha : ∀ i r, a ≠ .request i r) (hno : ¬e.TearsDown) : ¬e'.TearsDown := by
  intro hs
  obtain ⟨k', ht', hsolo, hstep | heq⟩ := ht.own_step h ha
  · exact hstep.not_tearsDown hsolo ht.shadow.orderly (fun hm => hno ⟨i, k, hm⟩)
      (ht'.shadow.alone.tearsDown hs)
  · have hm := ht'.shadow.alone.tearsDown hs
    rw [heq] at hm
    exact hno ⟨i, k, hm⟩

/-- Without a session that is being set up, the states written are Stopping and Idle. -/
theorem write_of_not_setsUp (ht : Tracked e i k) {j : ℕ}
    (h : EngineStep e (.session (.write j)) e') (hno : ¬e.SetsUp) :
    ((e.solo i k).call = .userStop ∧ ∃ mode, e'.session.value = .stopping mode .userRequest) ∨
      (∃ mode reason, e.session.value = .stopping mode reason) ∧ e'.session.value = .idle := by
  obtain ⟨ev, hev, hδ⟩ := ht.shadow.write_cases h
  rcases Solo.event_of_not_setsUp (fun hm => hno ⟨i, k, hm⟩) hev with ⟨rfl, hc⟩ | ⟨rfl, -⟩
  · left
    refine ⟨hc, ?_⟩
    rcases userStop_cases e.session.value with ⟨⟨mode, halone⟩, -⟩ | ⟨-, hno⟩
    · rw [alone_of_ok hδ] at halone
      exact ⟨mode, (Prod.mk.inj halone).2⟩
    · exact absurd hδ (hno _)
  · right
    cases hv : e.session.value with
    | stopping mode reason =>
      rw [hv] at hδ
      exact ⟨⟨mode, reason, rfl⟩, (Except.ok.inj hδ).symm⟩
    | _ =>
      rw [hv] at hδ
      cases hδ

/-- While no session is being stopped, Idle is not written. -/
theorem write_ne_idle (ht : Tracked e i k) {j : ℕ} (h : EngineStep e (.session (.write j)) e')
    (hno : ¬e.TearsDown) : e'.session.value ≠ .idle := by
  intro hidle
  obtain ⟨ev, hev, hδ⟩ := ht.shadow.write_cases h
  rw [hidle] at hδ
  rcases transition_eq_idle hδ with rfl | ⟨rfl, hv⟩
  · rcases hev with hev | hev
    · exact (CallPc.event_ne hev).2 rfl
    · exact (TaskPc.event_ne hev).2 rfl
  · rcases hev with hev | hev
    · exact (CallPc.event_ne hev).1 rfl
    · rcases TaskPc.event_cases hev with ⟨-, ⟨_, h, -⟩ | ⟨h, -⟩⟩ | ⟨hl, -, -⟩
      · cases h
      · cases h
      · exact hno ⟨i, k, Or.inr ⟨by rw [hl]; exact nofun, hv⟩⟩

theorem call_ended (hc : e.CallsOver) (i k : ℕ) : (e.solo i k).call.ended = true := by
  obtain ⟨pc, hpc, ho⟩ := hc i
  rw [World.solo_call hpc]
  exact ho

/-- A session that is up stays so as long as no call is made. -/
theorem up (ht : Tracked e i k) (h : EngineStep e a e') (ha : ∀ i r, a ≠ .request i r)
    (hup : e.Up) : e'.Up ∧ ∀ j, a ≠ .session (.write j) := by
  obtain ⟨mode, peer, hv⟩ := hup.connected
  have hnone (j : ℕ) : a ≠ .session (.write j) := by
    rintro rfl
    rcases ht.write_of_not_setsUp h hup.setUp with ⟨hc, -⟩ | ⟨⟨_, _, hv'⟩, -⟩
    · have ho := call_ended hup.calls i k
      rw [hc] at ho
      cases ho
    · cases hv.symm.trans hv'
  refine ⟨⟨h.callsOver ha hup.calls, ht.not_setsUp h ha hup.setUp, mode, peer, ?_⟩, hnone⟩
  rcases h.value_cases with hsame | ⟨j, hj⟩ | ⟨i', s, -, hc⟩
  · rw [hsame, hv]
  · exact absurd hj (hnone j)
  · obtain ⟨pc, hpc, ho⟩ := hup.calls i'
    cases hc.symm.trans hpc
    cases ho

theorem tasks_ready (ht : Tracked e i k) (hd : e.TasksOver) (k' : ℕ) :
    ∃ pc, (e.tasks k').thread = .ready pc ∧ pc.alive = false := by
  rcases eq_or_ne k' k with rfl | hne
  · exact ht.shadow.task_ready (hd k')
  · exact ht.shadow.alone.tasks k' hne

/-- Without a call and a task nothing happens to the session. -/
theorem at_rest (ht : Tracked e i k) (h : EngineStep e a e') (ha : ∀ i r, a ≠ .request i r)
    (hc : e.CallsOver) (hd : e.TasksOver) :
    e'.CallsOver ∧ e'.TasksOver ∧ ∀ j, a ≠ .session (.write j) := by
  refine ⟨h.callsOver ha hc, ?_, ?_⟩
  · have hset {k' : ℕ} {t : Task} (hdead : t.thread.pc.alive = false) (k'' : ℕ) :
        ((e.setTask k' t).tasks k'').thread.pc.alive = false := by
      rcases e.setTask_cases k' k'' t with ⟨-, heq⟩ | ⟨-, heq⟩
      · rw [heq]
        exact hdead
      · rw [heq]
        exact hd k''
    cases h with
    | @spawn i' s rx k' hcall _ =>
      obtain ⟨pc, hpc, ho⟩ := hc i'
      cases hcall.symm.trans hpc
      cases ho
    | @taskDispatch k' j pc ev _ hpc hev _ =>
      have hdead := hd k'
      rw [hpc] at hdead
      cases hdead.symm.trans (TaskPc.alive_of_event hev)
    | @taskReturn k' j pc ev result hpc _ =>
      obtain ⟨pc', hpc', -⟩ := ht.tasks_ready hd k'
      cases hpc.symm.trans hpc'
    | @task k' a t' hstep =>
      apply hset
      rcases hstep.stage_cases with hsame | ⟨pc, pc', hpc, -, -, hst⟩
      · rw [hsame]
        exact hd k'
      · have hdead := hd k'
        rw [hpc] at hdead
        have hdown := (TaskPc.alive_eq_false_iff pc).mp hdead
        rcases hst with ⟨hs, -⟩ | ⟨hs, -⟩ <;> cases hdown.symm.trans hs
    | _ => exact hd
  · rintro j rfl
    obtain ⟨ev, hev, -⟩ := ht.shadow.write_cases h
    rcases hev with hev | hev
    · have ho := call_ended hc i k
      rw [CallPc.ended_of_event hev] at ho
      cases ho
    · obtain ⟨pc, hpc, hdead⟩ := ht.tasks_ready hd k
      rw [World.solo_task hpc] at hev
      cases hdead.symm.trans (TaskPc.alive_of_event hev)

theorem not_setsUp_of_over (ht : Tracked e i k) (hc : e.CallsOver) (hd : e.TasksOver) :
    ¬e.SetsUp := by
  intro hs
  rcases ht.shadow.alone.setsUp hs with hs | hs
  · cases (CallPc.starting_of_ended (call_ended hc i k)).symm.trans hs
  · obtain ⟨pc, hpc, hdead⟩ := ht.tasks_ready hd k
    rw [World.solo_task hpc, (TaskPc.alive_eq_false_iff pc).mp hdead] at hs
    cases hs

end Tracked

end GravitalShare.Engine
