import GravitalShare.EngineShutdown
import GravitalShare.EngineSolo

/-! An engine whose sessions do not overlap is the solo engine: all but one call and one task
are over, and every dispatch acts as one step. -/
namespace GravitalShare.Engine

open SharedCell

/-- A thread together with the call of `dispatch` it is in. -/
def Thread.slot {π : Type} (d : Session) :
    Thread π → Slot π SessionState SessionEvent EngineError
  | .ready pc => .ready pc
  | .calling pc j => .calling pc (d.calls j)

namespace World

def callSlot (e : World) (i : ℕ) : Slot CallPc SessionState SessionEvent EngineError :=
  (e.calls i).slot e.session

def taskSlot (e : World) (k : ℕ) : Slot TaskPc SessionState SessionEvent EngineError :=
  (e.tasks k).thread.slot e.session

/-- The engine as its call `i` and the task of its session `k` see it. -/
def solo (e : World) (i k : ℕ) : Solo :=
  ⟨(e.callSlot i).effective CallPc.resume, (e.taskSlot k).effective fun pc _ => pc.resume,
    e.session.value, e.shutdown⟩

end World

def EngineAct.solo : EngineAct → SoloAct
  | .request _ r => .request r
  | .call _ => .call
  | .task _ a => .task a
  | .callDispatch _ _ | .callReturn _ _ | .session _ | .taskDispatch _ _ | .taskReturn _ _ =>
    .dispatch

/-- Calls are made one after the other, and a session is started when no task is left. -/
def OneAtATime (e : World) : EngineAct → Prop
  | .request _ r => (∀ i, ∃ pc, e.calls i = .ready pc ∧ pc.ended = true) ∧
      (r.isStart = true → ∀ k, (e.tasks k).thread.pc.alive = false)
  | _ => True

/-- Nobody but call `i` and the task of session `k` has anything left to do. -/
structure Alone (e : World) (i k : ℕ) : Prop where
  calls : ∀ i', i' ≠ i → ∃ pc, e.calls i' = .ready pc ∧ pc.ended = true
  tasks : ∀ k', k' ≠ k → ∃ pc, (e.tasks k').thread = .ready pc ∧ pc.alive = false
  owned : ∀ j, (e.session.calls j).inFlight = true →
    (∃ pc, e.calls i = .calling pc j) ∨ ∃ pc, (e.tasks k).thread = .calling pc j
  distinct : ∀ pc pc' j, e.calls i = .calling pc j → (e.tasks k).thread ≠ .calling pc' j
  starting : (e.calls i).pc.starting = true →
    ∃ pc, (e.tasks k).thread = .ready pc ∧ pc.alive = false

/-- What they have read stands, and the solo engine they make up is in order. -/
structure Shadow (e : World) (i k : ℕ) : Prop where
  alone : Alone e i k
  callFresh : (e.callSlot i).Fresh transition CallPc.event e.session.value
  taskFresh : (e.taskSlot k).Fresh transition TaskPc.event e.session.value
  orderly : (e.solo i k).Orderly

variable {e e' : World} {a : EngineAct} {i k : ℕ}

theorem Alone.call_eq (h : Alone e i k) {i' : ℕ} {c : Thread CallPc} (hc : e.calls i' = c)
    (hover : ∀ pc, c = .ready pc → pc.ended = false) : i' = i := by
  by_contra hne
  obtain ⟨pc, hpc, ho⟩ := h.calls i' hne
  cases (hover pc (hc.symm.trans hpc)).symm.trans ho

theorem Alone.task_eq (h : Alone e i k) {k' : ℕ} {c : Thread TaskPc}
    (hc : (e.tasks k').thread = c) (halive : ∀ pc, c = .ready pc → pc.alive = true) : k' = k := by
  by_contra hne
  obtain ⟨pc, hpc, ho⟩ := h.tasks k' hne
  cases (halive pc (hc.symm.trans hpc)).symm.trans ho

theorem TaskPc.alive_of_event {pc : TaskPc} {ev : SessionEvent} (h : pc.event = some ev) :
    pc.alive = true := by
  by_contra hn
  have hd := (alive_eq_false_iff pc).mp (Bool.eq_false_of_not_eq_true hn)
  rcases event_cases h with ⟨hs, -⟩ | ⟨hs, -⟩ <;> cases hd.symm.trans hs

theorem CallPc.ended_of_event {pc : CallPc} {ev : SessionEvent} (h : pc.event = some ev) :
    pc.ended = false := by
  rcases event_cases h with ⟨s, rfl, -⟩ | ⟨s, rx, rfl, -⟩ | ⟨rfl, -⟩ <;> rfl

/-- A thread in a call has begun it. -/
theorem begun_of_fresh {π : Type} {event : π → Option SessionEvent} {d : Session}
    {c : Thread π} {pc : π} {j : ℕ} {v : SessionState} (hc : c = .calling pc j)
    (hf : (c.slot d).Fresh transition event v) : d.calls j ≠ .idle ∧ ∃ ev, event pc = some ev := by
  subst hc
  obtain ⟨ev, hev, hcall⟩ := hf
  refine ⟨?_, ev, hev⟩
  intro hidle
  rcases hcall with hc | ⟨_, hc, _⟩ | ⟨_, hc⟩ | ⟨_, hc⟩ <;> cases hidle.symm.trans hc

/-- A task that is not alive is not inside a call. -/
theorem Shadow.task_ready (h : Shadow e i k) (hd : (e.tasks k).thread.pc.alive = false) :
    ∃ pc, (e.tasks k).thread = .ready pc ∧ pc.alive = false := by
  cases ht : (e.tasks k).thread with
  | ready pc =>
    rw [ht] at hd
    exact ⟨pc, rfl, hd⟩
  | calling pc j =>
    rw [ht] at hd
    obtain ⟨-, ev, hev⟩ := begun_of_fresh ht h.taskFresh
    cases hd.symm.trans (TaskPc.alive_of_event hev)

theorem World.solo_call {pc : CallPc} (h : e.calls i = .ready pc) : (e.solo i k).call = pc := by
  rw [solo, callSlot, h]
  rfl

theorem World.solo_task {pc : TaskPc} (h : (e.tasks k).thread = .ready pc) :
    (e.solo i k).task = pc := by
  rw [solo, taskSlot, h]
  rfl

/-- A step of call `i` inside `dispatch`. -/
theorem Shadow.callStep (hs : Shadow e i k) (ha : Alone e' i k)
    (hstep : SlotStep transition CallPc.event CallPc.resume e.session.value (e.callSlot i)
      e'.session.value (e'.callSlot i))
    (htask : e'.taskSlot k = e.taskSlot k) (hflag : e'.shutdown = e.shutdown) :
    Shadow e' i k ∧
      (SoloStep (e.solo i k) .dispatch (e'.solo i k) ∨ e'.solo i k = e.solo i k) := by
  obtain ⟨hfresh, hatomic⟩ := hstep.atomic hs.callFresh
  have hsolo : SoloStep (e.solo i k) .dispatch (e'.solo i k) ∨ e'.solo i k = e.solo i k := by
    rcases hatomic with ⟨hv, heff⟩ | ⟨ev, hev, hv, heff⟩
    · right
      simp only [World.solo, hv, heff, htask, hflag]
    · left
      have hd : SoloStep (e.solo i k) .dispatch _ := .callDispatch hev
      simp only [World.solo, hv, heff, htask, hflag]
      exact hd
  refine ⟨⟨ha, hfresh, ?_, ?_⟩, hsolo⟩
  · rw [htask]
    apply hstep.fresh_other (fun pc _ => pc.resume) hs.callFresh hs.taskFresh
    intro ev next hev hn ev' next' hev'
    exact hs.orderly.exclusive hev hn hev'
  · rcases hsolo with hsolo | hsolo
    · exact hsolo.orderly hs.orderly
    · rw [hsolo]
      exact hs.orderly

/-- A step of the task of session `k` inside `dispatch`. -/
theorem Shadow.taskStep (hs : Shadow e i k) (ha : Alone e' i k)
    (hstep : SlotStep transition TaskPc.event (fun pc _ => pc.resume) e.session.value
      (e.taskSlot k) e'.session.value (e'.taskSlot k))
    (hcall : e'.callSlot i = e.callSlot i) (hflag : e'.shutdown = e.shutdown) :
    Shadow e' i k ∧
      (SoloStep (e.solo i k) .dispatch (e'.solo i k) ∨ e'.solo i k = e.solo i k) := by
  obtain ⟨hfresh, hatomic⟩ := hstep.atomic hs.taskFresh
  have hsolo : SoloStep (e.solo i k) .dispatch (e'.solo i k) ∨ e'.solo i k = e.solo i k := by
    rcases hatomic with ⟨hv, heff⟩ | ⟨ev, hev, hv, heff⟩
    · right
      simp only [World.solo, hv, heff, hcall, hflag]
    · left
      have hd : SoloStep (e.solo i k) .dispatch _ := .taskDispatch hev
      simp only [World.solo, hv, heff, hcall, hflag]
      exact hd
  refine ⟨⟨ha, ?_, hfresh, ?_⟩, hsolo⟩
  · rw [hcall]
    apply hstep.fresh_other CallPc.resume hs.taskFresh hs.callFresh
    intro ev next hev hn ev' next' hev' hn'
    exact hs.orderly.exclusive hev' hn' hev hn
  · rcases hsolo with hsolo | hsolo
    · exact hsolo.orderly hs.orderly
    · rw [hsolo]
      exact hs.orderly

theorem Thread.slot_congr {π : Type} {c : Thread π} {d d' : Session}
    (h : ∀ pc j, c = .calling pc j → d'.calls j = d.calls j) : c.slot d' = c.slot d := by
  cases c with
  | ready pc => rfl
  | calling pc j => rw [slot, slot, h pc j rfl]

/-- A step of call `i` outside `dispatch`. -/
theorem Shadow.localCall (hs : Shadow e i k) (e' : World) {pc pc' : CallPc} {a : SoloAct}
    (h : e.calls i = .ready pc) (hcalls : e'.calls = (e.setCall i (.ready pc')).calls)
    (htasks : e'.tasks = e.tasks) (hsession : e'.session.calls = e.session.calls)
    (hstart : pc'.starting = true → pc.starting = true)
    (hvalue : e'.session.value = e.session.value ∨ pc.starting = true)
    (hstep : SoloStep (e.solo i k) a ⟨pc', (e.solo i k).task, e'.session.value, e'.shutdown⟩) :
    Shadow e' i k ∧ SoloStep (e.solo i k) a (e'.solo i k) := by
  have hcall : e'.calls i = .ready pc' := by rw [hcalls, World.calls_setCall_self]
  have htask : e'.taskSlot k = e.taskSlot k := by
    rw [World.taskSlot, World.taskSlot, htasks]
    exact Thread.slot_congr fun _ _ _ => by rw [hsession]
  have hsolo : e'.solo i k = ⟨pc', (e.solo i k).task, e'.session.value, e'.shutdown⟩ := by
    rw [World.solo, htask, World.callSlot, hcall]
    rfl
  have hstarting (hp : pc.starting = true) :
      ∃ pc, (e.tasks k).thread = .ready pc ∧ pc.alive = false :=
    hs.alone.starting (by rw [h]; exact hp)
  rw [← hsolo] at hstep
  refine ⟨⟨⟨?_, ?_, ?_, ?_, ?_⟩, ?_, ?_, hstep.orderly hs.orderly⟩, hstep⟩
  · intro i' hne
    rw [hcalls]
    rcases e.setCall_cases i i' (.ready pc') with ⟨heq, -⟩ | ⟨-, hc⟩
    · exact absurd heq hne
    · rw [hc]
      exact hs.alone.calls i' hne
  · rw [htasks]
    exact hs.alone.tasks
  · intro j hj
    rw [hsession] at hj
    rcases hs.alone.owned j hj with ⟨pc₁, hc⟩ | ht
    · cases h.symm.trans hc
    · rw [htasks]
      exact Or.inr ht
  · intro pc₁ pc₂ j hc
    cases hcall.symm.trans hc
  · intro hp
    rw [hcall] at hp
    rw [htasks]
    exact hstarting (hstart hp)
  · rw [World.callSlot, hcall]
    trivial
  · rw [htask]
    rcases hvalue with hv | hp
    · rw [hv]
      exact hs.taskFresh
    · obtain ⟨pc₁, ht, -⟩ := hstarting hp
      rw [World.taskSlot, ht]
      trivial

/-- A call is made. -/
theorem Shadow.request (hs : Shadow e i k) {i' : ℕ} (r : Request)
    (hone : OneAtATime e (.request i' r)) :
    Shadow (e.setCall i' (.ready r.entry)) i' k ∧
      SoloStep (e.solo i k) (.request r) ((e.setCall i' (.ready r.entry)).solo i' k) := by
  obtain ⟨hover, hdead⟩ := hone
  obtain ⟨pc, hpc, hpo⟩ := hover i
  have hready (hr : r.isStart = true) :
      ∃ pc, (e.tasks k).thread = .ready pc ∧ pc.alive = false := hs.task_ready (hdead hr k)
  have hstep : SoloStep (e.solo i k) (.request r) ((e.setCall i' (.ready r.entry)).solo i' k) := by
    have hsolo :
        (e.setCall i' (.ready r.entry)).solo i' k = { e.solo i k with call := r.entry } := by
      rw [World.solo, World.callSlot, World.calls_setCall_self]
      rfl
    rw [hsolo]
    apply SoloStep.request r
    · rw [World.solo_call hpc]
      exact hpo
    · intro hr
      obtain ⟨pc', ht, hd⟩ := hready hr
      rw [World.solo_task ht]
      exact hd
  have hcall : (e.setCall i' (.ready r.entry)).calls i' = .ready r.entry :=
    World.calls_setCall_self e i' _
  refine ⟨⟨⟨?_, hs.alone.tasks, ?_, ?_, ?_⟩, ?_, hs.taskFresh, hstep.orderly hs.orderly⟩, hstep⟩
  · intro i'' hne
    rcases e.setCall_cases i' i'' (.ready r.entry) with ⟨heq, -⟩ | ⟨-, hc⟩
    · exact absurd heq hne
    · rw [hc]
      exact hover i''
  · intro j hj
    rcases hs.alone.owned j hj with ⟨pc₁, hc⟩ | ht
    · cases hpc.symm.trans hc
    · exact Or.inr ht
  · intro pc₁ pc₂ j hc
    cases hcall.symm.trans hc
  · intro hp
    rw [hcall] at hp
    apply hready
    rcases r with (_ | _) | _ | _
    · rfl
    · rfl
    · cases hp
    · cases hp
  · rw [World.callSlot, hcall]
    trivial

/-- The task of a new session takes the place of one that is over. -/
theorem Shadow.spawn (hs : Shadow e i k) {s : Start} {rx : ℕ} (k' : ℕ)
    (h : e.calls i = .ready (.spawn s rx)) :
    Shadow ((e.setCall i (.ready (.returned (.ok ())))).setTask k' (s.task rx)) i k' ∧
      SoloStep (e.solo i k) .call
        (((e.setCall i (.ready (.returned (.ok ())))).setTask k' (s.task rx)).solo i k') := by
  obtain ⟨pc, hpc, hdead⟩ := hs.alone.starting (by rw [h]; rfl)
  have hthread : ∃ pc, (s.task rx).thread = .ready pc := by cases s <;> exact ⟨_, rfl⟩
  obtain ⟨pc', hpc'⟩ := hthread
  have hcall : ((e.setCall i (.ready (.returned (.ok ())))).setTask k' (s.task rx)).calls i =
      .ready (.returned (.ok ())) := World.calls_setCall_self e i _
  have htask : ((e.setCall i (.ready (.returned (.ok ())))).setTask k' (s.task rx)).tasks k' =
      s.task rx := World.tasks_setTask_self _ k' _
  have hstep : SoloStep (e.solo i k) .call
      (((e.setCall i (.ready (.returned (.ok ())))).setTask k' (s.task rx)).solo i k') := by
    have hsolo : ((e.setCall i (.ready (.returned (.ok ())))).setTask k' (s.task rx)).solo i k' =
        { e.solo i k with call := .returned (.ok ()), task := (s.task rx).thread.pc } := by
      rw [World.solo, World.callSlot, World.taskSlot, hcall, htask, hpc']
      rfl
    rw [hsolo]
    exact .spawn (World.solo_call h)
  refine ⟨⟨⟨?_, ?_, ?_, ?_, ?_⟩, ?_, ?_, hstep.orderly hs.orderly⟩, hstep⟩
  · intro i' hne
    rcases e.setCall_cases i i' (.ready (.returned (.ok ()))) with ⟨heq, -⟩ | ⟨-, hc⟩
    · exact absurd heq hne
    · obtain ⟨pc₁, hc₁, ho₁⟩ := hs.alone.calls i' hne
      exact ⟨pc₁, hc.trans hc₁, ho₁⟩
  · intro k'' hne
    rcases (e.setCall i (.ready (.returned (.ok ())))).setTask_cases k' k'' (s.task rx) with
      ⟨heq, -⟩ | ⟨-, ht⟩
    · exact absurd heq hne
    · rw [ht]
      rcases eq_or_ne k'' k with rfl | hk
      · exact ⟨pc, hpc, hdead⟩
      · exact hs.alone.tasks k'' hk
  · intro j hj
    rcases hs.alone.owned j hj with ⟨pc₁, hc⟩ | ⟨pc₁, ht⟩
    · cases h.symm.trans hc
    · cases hpc.symm.trans ht
  · intro pc₁ pc₂ j hc
    cases hcall.symm.trans hc
  · intro hp
    rw [hcall] at hp
    cases hp
  · rw [World.callSlot, hcall]
    trivial
  · rw [World.taskSlot, htask, hpc']
    trivial

/-- Two threads that have begun their calls do not share one that begins now. -/
theorem Shadow.ne_of_idle (hs : Shadow e i k) {j : ℕ} (hj : e.session.calls j = .idle) :
    (∀ pc j', e.calls i = .calling pc j' → j' ≠ j) ∧
      ∀ pc j', (e.tasks k).thread = .calling pc j' → j' ≠ j := by
  constructor
  · rintro pc j' hc rfl
    exact (begun_of_fresh hc hs.callFresh).1 hj
  · rintro pc j' hc rfl
    exact (begun_of_fresh hc hs.taskFresh).1 hj

theorem inFlight_update {d : Session} {j j' : ℕ}
    {c : CallState SessionState SessionEvent EngineError}
    (h : (Function.update d.calls j c j').inFlight = true) :
    j' = j ∨ (d.calls j').inFlight = true := by
  rcases eq_or_ne j' j with rfl | hne
  · exact Or.inl rfl
  · rw [Function.update_of_ne hne] at h
    exact Or.inr h

/-- The call enters `dispatch`. -/
theorem Shadow.callDispatch (hs : Shadow e i k) {pc : CallPc} {ev : SessionEvent} {j : ℕ}
    (h : e.calls i = .ready pc) (hev : pc.event = some ev) (hj : e.session.calls j = .idle)
    (he : e' = { e.setCall i (.calling pc j) with session := e.session.setCall j (.invoked ev) }) :
    Shadow e' i k ∧ (SoloStep (e.solo i k) .dispatch (e'.solo i k) ∨ e'.solo i k = e.solo i k) := by
  subst he
  have hcall := World.calls_setCall_self e i (.calling pc j)
  have hnew : (e.session.setCall j (.invoked ev)).calls j = .invoked ev :=
    Function.update_self _ _ _
  apply hs.callStep
  · refine ⟨?_, hs.alone.tasks, ?_, ?_, ?_⟩
    · intro i' hne
      rcases e.setCall_cases i i' (.calling pc j) with ⟨heq, -⟩ | ⟨-, hc⟩
      · exact absurd heq hne
      · obtain ⟨pc₁, hc₁, ho₁⟩ := hs.alone.calls i' hne
        exact ⟨pc₁, hc.trans hc₁, ho₁⟩
    · intro j' hj'
      rcases inFlight_update hj' with rfl | hj'
      · exact Or.inl ⟨pc, hcall⟩
      · rcases hs.alone.owned j' hj' with ⟨pc₁, hc⟩ | ht
        · cases h.symm.trans hc
        · exact Or.inr ht
    · intro pc₁ pc₂ j' hc ht
      cases hcall.symm.trans hc
      exact (hs.ne_of_idle hj).2 pc₂ j ht rfl
    · intro hp
      apply hs.alone.starting
      rw [h]
      have hpc : ((e.setCall i (.calling pc j)).calls i).pc.starting = true := hp
      rwa [hcall] at hpc
  · have hslot : World.callSlot { e.setCall i (.calling pc j) with
        session := e.session.setCall j (.invoked ev) } i = .calling pc (.invoked ev) := by
      rw [World.callSlot, hcall, Thread.slot, hnew]
    rw [hslot, World.callSlot, h]
    exact .invoke hev
  · apply Thread.slot_congr
    intro pc₁ j' ht
    exact Function.update_of_ne ((hs.ne_of_idle hj).2 pc₁ j' ht) _ _
  · rfl

theorem Shadow.taskDispatch (hs : Shadow e i k) {pc : TaskPc} {ev : SessionEvent} {j : ℕ}
    (h : (e.tasks k).thread = .ready pc) (hev : pc.event = some ev)
    (hj : e.session.calls j = .idle)
    (he : e' = { e.setTask k { e.tasks k with thread := .calling pc j } with
      session := e.session.setCall j (.invoked ev) }) :
    Shadow e' i k ∧ (SoloStep (e.solo i k) .dispatch (e'.solo i k) ∨ e'.solo i k = e.solo i k) := by
  subst he
  have htask := World.tasks_setTask_self e k { e.tasks k with thread := .calling pc j }
  have hnew : (e.session.setCall j (.invoked ev)).calls j = .invoked ev :=
    Function.update_self _ _ _
  apply hs.taskStep
  · refine ⟨hs.alone.calls, ?_, ?_, ?_, ?_⟩
    · intro k' hne
      rcases e.setTask_cases k k' { e.tasks k with thread := .calling pc j } with
        ⟨heq, -⟩ | ⟨-, ht⟩
      · exact absurd heq hne
      · obtain ⟨pc₁, ht₁, hd₁⟩ := hs.alone.tasks k' hne
        exact ⟨pc₁, (congrArg Task.thread ht).trans ht₁, hd₁⟩
    · intro j' hj'
      rcases inFlight_update hj' with rfl | hj'
      · exact Or.inr ⟨pc, congrArg Task.thread htask⟩
      · rcases hs.alone.owned j' hj' with hc | ⟨pc₁, ht⟩
        · exact Or.inl hc
        · cases h.symm.trans ht
    · intro pc₁ pc₂ j' hc ht
      cases (congrArg Task.thread htask).symm.trans ht
      exact (hs.ne_of_idle hj).1 pc₁ j hc rfl
    · intro hp
      obtain ⟨pc₁, ht, hd⟩ := hs.alone.starting hp
      cases h.symm.trans ht
      cases hd.symm.trans (TaskPc.alive_of_event hev)
  · have hslot : World.taskSlot { e.setTask k { e.tasks k with thread := .calling pc j } with
        session := e.session.setCall j (.invoked ev) } k = .calling pc (.invoked ev) := by
      rw [World.taskSlot, htask, Thread.slot, hnew]
    rw [hslot, World.taskSlot, h]
    exact .invoke hev
  · apply Thread.slot_congr
    intro pc₁ j' hc
    exact Function.update_of_ne ((hs.ne_of_idle hj).1 pc₁ j' hc) _ _
  · rfl

/-- The call returns from `dispatch`. -/
theorem Shadow.callReturn (hs : Shadow e i k) {pc : CallPc} {ev : SessionEvent} {j : ℕ}
    {result : Except EngineError Unit} (h : e.calls i = .calling pc j)
    (hd : e.session.calls j = .done ev result) (he : e' = e.setCall i (.ready (pc.resume result))) :
    Shadow e' i k ∧ (SoloStep (e.solo i k) .dispatch (e'.solo i k) ∨ e'.solo i k = e.solo i k) := by
  subst he
  have hcall := World.calls_setCall_self e i (.ready (pc.resume result))
  apply hs.callStep
  · refine ⟨?_, hs.alone.tasks, ?_, ?_, ?_⟩
    · intro i' hne
      rcases e.setCall_cases i i' (.ready (pc.resume result)) with ⟨heq, -⟩ | ⟨-, hc⟩
      · exact absurd heq hne
      · rw [hc]
        exact hs.alone.calls i' hne
    · intro j' hj'
      rcases hs.alone.owned j' hj' with ⟨pc₁, hc⟩ | ht
      · -- the call that returns is no longer in flight
        cases h.symm.trans hc
        rw [show (e.setCall i (.ready (pc.resume result))).session = e.session from rfl, hd] at hj'
        cases hj'
      · exact Or.inr ht
    · intro pc₁ pc₂ j' hc
      cases hcall.symm.trans hc
    · intro hp
      apply hs.alone.starting
      rw [hcall] at hp
      rw [h]
      exact CallPc.starting_of_resume hp
  · have hslot : e.callSlot i = .calling pc (.done ev result) := by
      rw [World.callSlot, h, Thread.slot, hd]
    rw [hslot, World.callSlot, hcall]
    exact .ret
  · rfl
  · rfl

theorem Shadow.taskReturn (hs : Shadow e i k) {pc : TaskPc} {ev : SessionEvent} {j : ℕ}
    {result : Except EngineError Unit} (h : (e.tasks k).thread = .calling pc j)
    (hd : e.session.calls j = .done ev result)
    (he : e' = e.setTask k { e.tasks k with thread := .ready pc.resume }) :
    Shadow e' i k ∧ (SoloStep (e.solo i k) .dispatch (e'.solo i k) ∨ e'.solo i k = e.solo i k) := by
  subst he
  have htask := World.tasks_setTask_self e k { e.tasks k with thread := .ready pc.resume }
  apply hs.taskStep
  · refine ⟨hs.alone.calls, ?_, ?_, ?_, ?_⟩
    · intro k' hne
      rcases e.setTask_cases k k' { e.tasks k with thread := .ready pc.resume } with
        ⟨heq, -⟩ | ⟨-, ht⟩
      · exact absurd heq hne
      · rw [ht]
        exact hs.alone.tasks k' hne
    · intro j' hj'
      rcases hs.alone.owned j' hj' with hc | ⟨pc₁, ht⟩
      · exact Or.inl hc
      · cases h.symm.trans ht
        rw [show (e.setTask k { e.tasks k with thread := .ready pc.resume }).session = e.session
          from rfl, hd] at hj'
        cases hj'
    · intro pc₁ pc₂ j' _ ht
      rw [htask] at ht
      cases ht
    · intro hp
      obtain ⟨pc₁, ht, -⟩ := hs.alone.starting hp
      cases h.symm.trans ht
  · have hslot : e.taskSlot k = .calling pc (.done ev result) := by
      rw [World.taskSlot, h, Thread.slot, hd]
    rw [hslot, World.taskSlot, htask]
    exact .ret
  · rfl
  · rfl

/-- A step inside `dispatch`. -/
theorem Shadow.session (hs : Shadow e i k) {a : Act SessionEvent} {session' : Session}
    (ha : a.isInvoke = false) (h : DispatchStep e.session a session') :
    Shadow { e with session := session' } i k ∧
      (SoloStep (e.solo i k) .dispatch (World.solo { e with session := session' } i k) ∨
        World.solo { e with session := session' } i k = e.solo i k) := by
  obtain ⟨j, hj, hothers, hslot⟩ := h.slot_cases ha
  have halone : Alone { e with session := session' } i k := by
    refine ⟨hs.alone.calls, hs.alone.tasks, ?_, hs.alone.distinct, hs.alone.starting⟩
    intro j' hj'
    rcases eq_or_ne j' j with rfl | hne
    · exact hs.alone.owned j' hj
    · apply hs.alone.owned j'
      rw [← hothers j' hne]
      exact hj'
  rcases hs.alone.owned j hj with ⟨pc, hc⟩ | ⟨pc, ht⟩
  · apply hs.callStep halone
    · rw [World.callSlot, World.callSlot, hc]
      exact hslot CallPc.event CallPc.resume pc
    · apply Thread.slot_congr
      intro pc' j' ht'
      apply hothers
      rintro rfl
      exact hs.alone.distinct pc pc' j' hc ht'
    · rfl
  · apply hs.taskStep halone
    · rw [World.taskSlot, World.taskSlot, ht]
      exact hslot TaskPc.event (fun pc _ => pc.resume) pc
    · apply Thread.slot_congr
      intro pc' j' hc'
      apply hothers
      rintro rfl
      exact hs.alone.distinct pc' pc j' hc' ht
    · rfl

/-- Only the data plane has moved, perhaps that of a session that is over. -/
theorem Shadow.plane (hs : Shadow e i k) {k' : ℕ} {t' : Task}
    (hsame : t'.thread = (e.tasks k').thread) :
    Shadow (e.setTask k' t') i k ∧ (e.setTask k' t').solo i k = e.solo i k := by
  have hthread (k'' : ℕ) : ((e.setTask k' t').tasks k'').thread = (e.tasks k'').thread := by
    rcases e.setTask_cases k' k'' t' with ⟨rfl, hk⟩ | ⟨-, hk⟩
    · rw [hk, hsame]
    · rw [hk]
  have hslot : (e.setTask k' t').taskSlot k = e.taskSlot k := by
    rw [World.taskSlot, World.taskSlot, hthread]
    rfl
  have hsolo : (e.setTask k' t').solo i k = e.solo i k := by
    rw [World.solo, World.solo, hslot]
    rfl
  refine ⟨⟨⟨hs.alone.calls, ?_, ?_, ?_, ?_⟩, hs.callFresh, ?_, ?_⟩, hsolo⟩
  · intro k'' hne
    rw [hthread]
    exact hs.alone.tasks k'' hne
  · intro j hj
    rw [hthread]
    exact hs.alone.owned j hj
  · intro pc pc' j hc
    rw [hthread]
    exact hs.alone.distinct pc pc' j hc
  · rw [hthread]
    exact hs.alone.starting
  · rw [hslot]
    exact hs.taskFresh
  · rw [hsolo]
    exact hs.orderly

/-- A step of a task by itself. -/
theorem Shadow.task (hs : Shadow e i k) {k' : ℕ} {a : TaskAct} {t' : Task}
    (h : TaskStep e.shutdown (e.tasks k') a t') (hp : ¬(e.tasks k').plane.PollReturned) :
    Shadow (e.setTask k' t') i k ∧
      (SoloStep (e.solo i k) (.task a) ((e.setTask k' t').solo i k) ∨
        (e.setTask k' t').solo i k = e.solo i k) := by
  have hset := World.tasks_setTask_self e k' t'
  rcases h.stage_cases with hsame | ⟨pc, pc', ht, ht', -, hstage⟩
  · obtain ⟨hshadow, hsolo⟩ := hs.plane hsame
    exact ⟨hshadow, Or.inr hsolo⟩
  · have halive : pc.alive = true := by
      by_contra hn
      have hd := (TaskPc.alive_eq_false_iff pc).mp (Bool.eq_false_of_not_eq_true hn)
      rcases hstage with ⟨hs, -⟩ | ⟨hs, -⟩ <;> cases hd.symm.trans hs
    obtain rfl : k' = k := by
      apply hs.alone.task_eq ht
      intro pc₁ hpc₁
      cases hpc₁
      exact halive
    have hthread : ((e.setTask k' t').tasks k').thread = .ready pc' := by rw [hset, ht']
    have hstep : SoloStep (e.solo i k') (.task a) ((e.setTask k' t').solo i k') := by
      have hsolo : (e.setTask k' t').solo i k' = { e.solo i k' with task := pc' } := by
        rw [World.solo, World.taskSlot, hthread]
        rfl
      rw [hsolo]
      apply SoloStep.task h
      · rw [World.solo_task ht]
        exact ht
      · exact ht'
      · exact hp
    refine ⟨⟨⟨hs.alone.calls, ?_, ?_, ?_, ?_⟩, hs.callFresh, ?_, hstep.orderly hs.orderly⟩,
      Or.inl hstep⟩
    · intro k'' hne
      rcases e.setTask_cases k' k'' t' with ⟨heq, -⟩ | ⟨-, hk⟩
      · exact absurd heq hne
      · rw [hk]
        exact hs.alone.tasks k'' hne
    · intro j hj
      rcases hs.alone.owned j hj with hc | ⟨pc₁, ht₁⟩
      · exact Or.inl hc
      · cases ht.symm.trans ht₁
    · intro pc₁ pc₂ j _ ht₂
      cases hthread.symm.trans ht₂
    · intro hst
      obtain ⟨pc₁, ht₁, hd⟩ := hs.alone.starting hst
      cases ht.symm.trans ht₁
      cases halive.symm.trans hd
    · rw [World.taskSlot, hthread]
      trivial

/-- Session `k` has been begun by a start that returned Ok. -/
def World.Begun (e : World) (k : ℕ) : Prop := (e.tasks k).thread.pc ≠ .absent

/-- A session has begun since session `k` has. -/
def Superseded (tr : List (World × EngineAct)) (e : World) (k : ℕ) : Prop :=
  ∃ q ∈ tr, q.1.Begun k ∧ ∃ k', ¬q.1.Begun k' ∧ e.Begun k'

theorem TaskPc.resume_eq_absent (pc : TaskPc) : pc.resume = .absent ↔ pc = .absent := by
  rcases pc with _ | ⟨cfg, rx, pc⟩ | ⟨tunFd, cfg, rx, pc⟩
  · rfl
  · cases pc <;> exact iff_of_false nofun nofun
  · cases pc <;> exact iff_of_false nofun nofun

theorem World.begun_setTask {t : Task} (h : t.thread.pc ≠ .absent ↔ (e.tasks k).thread.pc ≠ .absent)
    (k' : ℕ) : ((e.setTask k t).tasks k').thread.pc ≠ .absent ↔ e.Begun k' := by
  rcases e.setTask_cases k k' t with ⟨rfl, ht⟩ | ⟨-, ht⟩
  · rw [ht]
    exact h
  · rw [ht]
    rfl

/-- Sessions begin when their task is spawned, and nothing else changes which have begun. -/
theorem EngineStep.begun_cases (h : EngineStep e a e') :
    (∀ k, e'.Begun k ↔ e.Begun k) ∨
    ∃ i s rx k, a = .call i ∧ e.calls i = .ready (.spawn s rx) ∧ e.tasks k = .absent ∧
      e' = (e.setCall i (.ready (.returned (.ok ())))).setTask k (s.task rx) := by
  cases h with
  | @spawn i s rx k hc hk => exact Or.inr ⟨i, s, rx, k, rfl, hc, hk, rfl⟩
  | @taskDispatch k j pc ev session' ht _ _ =>
    exact Or.inl (World.begun_setTask (by rw [ht]; rfl))
  | @taskReturn k j pc ev result ht _ =>
    refine Or.inl (World.begun_setTask ?_)
    rw [ht]
    exact not_congr pc.resume_eq_absent
  | @task k a t' ht =>
    refine Or.inl (World.begun_setTask ?_)
    rcases ht.stage_cases with hsame | ⟨pc, pc', h1, h2, -, hstage⟩
    · rw [hsame]
    · have hne : pc ≠ .absent ∧ pc' ≠ .absent := by
        constructor
        · rintro rfl
          rcases hstage with ⟨hs, -⟩ | ⟨hs, -⟩ <;> cases hs
        · rintro rfl
          rcases hstage with ⟨-, hs⟩ | ⟨-, hs | hs⟩ <;> cases hs
      rw [h1, h2]
      exact iff_of_true hne.2 hne.1
  | _ => exact Or.inl fun _ => Iff.rfl

/-- The step of the solo engine that a step of the engine is, if any. -/
theorem EngineStep.shadow (h : EngineStep e a e') (hone : OneAtATime e a)
    (hp : ∀ k, ¬(e.tasks k).plane.PollReturned) (hs : Shadow e i k) :
    ∃ i' k', Shadow e' i' k' ∧
      (SoloStep (e.solo i k) a.solo (e'.solo i' k') ∨ e'.solo i' k' = e.solo i k) ∧
      (k' = k ∨ e.tasks k' = .absent) ∧ (i' = i ∨ ∃ r, a = .request i' r) := by
  cases h with
  | @request i' r hc =>
    obtain ⟨hs', hstep⟩ := hs.request r hone
    exact ⟨i', k, hs', Or.inl hstep, Or.inl rfl, Or.inr ⟨r, rfl⟩⟩
  | @checkState i' s hc =>
    obtain rfl : i' = i := hs.alone.call_eq hc fun _ hpc => by cases hpc; rfl
    obtain ⟨hs', hstep⟩ := hs.localCall (e.setCall i' _) hc rfl rfl rfl (fun _ => rfl)
      (Or.inl rfl) (.checkState (World.solo_call hc))
    exact ⟨i', k, hs', Or.inl hstep, Or.inl rfl, Or.inl rfl⟩
  | @forceIdle i' s hc =>
    obtain rfl : i' = i := hs.alone.call_eq hc fun _ hpc => by cases hpc; rfl
    obtain ⟨hs', hstep⟩ := hs.localCall { e.setCall i' (.ready (.sendFalse s)) with
      session := { e.session with value := .idle } } hc rfl rfl rfl (fun _ => rfl) (Or.inr rfl)
      (.forceIdle (World.solo_call hc))
    exact ⟨i', k, hs', Or.inl hstep, Or.inl rfl, Or.inl rfl⟩
  | @sendFalse i' s alive hc _ =>
    obtain rfl : i' = i := hs.alone.call_eq hc fun _ hpc => by cases hpc; rfl
    obtain ⟨hs', hstep⟩ := hs.localCall { e.setCall i' (.ready (.userStart s)) with
      shutdown := e.shutdown.send alive false } hc rfl rfl rfl (fun _ => rfl) (Or.inl rfl)
      (.sendFalse (World.solo_call hc))
    exact ⟨i', k, hs', Or.inl hstep, Or.inl rfl, Or.inl rfl⟩
  | @sendTrue i' alive hc _ =>
    obtain rfl : i' = i := hs.alone.call_eq hc fun _ hpc => by cases hpc; rfl
    obtain ⟨hs', hstep⟩ := hs.localCall { e.setCall i' (.ready (.returned (.ok ()))) with
      shutdown := e.shutdown.send alive true } hc rfl rfl rfl nofun (Or.inl rfl)
      (.sendTrue (World.solo_call hc))
    exact ⟨i', k, hs', Or.inl hstep, Or.inl rfl, Or.inl rfl⟩
  | @subscribe i' s hc =>
    obtain rfl : i' = i := hs.alone.call_eq hc fun _ hpc => by cases hpc; rfl
    obtain ⟨hs', hstep⟩ := hs.localCall (e.setCall i' _) hc rfl rfl rfl (fun _ => rfl)
      (Or.inl rfl) (.subscribe (World.solo_call hc))
    exact ⟨i', k, hs', Or.inl hstep, Or.inl rfl, Or.inl rfl⟩
  | @spawn i' s rx k' hc hk =>
    obtain rfl : i' = i := hs.alone.call_eq hc fun _ hpc => by cases hpc; rfl
    obtain ⟨hs', hstep⟩ := hs.spawn k' hc
    exact ⟨i', k', hs', Or.inl hstep, Or.inr hk, Or.inl rfl⟩
  | @callDispatch i' j pc ev session' hc hev hd =>
    obtain rfl : i' = i := hs.alone.call_eq hc fun _ hpc => by
      cases hpc
      exact CallPc.ended_of_event hev
    cases hd with
    | invoke _ hj =>
      obtain ⟨hs', hstep⟩ := hs.callDispatch hc hev hj rfl
      exact ⟨i', k, hs', hstep, Or.inl rfl, Or.inl rfl⟩
  | @callReturn i' j pc ev result hc hd =>
    obtain rfl : i' = i := hs.alone.call_eq hc fun _ hpc => by cases hpc
    obtain ⟨hs', hstep⟩ := hs.callReturn hc hd rfl
    exact ⟨i', k, hs', hstep, Or.inl rfl, Or.inl rfl⟩
  | session ha hd =>
    obtain ⟨hs', hstep⟩ := hs.session ha hd
    exact ⟨i, k, hs', hstep, Or.inl rfl, Or.inl rfl⟩
  | @taskDispatch k' j pc ev session' ht hev hd =>
    obtain rfl : k' = k := hs.alone.task_eq ht fun _ hpc => by
      cases hpc
      exact TaskPc.alive_of_event hev
    cases hd with
    | invoke _ hj =>
      obtain ⟨hs', hstep⟩ := hs.taskDispatch ht hev hj rfl
      exact ⟨i, k', hs', hstep, Or.inl rfl, Or.inl rfl⟩
  | @taskReturn k' j pc ev result ht hd =>
    obtain rfl : k' = k := hs.alone.task_eq ht nofun
    obtain ⟨hs', hstep⟩ := hs.taskReturn ht hd rfl
    exact ⟨i, k', hs', hstep, Or.inl rfl, Or.inl rfl⟩
  | @task k' a t' ht =>
    obtain ⟨hs', hstep⟩ := hs.task ht (hp k')
    exact ⟨i, k, hs', hstep, Or.inl rfl, Or.inl rfl⟩

end GravitalShare.Engine
