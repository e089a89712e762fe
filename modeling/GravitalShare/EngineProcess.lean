import GravitalShare.EngineShutdown

/-! The descriptor of the TUN device: from `establish` and `detachFd` through `start_client` into
the tasks of a session, and closed when the last of them lets go of it. -/
namespace GravitalShare.Engine

/-- Whose open file a descriptor stands for: the device that came with a call of `start_client`, or
anything else that the app has open. -/
inductive Owner where
  | tun (call : ℕ)
  | other
  deriving DecidableEq, Repr

def Start.tunFd : Start → Option ℤ
  | .server _ => none
  | .client tunFd _ => some tunFd

def Request.tunFd : Request → Option ℤ
  | .start s => s.tunFd
  | _ => none

/-- The descriptor that a call has been given and has not passed on. -/
def CallPc.tunFd : CallPc → Option ℤ
  | .checkState s | .forceIdle s | .sendFalse s | .userStart s | .engineReady s _ | .subscribe s
  | .spawn s _ => s.tunFd
  | _ => none

def TaskPc.tunFd : TaskPc → Option ℤ
  | .client tunFd _ _ _ => some tunFd
  | _ => none

def TaskPc.isOpening : TaskPc → Bool
  | .client _ _ _ .openTun => true
  | _ => false

/-- The supervising task has the two halves of the device, or the loop that it has moved them to. -/
def TaskPc.holdsTun : TaskPc → Bool
  | .client _ _ _ .newStack | .client _ _ _ .fatalError | .client _ _ _ .proxyConnected
  | .client _ _ _ .select => true
  | _ => false

/-- `tun_read_task` has the reader, and it, `poll_task` and every query share the writer. -/
def Plane.holdsTun : Plane → Bool
  | .unspawned => false
  | .spawned tunRead poll dns => tunRead || poll ≠ .returned || dns ≠ []

/-- The descriptor is the session's to close: it is about to wrap it in a `File`, or it has one. -/
def Task.ownsTun (t : Task) (opened : Bool) : Bool :=
  t.thread.pc.isOpening || opened && (t.thread.pc.holdsTun || t.plane.holdsTun)

/-- From `from_fd` to the end of the `select!`. -/
def TaskPc.isOpen : TaskPc → Bool
  | .client _ _ _ .newStack | .client _ _ _ .proxyConnected | .client _ _ _ .select => true
  | _ => false

def TaskAct.opensTun : TaskAct → Bool
  | .tunOpened _ => true
  | _ => false

def TaskPc.isAbsent : TaskPc → Bool
  | .absent => true
  | _ => false

def Task.isAbsent (t : Task) : Bool := t.thread.pc.isAbsent

/-- The engine and the descriptor table of its process, with the call that each session stems from
and whether it has got its device open. -/
structure Process where
  engine : World
  files : ℤ → Option Owner
  caller : ℕ → ℕ
  opened : ℕ → Bool

inductive ProcessAct where
  | openOther (n : ℤ)
  | closeOther (n : ℤ)
  | engine (a : EngineAct)

/-- Steps of the engine that neither take a descriptor nor let go of one. -/
def EngineAct.isQuiet : EngineAct → Bool
  | .callDispatch _ _ | .callReturn _ _ | .session _ | .taskDispatch _ _ => true
  | _ => false

namespace Process

def new : Process := ⟨World.new, fun _ => none, fun _ => 0, fun _ => false⟩

def owns (s : Process) (k : ℕ) : Bool := (s.engine.tasks k).ownsTun (s.opened k)

def tunFd (s : Process) (k : ℕ) : Option ℤ := (s.engine.tasks k).thread.pc.tunFd

/-- When the last holder is gone the `File` is dropped, which closes the descriptor, whatever it
stands for by then. -/
def filesAfter (s : Process) (k : ℕ) (t : Task) (opened : Bool) : ℤ → Option Owner :=
  match s.tunFd k with
  | none => s.files
  | some fd =>
    if s.owns k && !t.ownsTun opened then Function.update s.files fd none else s.files

end Process

inductive ProcessStep (s : Process) : ProcessAct → Process → Prop
  | openOther {n} (h : s.files n = none) :
      ProcessStep s (.openOther n) { s with files := Function.update s.files n (some .other) }
  | closeOther {n} (h : s.files n = some .other) :
      ProcessStep s (.closeOther n) { s with files := Function.update s.files n none }
  -- `establish` opens the device under a free number
  | startClient {i tunFd cfg e'} (hfd : 0 ≤ tunFd) (hfree : s.files tunFd = none)
      (h : EngineStep s.engine (.request i (.start (.client tunFd cfg))) e') :
      ProcessStep s (.engine (.request i (.start (.client tunFd cfg))))
        { s with engine := e', files := Function.update s.files tunFd (some (.tun i)) }
  | request {i r e'} (hr : ∀ tunFd, r.tunFd = some tunFd → tunFd < 0)
      (h : EngineStep s.engine (.request i r) e') :
      ProcessStep s (.engine (.request i r)) { s with engine := e' }
  -- a session that this step spawns stems from this call
  | call {i e'} (h : EngineStep s.engine (.call i) e') :
      ProcessStep s (.engine (.call i))
        { s with
          engine := e'
          caller := fun k => if (s.engine.tasks k).isAbsent then i else s.caller k }
  | quiet {a e'} (ha : a.isQuiet = true) (h : EngineStep s.engine a e') :
      ProcessStep s (.engine a) { s with engine := e' }
  | taskReturn {k j e'} (h : EngineStep s.engine (.taskReturn k j) e') :
      ProcessStep s (.engine (.taskReturn k j))
        { s with engine := e', files := s.filesAfter k (e'.tasks k) (s.opened k) }
  | task {k a e'} (h : EngineStep s.engine (.task k a) e') :
      ProcessStep s (.engine (.task k a))
        { s with
          engine := e'
          files := s.filesAfter k (e'.tasks k) (s.opened k || a.opensTun)
          opened := Function.update s.opened k (s.opened k || a.opensTun) }

section Tasks

variable {w : Watch Bool} {t t' : Task} {a : TaskAct} {opened : Bool}

theorem TaskStep.tunFd_eq (h : TaskStep w t a t') : t'.thread.pc.tunFd = t.thread.pc.tunFd := by
  cases h with
  | bound ht _ | bindFailed ht _ | changed ht _ _ | joined ht _ | tunOpened ht | tunOpenFailed ht
  | stackNew ht | loopReturned ht _ | shutdownChanged ht _ =>
    rw [ht]
    rfl
  | _ => rfl

theorem Plane.holdsTun_of_spawned {plane : Plane} (hs : plane.isSpawned = true)
    (hp : ¬plane.PollReturned) : plane.holdsTun = true := by
  cases plane with
  | unspawned => cases hs
  | spawned tunRead poll dns =>
    have hpoll : decide (poll ≠ .returned) = true := decide_eq_true hp
    rw [Plane.holdsTun, hpoll, Bool.or_true, Bool.true_or]

theorem Task.ownsTun_iff : t.ownsTun opened = true ↔ t.thread.pc.isOpening = true ∨
    opened = true ∧ (t.thread.pc.holdsTun = true ∨ t.plane.holdsTun = true) := by
  rw [Task.ownsTun, Bool.or_eq_true, Bool.and_eq_true, Bool.or_eq_true]

/-- The tasks of the data plane give the device up, and take none. -/
theorem TaskStep.holdsTun_of (h : TaskStep w t a t') (ho : t'.plane.holdsTun = true) :
    t.thread.pc.holdsTun = true ∨ t.plane.holdsTun = true := by
  cases h with
  | firstPoll ht _ => exact Or.inl (by rw [ht]; rfl)
  | tunReadFailed hp =>
    refine Or.inr ?_
    rw [hp]
    rfl
  | dnsQuery _ hp =>
    refine Or.inr ?_
    rw [hp]
    rfl
  | tick hp | drained hp | accepted hp => exact Or.inr (by rw [hp]; simp [Plane.holdsTun])
  | dnsReply _ hp | dnsFailed hp => exact Or.inr (by rw [hp]; simp [Plane.holdsTun])
  | _ => exact Or.inr ho

/-- No step gives a session a descriptor. -/
theorem TaskStep.ownsTun_of (h : TaskStep w t a t')
    (ho : t'.ownsTun (opened || a.opensTun) = true) : t.ownsTun opened = true := by
  rw [Task.ownsTun_iff] at ho ⊢
  have hplane := h.holdsTun_of
  have hkeep (hno : a.opensTun = false) (hop : (opened || a.opensTun) = true) :
      opened = true := by rwa [hno, Bool.or_false] at hop
  cases h with
  | tunOpened ht | tunOpenFailed ht => exact Or.inl (by rw [ht]; rfl)
  | stackNew ht =>
    rcases ho with ho | ⟨hop, -⟩
    · dsimp only [Thread.pc] at ho
      split_ifs at ho <;> cases ho
    · exact Or.inr ⟨hkeep rfl hop, Or.inl (by rw [ht]; rfl)⟩
  | bound ht _ | bindFailed ht _ | changed ht _ _ | joined ht _ | loopReturned ht _
  | shutdownChanged ht _ =>
    rcases ho with ho | ⟨hop, ho | ho⟩
    · cases ho
    · cases ho
    · exact Or.inr ⟨hkeep rfl hop, hplane ho⟩
  | _ =>
    rcases ho with ho | ⟨hop, ho | ho⟩
    · exact Or.inl ho
    · exact Or.inr ⟨hkeep rfl hop, Or.inl ho⟩
    · exact Or.inr ⟨hkeep rfl hop, hplane ho⟩

/-- The same for what a task makes of the end of a `dispatch`. -/
theorem ownsTun_resume {pc : TaskPc} {plane : Plane} {j : ℕ}
    (ho : Task.ownsTun ⟨.ready pc.resume, plane⟩ opened = true) :
    Task.ownsTun ⟨.calling pc j, plane⟩ opened = true := by
  rw [Task.ownsTun_iff] at ho ⊢
  rcases pc with _ | ⟨cfg, rx, pc⟩ | ⟨tunFd, cfg, rx, pc⟩
  · exact ho
  · cases pc <;> exact ho
  · cases pc with
    | fatalError | engineStopped =>
      rcases ho with ho | ⟨hop, ho | ho⟩
      · cases ho
      · cases ho
      · exact Or.inr ⟨hop, Or.inr ho⟩
    | _ => exact ho

theorem TaskPc.resume_same (pc : TaskPc) : pc.resume.tunFd = pc.tunFd ∧
    pc.resume.isOpen = pc.isOpen ∧ pc.resume.isAbsent = pc.isAbsent := by
  rcases pc with _ | ⟨cfg, rx, pc⟩ | ⟨tunFd, cfg, rx, pc⟩
  · exact ⟨rfl, rfl, rfl⟩
  · cases pc <;> exact ⟨rfl, rfl, rfl⟩
  · cases pc <;> exact ⟨rfl, rfl, rfl⟩

theorem TaskStep.isAbsent_eq (h : TaskStep w t a t') : t'.isAbsent = t.isAbsent := by
  unfold Task.isAbsent
  cases h with
  | bound ht _ | bindFailed ht _ | changed ht _ _ | joined ht _ | tunOpened ht | tunOpenFailed ht
  | stackNew ht | loopReturned ht _ | shutdownChanged ht _ =>
    rw [ht]
    rfl
  | _ => rfl

/-- Whoever has the device open has opened it before or does so now. -/
theorem TaskStep.isOpen_of (h : TaskStep w t a t')
    (ho : t'.thread.pc.isOpen = true ∨ t'.plane.isSpawned = true) :
    a.opensTun = true ∨ t.thread.pc.isOpen = true ∨ t.plane.isSpawned = true := by
  cases h with
  | tunOpened ht => exact Or.inl rfl
  | stackNew ht | firstPoll ht _ => exact Or.inr (Or.inl (by rw [ht]; rfl))
  | bound | bindFailed | changed | joined | tunOpenFailed | loopReturned | shutdownChanged =>
    rcases ho with ho | ho
    · cases ho
    · exact Or.inr (Or.inr ho)
  | dnsQuery _ hp | tunReadFailed hp | tick hp | drained hp | accepted hp | dnsReply _ hp
  | dnsFailed hp => exact Or.inr (Or.inr (by rw [hp]; rfl))
  | _ => exact Or.inr ho

theorem TaskStep.isSpawned_of (h : TaskStep w t a t') (hs : t.plane.isSpawned = true) :
    t'.plane.isSpawned = true := by
  cases h with
  | firstPoll | dnsQuery | tunReadFailed | tick | drained | accepted | dnsReply | dnsFailed => rfl
  | _ => exact hs

/-- Only the loop of a client spawns tasks. -/
theorem TaskStep.tunFd_of_spawned (h : TaskStep w t a t') (hs : t'.plane.isSpawned = true) :
    t.plane.isSpawned = true ∨ t.thread.pc.tunFd ≠ none := by
  cases h with
  | firstPoll ht _ => exact Or.inr (by rw [ht]; exact Option.some_ne_none _)
  | dnsQuery _ hp | tunReadFailed hp | tick hp | drained hp | accepted hp | dnsReply _ hp
  | dnsFailed hp => exact Or.inl (by rw [hp]; rfl)
  | _ => exact Or.inl hs

/-- Whoever reads or writes a packet holds the device. -/
theorem TaskStep.holdsTun_of_usesTun (h : TaskStep w t a t') (hu : a.usesTun = true) :
    t.plane.isSpawned = true ∧ t.plane.holdsTun = true := by
  cases h with
  | tunRead _ hp | dnsQuery _ hp => rw [hp]; exact ⟨rfl, rfl⟩
  | tunWrite _ hp | dnsReply _ hp => rw [hp]; exact ⟨rfl, by simp [Plane.holdsTun]⟩
  | _ => cases hu

end Tasks

section Calls

variable {e e' : World} {i : ℕ}

theorem EngineStep.request_inv {r : Request} (h : EngineStep e (.request i r) e') :
    e.calls i = .ready .unused ∧ e' = e.setCall i (.ready r.entry) := by
  cases h with
  | request _ hc => exact ⟨hc, rfl⟩

/-- What happens to the calls if at most one of them goes on, which has not returned yet. -/
def Goes (e e' : World) (i : ℕ) : Prop :=
  (∀ r, e.calls i ≠ .ready (.returned r)) ∧ ∀ j, j ≠ i → e'.calls j = e.calls j

theorem goes_setCall {c : Thread CallPc} (hc : e.calls i = c) (hn : ∀ r, c ≠ .ready (.returned r))
    (c' : Thread CallPc) : Goes e (e.setCall i c') i :=
  ⟨fun r => hc ▸ hn r, fun _ hj => Function.update_of_ne hj _ _⟩

/-- A step of a call keeps the descriptor, or hands it to the task that it spawns. -/
theorem EngineStep.call_inv (h : EngineStep e (.call i) e') :
    (e'.tasks = e.tasks ∧ Goes e e' i ∧ (e'.calls i).pc.tunFd = (e.calls i).pc.tunFd) ∨
    ∃ st rx k, e.calls i = .ready (.spawn st rx) ∧ e.tasks k = .absent ∧
      e' = (e.setCall i (.ready (.returned (.ok ())))).setTask k (st.task rx) := by
  have hset {c c' : Thread CallPc} (hc : e.calls i = c) (hn : ∀ r, c ≠ .ready (.returned r))
      (hfd : c'.pc.tunFd = c.pc.tunFd) : (e.setCall i c').tasks = e.tasks ∧
        Goes e (e.setCall i c') i ∧
        ((e.setCall i c').calls i).pc.tunFd = (e.calls i).pc.tunFd := by
    refine ⟨rfl, goes_setCall hc hn c', ?_⟩
    rw [hc, World.calls_setCall_self, hfd]
  cases h with
  | checkState hc =>
    refine Or.inl (hset hc nofun ?_)
    split_ifs <;> rfl
  | forceIdle hc | sendFalse hc _ | sendTrue hc _ => exact Or.inl (hset hc nofun rfl)
  | @subscribe _ st hc =>
    refine Or.inl (hset hc nofun ?_)
    cases st <;> rfl
  | spawn hc hk => exact Or.inr ⟨_, _, _, hc, hk, rfl⟩

theorem CallPc.tunFd_resume (pc : CallPc) (result : Except EngineError Unit) :
    (pc.resume result).tunFd = pc.tunFd ∨ ∃ err, pc.resume result = .returned (.error err) := by
  cases result with
  | error err =>
    cases pc with
    | userStart | userStop => exact Or.inr ⟨err, rfl⟩
    | engineReady st rx => cases rx <;> exact Or.inr ⟨err, rfl⟩
    | _ => exact Or.inl rfl
  | ok u =>
    refine Or.inl ?_
    cases pc with
    | userStart st => cases st <;> rfl
    | engineReady st rx => cases rx <;> rfl
    | _ => rfl

/-- The quiet steps keep all descriptors where they are, but for a call that fails. -/
theorem EngineStep.quiet_inv {a : EngineAct} (ha : a.isQuiet = true) (h : EngineStep e a e') :
    (∀ k, (e'.tasks k).thread.pc = (e.tasks k).thread.pc ∧
      (e'.tasks k).plane = (e.tasks k).plane) ∧
    (e'.calls = e.calls ∨ ∃ i, Goes e e' i ∧ ((e'.calls i).pc.tunFd = (e.calls i).pc.tunFd ∨
      ∃ err, e'.calls i = .ready (.returned (.error err)))) := by
  cases h with
  | @callDispatch i j pc ev session' hc hev hs =>
    refine ⟨fun k => ⟨rfl, rfl⟩, Or.inr ⟨i, goes_setCall hc ?_ _, Or.inl ?_⟩⟩
    · rintro r hr
      cases hr
      cases hev
    · show ((e.setCall i (.calling pc j)).calls i).pc.tunFd = _
      rw [World.calls_setCall_self, hc]
      rfl
  | @callReturn i j pc ev result hc hd =>
    refine ⟨fun k => ⟨rfl, rfl⟩, Or.inr ⟨i, goes_setCall hc nofun _, ?_⟩⟩
    rw [World.calls_setCall_self, hc]
    rcases pc.tunFd_resume result with hfd | ⟨err, herr⟩
    · exact Or.inl hfd
    · exact Or.inr ⟨err, by rw [herr]⟩
  | session => exact ⟨fun k => ⟨rfl, rfl⟩, Or.inl rfl⟩
  | @taskDispatch k j pc ev session' hpc hev hs =>
    refine ⟨?_, Or.inl rfl⟩
    intro k'
    rcases e.setTask_cases k k' { e.tasks k with thread := .calling pc j } with
      ⟨rfl, ht⟩ | ⟨-, ht⟩
    · have hplane := congrArg Task.plane ht
      exact ⟨(congrArg (·.thread.pc) ht).trans (congrArg Thread.pc hpc).symm, hplane⟩
    · exact ⟨congrArg (·.thread.pc) ht, congrArg Task.plane ht⟩
  | _ => cases ha

/-- A call that has returned stays as it is. -/
theorem EngineStep.returned_stays {a : EngineAct} (h : EngineStep e a e')
    {r : Except EngineError Unit} (hr : e.calls i = .ready (.returned r)) :
    e'.calls i = .ready (.returned r) := by
  have hkeep {j : ℕ} (hg : Goes e e' j) : e'.calls i = .ready (.returned r) := by
    have hne : i ≠ j := fun he => hg.1 r (he ▸ hr)
    rw [hg.2 i hne, hr]
  cases a with
  | request j q =>
    obtain ⟨hc, rfl⟩ := h.request_inv
    exact hkeep (goes_setCall hc nofun _)
  | call j =>
    rcases h.call_inv with ⟨-, hg, -⟩ | ⟨st, rx, k, hc, -, rfl⟩
    · exact hkeep hg
    · exact hkeep (goes_setCall hc nofun _)
  | callDispatch | callReturn | session | taskDispatch =>
    obtain ⟨-, hcalls | ⟨j, hg, -⟩⟩ := h.quiet_inv rfl
    · rw [hcalls, hr]
    · exact hkeep hg
  | taskReturn | task =>
    cases h
    exact hr

theorem EngineStep.isSpawned_of {a : EngineAct} {k : ℕ} (h : EngineStep e a e')
    (hs : (e.tasks k).plane.isSpawned = true) : (e'.tasks k).plane.isSpawned = true := by
  rcases h.task_cases k with ht | ⟨s, rx, h0, -⟩ | ⟨pc, j, -, ht⟩ | ⟨pc, j, -, ht⟩ | ⟨a', -, ht⟩
  · rwa [ht]
  · rw [h0] at hs
    cases hs
  · rwa [ht]
  · rwa [ht]
  · exact ht.isSpawned_of hs

end Calls

end GravitalShare.Engine
