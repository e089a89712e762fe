import GravitalShare.EngineTasks

/-! The engine: the calls of its interface, the session they share, the shutdown flag and
the tasks of every session that was started, interleaved in any way. -/
namespace GravitalShare.Engine

open SharedCell

/-- What `start_server` and `start_client` are called with. -/
inductive Start where
  | server (cfg : ServerConfig)
  | client (tunFd : ℤ) (cfg : ClientConfig)
  deriving DecidableEq, Repr

inductive Request where
  | start (s : Start)
  | stop
  | shutdown
  deriving DecidableEq, Repr

inductive CallPc where
  | unused
  | checkState (s : Start)
  | forceIdle (s : Start)
  | sendFalse (s : Start)
  | userStart (s : Start)
  | engineReady (s : Start) (rx : Option ℕ)
  | subscribe (s : Start)
  | spawn (s : Start) (rx : ℕ)
  | userStop
  | sendTrue
  | returned (result : Except EngineError Unit)

namespace Start

def mode : Start → SessionMode
  | .server _ => .server
  | .client _ _ => .client

/-- `start_server` subscribes to the shutdown flag before it dispatches `EngineReady`,
`start_client` after that. -/
def afterUserStart : Start → CallPc
  | .server cfg => .subscribe (.server cfg)
  | .client tunFd cfg => .engineReady (.client tunFd cfg) none

def afterSubscribe (rx : ℕ) : Start → CallPc
  | .server cfg => .engineReady (.server cfg) (some rx)
  | .client tunFd cfg => .spawn (.client tunFd cfg) rx

/-- The task that is spawned in the end. -/
def task (rx : ℕ) : Start → Task
  | .server cfg => ⟨.ready (.server cfg rx .proxyConnected), .unspawned⟩
  | .client tunFd cfg => ⟨.ready (.client tunFd cfg rx .openTun), .unspawned⟩

end Start

def Request.entry : Request → CallPc
  | .start (.client tunFd cfg) =>
    if tunFd < 0 then .returned (.error .invalidFd) else .checkState (.client tunFd cfg)
  | .start (.server cfg) => .checkState (.server cfg)
  | .stop => .userStop
  | .shutdown => .sendTrue

def Request.isStart : Request → Bool
  | .start _ => true
  | _ => false

namespace CallPc

def event : CallPc → Option SessionEvent
  | .userStart s => some (.userStart s.mode)
  | .engineReady _ _ => some .engineReady
  | .userStop => some .userStop
  | _ => none

/-- An error of `dispatch` ends the call. -/
def resume : CallPc → Except EngineError Unit → CallPc
  | .userStart s, .ok () => s.afterUserStart
  | .engineReady s none, .ok () => .subscribe s
  | .engineReady s (some rx), .ok () => .spawn s rx
  | .userStop, .ok () => .sendTrue
  | .userStart _, .error err | .engineReady _ _, .error err | .userStop, .error err =>
    .returned (.error err)
  | pc, _ => pc

def holdsReceiver : CallPc → Bool
  | .engineReady _ (some _) | .spawn _ _ => true
  | _ => false

/-- The call has not been made, or it has returned. -/
def ended : CallPc → Bool
  | .unused | .returned _ => true
  | _ => false

end CallPc

/-- The engine with the calls and the sessions begun so far, each session under the number
of its supervising task. -/
structure World where
  session : Session
  shutdown : Watch Bool
  calls : ℕ → Thread CallPc
  tasks : ℕ → Task

inductive EngineAct where
  | request (i : ℕ) (r : Request)
  | call (i : ℕ)
  | callDispatch (i j : ℕ)
  | callReturn (i j : ℕ)
  | session (a : Act SessionEvent)
  | taskDispatch (k j : ℕ)
  | taskReturn (k j : ℕ)
  | task (k : ℕ) (a : TaskAct)

/-- A task of session `k` reads a packet from the TUN device or writes one. -/
def EngineAct.UsesTun (k : ℕ) (a : EngineAct) : Prop := ∃ a', a = .task k a' ∧ a'.usesTun = true

namespace World

def new : World where
  session := Cell.init .idle
  shutdown := ⟨false, 0⟩
  calls _ := .ready .unused
  tasks _ := .absent

def setCall (e : World) (i : ℕ) (c : Thread CallPc) : World :=
  { e with calls := Function.update e.calls i c }

def setTask (e : World) (k : ℕ) (t : Task) : World :=
  { e with tasks := Function.update e.tasks k t }

@[simp] theorem calls_setCall_self (e : World) (i : ℕ) (c : Thread CallPc) :
    (e.setCall i c).calls i = c := Function.update_self _ _ _

@[simp] theorem tasks_setTask_self (e : World) (k : ℕ) (t : Task) :
    (e.setTask k t).tasks k = t := Function.update_self _ _ _

theorem setCall_cases (e : World) (i i' : ℕ) (c : Thread CallPc) :
    i' = i ∧ (e.setCall i c).calls i' = c ∨ i' ≠ i ∧ (e.setCall i c).calls i' = e.calls i' := by
  rcases eq_or_ne i' i with rfl | hne
  · exact Or.inl ⟨rfl, calls_setCall_self _ _ _⟩
  · exact Or.inr ⟨hne, Function.update_of_ne hne _ _⟩

theorem setTask_cases (e : World) (k k' : ℕ) (t : Task) :
    k' = k ∧ (e.setTask k t).tasks k' = t ∨ k' ≠ k ∧ (e.setTask k t).tasks k' = e.tasks k' := by
  rcases eq_or_ne k' k with rfl | hne
  · exact Or.inl ⟨rfl, tasks_setTask_self _ _ _⟩
  · exact Or.inr ⟨hne, Function.update_of_ne hne _ _⟩

-- `Engine::new` drops the first receiver, so only calls and tasks hold one
def HasReceiver (e : World) : Prop :=
  (∃ i, (e.calls i).pc.holdsReceiver = true) ∨ ∃ k, (e.tasks k).thread.pc.alive = true

end World

/-- One step of a call, of a task, or of a `dispatch` that one of them is in. -/
inductive EngineStep (e : World) : EngineAct → World → Prop
  | request {i} (r : Request) (h : e.calls i = .ready .unused) :
      EngineStep e (.request i r) (e.setCall i (.ready r.entry))
  | checkState {i s} (h : e.calls i = .ready (.checkState s)) :
      EngineStep e (.call i)
        (e.setCall i (.ready (if e.session.value = .idle then .userStart s else .forceIdle s)))
  -- no transition and no notification
  | forceIdle {i s} (h : e.calls i = .ready (.forceIdle s)) :
      EngineStep e (.call i)
        { e.setCall i (.ready (.sendFalse s)) with session := { e.session with value := .idle } }
  -- also to the tasks of earlier sessions that have not seen `true` yet
  | sendFalse {i s alive} (h : e.calls i = .ready (.sendFalse s))
      (ha : alive = true ↔ e.HasReceiver) :
      EngineStep e (.call i)
        { e.setCall i (.ready (.userStart s)) with shutdown := e.shutdown.send alive false }
  | sendTrue {i alive} (h : e.calls i = .ready .sendTrue) (ha : alive = true ↔ e.HasReceiver) :
      EngineStep e (.call i)
        { e.setCall i (.ready (.returned (.ok ()))) with shutdown := e.shutdown.send alive true }
  | subscribe {i s} (h : e.calls i = .ready (.subscribe s)) :
      EngineStep e (.call i) (e.setCall i (.ready (s.afterSubscribe e.shutdown.version)))
  -- the runtime accepts every task, and the handle is dropped
  | spawn {i s rx k} (h : e.calls i = .ready (.spawn s rx)) (hk : e.tasks k = .absent) :
      EngineStep e (.call i)
        ((e.setCall i (.ready (.returned (.ok ())))).setTask k (s.task rx))
  | callDispatch {i j pc ev session'} (h : e.calls i = .ready pc) (hev : pc.event = some ev)
      (hs : DispatchStep e.session (.invoke j ev) session') :
      EngineStep e (.callDispatch i j) { e.setCall i (.calling pc j) with session := session' }
  | callReturn {i j pc ev result} (h : e.calls i = .calling pc j)
      (hd : e.session.calls j = .done ev result) :
      EngineStep e (.callReturn i j) (e.setCall i (.ready (pc.resume result)))
  -- inside `dispatch`, between invocation and return
  | session {a session'} (ha : a.isInvoke = false) (hs : DispatchStep e.session a session') :
      EngineStep e (.session a) { e with session := session' }
  -- the same for the tasks, which go on whatever the result
  | taskDispatch {k j pc ev session'} (h : (e.tasks k).thread = .ready pc)
      (hev : pc.event = some ev) (hs : DispatchStep e.session (.invoke j ev) session') :
      EngineStep e (.taskDispatch k j)
        { e.setTask k { e.tasks k with thread := .calling pc j } with session := session' }
  | taskReturn {k j pc ev result} (h : (e.tasks k).thread = .calling pc j)
      (hd : e.session.calls j = .done ev result) :
      EngineStep e (.taskReturn k j)
        (e.setTask k { e.tasks k with thread := .ready pc.resume })
  | task {k a t'} (h : TaskStep e.shutdown (e.tasks k) a t') :
      EngineStep e (.task k a) (e.setTask k t')

namespace EngineStep

variable {e e' : World} {a : EngineAct}

/-- What a step of the engine is for the task of one session. -/
theorem task_cases (h : EngineStep e a e') (k : ℕ) :
    e'.tasks k = e.tasks k ∨
    (∃ s rx, e.tasks k = .absent ∧ e'.tasks k = Start.task rx s) ∨
    (∃ pc j, (e.tasks k).thread = .ready pc ∧
      e'.tasks k = { e.tasks k with thread := .calling pc j }) ∨
    (∃ pc j, (e.tasks k).thread = .calling pc j ∧
      e'.tasks k = { e.tasks k with thread := .ready pc.resume }) ∨
    ∃ a', a = .task k a' ∧ TaskStep e.shutdown (e.tasks k) a' (e'.tasks k) := by
  -- a step that sets one task leaves every other as it was
  cases h with
  | @spawn i s rx k' _ hk' =>
    rcases (e.setCall i (.ready (.returned (.ok ())))).setTask_cases k' k (s.task rx) with
      ⟨rfl, ht⟩ | ⟨-, ht⟩
    · exact Or.inr (Or.inl ⟨s, rx, hk', ht⟩)
    · exact Or.inl ht
  | @taskDispatch k' j pc _ _ hpc _ _ =>
    rcases e.setTask_cases k' k { e.tasks k' with thread := .calling pc j } with
      ⟨rfl, ht⟩ | ⟨-, ht⟩
    · exact Or.inr (Or.inr (Or.inl ⟨pc, j, hpc, ht⟩))
    · exact Or.inl ht
  | @taskReturn k' j pc _ _ hpc _ =>
    rcases e.setTask_cases k' k { e.tasks k' with thread := .ready pc.resume } with
      ⟨rfl, ht⟩ | ⟨-, ht⟩
    · exact Or.inr (Or.inr (Or.inr (Or.inl ⟨pc, j, hpc, ht⟩)))
    · exact Or.inl ht
  | @task k' a' t' hstep =>
    rcases e.setTask_cases k' k t' with ⟨rfl, ht⟩ | ⟨-, ht⟩
    · rw [ht]
      exact Or.inr (Or.inr (Or.inr (Or.inr ⟨a', rfl, hstep⟩)))
    · exact Or.inl ht
  | _ => exact Or.inl rfl

end EngineStep

end GravitalShare.Engine
