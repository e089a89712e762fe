import GravitalShare.EngineDispatch
import GravitalShare.Channel

/-! The tasks of a session. A start call spawns one supervising task; the one of a client
session spawns two more, which read the TUN device and drive the network stack. -/
namespace GravitalShare.Engine

structure ServerConfig where
  socksBind : SocketAddr
  httpBind : SocketAddr
  deriving DecidableEq, Repr

structure ClientConfig where
  proxyAddr : SocketAddr
  mtu : UInt16
  deriving DecidableEq, Repr

/-- A thread of control, which may be inside a call of `Session::dispatch`. -/
inductive Thread (π : Type) where
  | ready (pc : π)
  | calling (pc : π) (i : ℕ)

def Thread.pc {π : Type} : Thread π → π
  | .ready pc | .calling pc _ => pc

inductive Proxy where
  | socks
  | http
  deriving DecidableEq, Repr

def ServerConfig.bindAddr (cfg : ServerConfig) : Proxy → SocketAddr
  | .socks => cfg.socksBind
  | .http => cfg.httpBind

/-- Where `SocksServer::run` or `HttpProxyServer::run` is, with the version of the shutdown
flag that its receiver has seen. -/
inductive RunPc where
  | bind (seen : ℕ)
  | accept (seen : ℕ)
  | ended

inductive ServerPc where
  | proxyConnected
  | serving (runs : Proxy → RunPc)
  | engineStopped
  | finished

/-- The branch through which the `select!` of a client session ended. -/
inductive Exit where
  | loopReturned
  | shutdown
  deriving DecidableEq, Repr

inductive ClientPc where
  | openTun
  | newStack
  | fatalError
  | proxyConnected
  | select
  | engineStopped (exit : Exit)
  | finished (exit : Option Exit)

inductive TaskPc where
  | absent
  | server (cfg : ServerConfig) (rx : ℕ) (pc : ServerPc)
  | client (tunFd : ℤ) (cfg : ClientConfig) (rx : ℕ) (pc : ClientPc)

namespace TaskPc

/-- The event the task dispatches here. -/
def event : TaskPc → Option SessionEvent
  | .server cfg _ .proxyConnected => some (.proxyConnected ⟨cfg.socksBind⟩)
  | .server _ _ .engineStopped => some .engineStopped
  | .client _ _ _ .fatalError => some (.fatalError .tunOpenFailed)
  | .client _ cfg _ .proxyConnected => some (.proxyConnected ⟨cfg.proxyAddr⟩)
  | .client _ _ _ (.engineStopped _) => some .engineStopped
  | _ => none

/-- Where it goes on; the tasks ignore what `dispatch` returns. -/
def resume : TaskPc → TaskPc
  | .server cfg rx .proxyConnected => .server cfg rx (.serving fun _ => .bind rx)
  | .server cfg rx .engineStopped => .server cfg rx .finished
  | .client tunFd cfg rx .fatalError => .client tunFd cfg rx (.finished none)
  | .client tunFd cfg rx .proxyConnected => .client tunFd cfg rx .select
  | .client tunFd cfg rx (.engineStopped exit) => .client tunFd cfg rx (.finished (some exit))
  | pc => pc

/-- A task owns its receiver of the shutdown flag until it returns. -/
def alive : TaskPc → Bool
  | .absent | .server _ _ .finished | .client _ _ _ (.finished _) => false
  | _ => true

def exit : TaskPc → Option Exit
  | .client _ _ _ (.engineStopped exit) => some exit
  | .client _ _ _ (.finished exit) => exit
  | _ => none

theorem exit_resume (pc : TaskPc) : pc.resume.exit = pc.exit := by
  rcases pc with _ | ⟨cfg, rx, pc⟩ | ⟨tunFd, cfg, rx, pc⟩
  · rfl
  · cases pc <;> rfl
  · cases pc <;> rfl

end TaskPc

inductive PollPc where
  | tick
  | drain
  | accept
  | returned
  deriving DecidableEq, Repr

/-- What `run_client_loop` has spawned: whether `tun_read_task` is still running, where
`poll_task` is, and the packets whose DNS queries are being resolved. -/
inductive Plane where
  | unspawned
  | spawned (tunRead : Bool) (poll : PollPc) (dns : List Bytes)

namespace Plane

def isSpawned : Plane → Bool
  | .unspawned => false
  | .spawned _ _ _ => true

/-- One of the two data-plane tasks is running. -/
def Running : Plane → Prop
  | .unspawned => False
  | .spawned tunRead poll _ => tunRead = true ∨ poll ≠ .returned

def PollReturned : Plane → Prop
  | .unspawned => False
  | .spawned _ poll _ => poll = .returned

theorem running_iff {plane : Plane} (h : ¬plane.PollReturned) :
    plane.Running ↔ plane.isSpawned = true := by
  cases plane with
  | unspawned => exact iff_of_false id Bool.false_ne_true
  | spawned tunRead poll dns => exact iff_of_true (Or.inr h) rfl

end Plane

structure Task where
  thread : Thread TaskPc
  plane : Plane

def Task.absent : Task := ⟨.ready .absent, .unspawned⟩

def Task.exit (t : Task) : Option Exit := t.thread.pc.exit

inductive TaskAct where
  | bound (p : Proxy) (addr : SocketAddr)
  | bindFailed (p : Proxy)
  | changed (p : Proxy)
  | joined
  | tunOpened (tunFd : ℤ)
  | tunOpenFailed
  | stackNew
  | firstPoll
  | loopReturned
  | shutdownChanged
  | tunRead (pkt : Bytes)
  | dnsQuery (pkt : Bytes)
  | tunReadFailed
  | tick
  | tunWrite (pkt : Bytes)
  | drained
  | accepted
  | dnsReply (reply : Bytes)
  | dnsFailed

/-- A packet is read from the TUN device or written to it. -/
def TaskAct.usesTun : TaskAct → Bool
  | .tunRead _ | .dnsQuery _ | .tunWrite _ | .dnsReply _ => true
  | _ => false

/-- The steps a session's tasks make by themselves, outside `Session::dispatch`. -/
inductive TaskStep (w : Watch Bool) (t : Task) : TaskAct → Task → Prop
  | bound {cfg rx runs p seen} (h : t.thread = .ready (.server cfg rx (.serving runs)))
      (hp : runs p = .bind seen) :
      TaskStep w t (.bound p (cfg.bindAddr p))
        { t with
          thread := .ready (.server cfg rx (.serving (Function.update runs p (.accept seen)))) }
  | bindFailed {cfg rx runs p seen} (h : t.thread = .ready (.server cfg rx (.serving runs)))
      (hp : runs p = .bind seen) :
      TaskStep w t (.bindFailed p)
        { t with thread := .ready (.server cfg rx (.serving (Function.update runs p .ended))) }
  -- the flag has been set again since this receiver looked, perhaps to `false`
  | changed {cfg rx runs p seen} (h : t.thread = .ready (.server cfg rx (.serving runs)))
      (hp : runs p = .accept seen) (hv : seen < w.version) :
      TaskStep w t (.changed p)
        { t with thread := .ready (.server cfg rx (.serving (Function.update runs p
            (if w.value then .ended else .accept w.version)))) }
  -- a server that could not bind counts as ended
  | joined {cfg rx runs} (h : t.thread = .ready (.server cfg rx (.serving runs)))
      (hp : ∀ p, runs p = .ended) :
      TaskStep w t .joined { t with thread := .ready (.server cfg rx .engineStopped) }
  | tunOpened {tunFd cfg rx} (h : t.thread = .ready (.client tunFd cfg rx .openTun)) :
      TaskStep w t (.tunOpened tunFd) { t with thread := .ready (.client tunFd cfg rx .newStack) }
  | tunOpenFailed {tunFd cfg rx} (h : t.thread = .ready (.client tunFd cfg rx .openTun)) :
      TaskStep w t .tunOpenFailed { t with thread := .ready (.client tunFd cfg rx .fatalError) }
  -- `UserspaceStack::new` refuses some MTUs, which ends the session like a failed open
  | stackNew {tunFd cfg rx} (h : t.thread = .ready (.client tunFd cfg rx .newStack)) :
      TaskStep w t .stackNew
        { t with thread := .ready (.client tunFd cfg rx
            (if cfg.mtu < 576 ∨ cfg.mtu > 9000 then .fatalError else .proxyConnected)) }
  -- up to its `join!` the loop does not wait, so one poll spawns both tasks
  | firstPoll {tunFd cfg rx} (h : t.thread = .ready (.client tunFd cfg rx .select))
      (hp : t.plane = .unspawned) :
      TaskStep w t .firstPoll { t with plane := .spawned true .tick [] }
  | loopReturned {tunFd cfg rx dns} (h : t.thread = .ready (.client tunFd cfg rx .select))
      (hp : t.plane = .spawned false .returned dns) :
      TaskStep w t .loopReturned
        { t with thread := .ready (.client tunFd cfg rx (.engineStopped .loopReturned)) }
  -- the loop is dropped, and with it the join handles of what it has spawned
  | shutdownChanged {tunFd cfg rx} (h : t.thread = .ready (.client tunFd cfg rx .select))
      (hv : rx < w.version) :
      TaskStep w t .shutdownChanged
        { t with thread := .ready (.client tunFd cfg rx (.engineStopped .shutdown)) }
  | tunRead {poll dns} (pkt : Bytes) (hp : t.plane = .spawned true poll dns) :
      TaskStep w t (.tunRead pkt) t
  | dnsQuery {poll dns} (pkt : Bytes) (hp : t.plane = .spawned true poll dns) :
      TaskStep w t (.dnsQuery pkt) { t with plane := .spawned true poll (dns ++ [pkt]) }
  -- the only exit of the read loop
  | tunReadFailed {poll dns} (hp : t.plane = .spawned true poll dns) :
      TaskStep w t .tunReadFailed { t with plane := .spawned false poll dns }
  | tick {tunRead dns} (hp : t.plane = .spawned tunRead .tick dns) :
      TaskStep w t .tick { t with plane := .spawned tunRead .drain dns }
  | tunWrite {tunRead dns} (pkt : Bytes) (hp : t.plane = .spawned tunRead .drain dns) :
      TaskStep w t (.tunWrite pkt) t
  | drained {tunRead dns} (hp : t.plane = .spawned tunRead .drain dns) :
      TaskStep w t .drained { t with plane := .spawned tunRead .accept dns }
  -- the relay tasks spawned here work on channels and never see the device
  | accepted {tunRead dns} (hp : t.plane = .spawned tunRead .accept dns) :
      TaskStep w t .accepted { t with plane := .spawned tunRead .tick dns }
  | dnsReply {tunRead poll earlier query later} (reply : Bytes)
      (hp : t.plane = .spawned tunRead poll (earlier ++ query :: later)) :
      TaskStep w t (.dnsReply reply) { t with plane := .spawned tunRead poll (earlier ++ later) }
  | dnsFailed {tunRead poll earlier query later}
      (hp : t.plane = .spawned tunRead poll (earlier ++ query :: later)) :
      TaskStep w t .dnsFailed { t with plane := .spawned tunRead poll (earlier ++ later) }

namespace TaskStep

variable {w : Watch Bool} {t t' : Task} {a : TaskAct}

/-- `poll_task` is a loop without an exit. -/
theorem poll_not_returned (h : TaskStep w t a t') (hp : ¬t.plane.PollReturned) :
    ¬t'.plane.PollReturned := by
  cases h with
  | firstPoll => exact PollPc.noConfusion
  | tick _ => exact PollPc.noConfusion
  | drained _ => exact PollPc.noConfusion
  | accepted _ => exact PollPc.noConfusion
  | dnsQuery _ hs => rwa [hs] at hp
  | tunReadFailed hs => rwa [hs] at hp
  | dnsReply _ hs => rwa [hs] at hp
  | dnsFailed hs => rwa [hs] at hp
  | _ => exact hp

/-- Tasks are spawned by the first poll of the loop alone, and the `select!` ends through
one of its two branches. -/
theorem exit_cases (h : TaskStep w t a t') :
    a = .firstPoll ∧ t.exit = none ∧ t'.exit = none ∨
    t'.plane.isSpawned = t.plane.isSpawned ∧
      (t'.exit = t.exit ∨
        a = .loopReturned ∧ t.plane.PollReturned ∨
        a = .shutdownChanged ∧ t.exit = none ∧ t'.exit = some .shutdown) := by
  -- before the end of the `select!` there is no exit
  have hnone {pc : TaskPc} (hpc : t.thread = .ready pc) (hexit : pc.exit = none) :
      t.exit = none := by rw [Task.exit, hpc, Thread.pc, hexit]
  cases h with
  | firstPoll ht _ => exact Or.inl ⟨rfl, hnone ht rfl, hnone ht rfl⟩
  | bound ht _ | bindFailed ht _ | changed ht _ _ | joined ht _ | tunOpened ht
  | tunOpenFailed ht => exact Or.inr ⟨rfl, Or.inl (hnone ht rfl).symm⟩
  | stackNew ht =>
    refine Or.inr ⟨rfl, Or.inl ?_⟩
    rw [hnone ht rfl, Task.exit]
    split <;> rfl
  | loopReturned ht hs =>
    refine Or.inr ⟨rfl, Or.inr (Or.inl ⟨rfl, ?_⟩)⟩
    rw [hs]
    rfl
  | shutdownChanged ht _ => exact Or.inr ⟨rfl, Or.inr (Or.inr ⟨rfl, hnone ht rfl, rfl⟩)⟩
  | tunRead _ _ | tunWrite _ _ => exact Or.inr ⟨rfl, Or.inl rfl⟩
  | dnsQuery _ hs | tunReadFailed hs | tick hs | drained hs | accepted hs | dnsReply _ hs
  | dnsFailed hs => exact Or.inr ⟨by rw [hs]; rfl, Or.inl rfl⟩

/-- Before the first poll nothing touches the device. -/
theorem usesTun_eq_false (h : TaskStep w t a t') (hp : t.plane.isSpawned = false) :
    a.usesTun = false := by
  have hn {tunRead : Bool} {poll : PollPc} {dns : List Bytes}
      (hs : t.plane = .spawned tunRead poll dns) : False := by
    rw [hs] at hp
    exact Bool.noConfusion hp
  cases h with
  | tunRead _ hs | dnsQuery _ hs | tunWrite _ hs | dnsReply _ hs => exact (hn hs).elim
  | _ => rfl

end TaskStep

end GravitalShare.Engine
