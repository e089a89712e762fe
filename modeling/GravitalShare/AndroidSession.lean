import GravitalShare.EngineOutcome

/-! The SessionManager of the Android app on top of the engine. Its coroutines run on a pool of
threads and share two flows, the state and the mode, with the collector of the engine's events,
which are taken in the order in which the engine emitted them. -/
namespace GravitalShare.Android

open Engine (World EngineStep EngineAct EngineError Request ServerConfig ClientConfig)

inductive SessionMode where
  | idle
  | client
  | server
  deriving DecidableEq, Repr

-- texts are kept as what they show
inductive AddrText where
  | given (text : String)
  | shown (addr : SocketAddr)
  | unknown
  deriving DecidableEq, Repr

inductive ErrorText where
  | engineError (code : ℤ)
  | shown (error : Engine.FailureKind)
  | unknown
  deriving DecidableEq, Repr

inductive SessionState where
  | idle
  | preparing (mode : SessionMode)
  | connecting (mode : SessionMode) (attempt : ℤ)
  | connected (mode : SessionMode) (proxyAddr : AddrText)
  | reconnecting (mode : SessionMode) (attempt : ℤ) (lastError : Option String)
  | stopping (mode : SessionMode)
  | failed (mode : SessionMode) (error : ErrorText) (recoverable : Bool)
  deriving DecidableEq, Repr

/-- The constructors, which the states of the app and of the engine have in common. -/
inductive Phase where
  | idle
  | preparing
  | connecting
  | connected
  | reconnecting
  | stopping
  | failed
  deriving DecidableEq, Repr

def SessionState.phase : SessionState → Phase
  | .idle => .idle
  | .preparing _ => .preparing
  | .connecting _ _ => .connecting
  | .connected _ _ => .connected
  | .reconnecting _ _ _ => .reconnecting
  | .stopping _ => .stopping
  | .failed _ _ _ => .failed

def SessionState.mode : SessionState → Option SessionMode
  | .idle => none
  | .preparing mode | .connecting mode _ | .connected mode _ | .reconnecting mode _ _
  | .stopping mode | .failed mode _ _ => some mode

def phaseOf : Engine.SessionState → Phase
  | .idle => .idle
  | .preparing _ => .preparing
  | .connecting _ _ => .connecting
  | .connected _ _ => .connected
  | .reconnecting _ _ _ => .reconnecting
  | .stopping _ _ => .stopping
  | .failed _ _ _ => .failed

/-- The fields of a `session.transition` event. -/
structure Event where
  toState : Phase
  peer : Option SocketAddr
  error : Option Engine.FailureKind
  deriving DecidableEq, Repr

def sessionStateToJson (s : Engine.SessionState) : Event :=
  match s with
  | .connected _ peer => ⟨.connected, some peer.proxyAddr, none⟩
  | .failed _ error _ => ⟨.failed, none, some error⟩
  | _ => ⟨phaseOf s, none, none⟩

theorem toState_sessionStateToJson (s : Engine.SessionState) :
    (sessionStateToJson s).toState = phaseOf s := by
  cases s <;> rfl

def proxyFromJson (ev : Event) : AddrText := (ev.peer.map .shown).getD .unknown

def errorFromJson (ev : Event) : ErrorText := (ev.error.map .shown).getD .unknown

/-- The `when` of `applyTransition`; for Idle it also resets the mode. -/
def applyTransition (ev : Event) (current : SessionState) (m : SessionMode) : SessionState :=
  match ev.toState with
  | .connecting => .connecting m 1
  | .connected => .connected m (proxyFromJson ev)
  | .reconnecting => .reconnecting m 1 none
  | .stopping => .stopping m
  | .idle => .idle
  | .failed => .failed m (errorFromJson ev) true
  -- there is no branch for Preparing
  | .preparing => current

theorem phase_applyTransition (ev : Event) (current : SessionState) (m : SessionMode) :
    (applyTransition ev current m).phase =
      if ev.toState = .preparing then current.phase else ev.toState := by
  rw [applyTransition]
  cases ev.toState <;> rfl

/-- Where the collector is in `applyTransition`. -/
inductive Handler where
  | waiting
  | applying (ev : Event) (current : SessionState)
  | decided (ev : Event) (current : SessionState) (m : SessionMode)
  | writing (next : SessionState)
  deriving DecidableEq, Repr

def INVALID_ARG : ℤ := -1
def INVALID_FD : ℤ := -4

/-- The code that the JNI entry points return. -/
def ffiCode : Except EngineError Unit → ℤ
  | .ok () => 0
  | .error .invalidFd => INVALID_FD
  | .error .invalidTransition => INVALID_ARG

/-- `startClient` and `startServer`, with the configuration that the engine makes of the JSON. -/
inductive Start where
  | client (tunFd : ℤ) (cfg : ClientConfig)
  | server (socksAddr : String) (cfg : ServerConfig)
  deriving DecidableEq, Repr

namespace Start

def mode : Start → SessionMode
  | .client _ _ => .client
  | .server _ _ => .server

def engine : Start → Engine.Start
  | .client tunFd cfg => .client tunFd cfg
  | .server _ cfg => .server cfg

/-- What is written once the engine's call has returned 0. -/
def started : Start → SessionState
  | .client _ _ => .connecting .client 1
  | .server socksAddr _ => .connected .server (.given socksAddr)

end Start

inductive Launch where
  | start (s : Start)
  | stop
  | acknowledgeError
  deriving DecidableEq, Repr

/-- Where a coroutine is. The last two steps of `stop` are those of `acknowledgeError`, which
has no call of the engine to look back on. -/
inductive Pc where
  | unused
  | setMode (s : Start)
  | setPreparing (s : Start)
  | callStart (s : Start)
  | inStart (s : Start) (i : ℕ)
  | report (s : Start) (code : ℤ)
  | readState
  | readMode (current : SessionState)
  | setStopping (m : SessionMode)
  | callStop
  | inStop (i : ℕ)
  | setIdle (i : Option ℕ)
  | setModeIdle (i : Option ℕ)
  | done
  deriving DecidableEq, Repr

def Launch.entry : Launch → Pc
  | .start s => .setMode s
  | .stop => .readState
  | .acknowledgeError => .setIdle none

/-- The mode that `stop` puts into Stopping. -/
def stopMode (current : SessionState) (mode : SessionMode) : SessionMode :=
  match current with
  | .connected m _ | .connecting m _ | .reconnecting m _ _ => m
  | _ => mode

namespace Pc

/-- The coroutine has not been launched, or it is done. -/
def ended : Pc → Bool
  | .unused | .done => true
  | _ => false

/-- One access to the two flows. -/
def access (state : SessionState) (mode : SessionMode) :
    Pc → Option (Pc × SessionState × SessionMode)
  | .setMode s => some (.setPreparing s, state, s.mode)
  | .setPreparing s => some (.callStart s, .preparing s.mode, mode)
  | .report s code =>
    some (.done, if code ≠ 0 then .failed s.mode (.engineError code) false else s.started, mode)
  | .readState => some (.readMode state, state, mode)
  | .readMode current => some (.setStopping (stopMode current mode), state, mode)
  | .setStopping m => some (.callStop, .stopping m, mode)
  | .setIdle i => some (.setModeIdle i, .idle, mode)
  | .setModeIdle _ => some (.done, state, .idle)
  | _ => none

/-- The call of the engine that is made here, under number `i`. -/
def call (i : ℕ) : Pc → Option (Request × Pc)
  | .callStart s => some (.start s.engine, .inStart s i)
  | .callStop => some (.stop, .inStop i)
  | _ => none

/-- What `stop` makes of the engine's answer: nothing. -/
def resume (result : Except EngineError Unit) : Pc → Option (ℕ × Pc)
  | .inStart s i => some (i, .report s (ffiCode result))
  | .inStop i => some (i, .setIdle (some i))
  | _ => none

theorem ended_of_access {state state' : SessionState} {mode mode' : SessionMode} {pc pc' : Pc}
    (h : pc.access state mode = some (pc', state', mode')) : pc.ended = false := by
  cases pc with
  | unused | done => cases h
  | _ => rfl

theorem ended_of_call {i : ℕ} {r : Request} {pc pc' : Pc} (h : pc.call i = some (r, pc')) :
    pc.ended = false := by
  cases pc with
  | unused | done => cases h
  | _ => rfl

theorem ended_of_resume {result : Except EngineError Unit} {i : ℕ} {pc pc' : Pc}
    (h : pc.resume result = some (i, pc')) : pc.ended = false := by
  cases pc with
  | unused | done => cases h
  | _ => rfl

end Pc

/-- The app: the engine, the two flows, the number of events handled, and the coroutines. -/
structure App where
  engine : World
  state : SessionState
  mode : SessionMode
  handled : ℕ
  handler : Handler
  jobs : ℕ → Pc

namespace App

def new : App where
  engine := .new
  state := .idle
  mode := .idle
  handled := 0
  handler := .waiting
  jobs _ := .unused

/-- The states the engine has emitted. -/
def emitted (x : App) : List Engine.SessionState := x.engine.session.delivered.map Prod.snd

def setJob (x : App) (n : ℕ) (pc : Pc) : App := { x with jobs := Function.update x.jobs n pc }

end App

inductive AppAct where
  | launch (n : ℕ) (l : Launch)
  | job (n : ℕ)
  | handler
  | engine (a : EngineAct)

inductive AppStep (x : App) : AppAct → App → Prop
  | launch {n} (l : Launch) (h : x.jobs n = .unused) :
      AppStep x (.launch n l) (x.setJob n l.entry)
  | access {n pc state mode} (h : (x.jobs n).access x.state x.mode = some (pc, state, mode)) :
      AppStep x (.job n) { x.setJob n pc with state := state, mode := mode }
  | call {n i r pc engine} (h : (x.jobs n).call i = some (r, pc))
      (he : EngineStep x.engine (.request i r) engine) :
      AppStep x (.job n) { x.setJob n pc with engine := engine }
  | resume {n i result pc} (h : (x.jobs n).resume result = some (i, pc))
      (hr : x.engine.calls i = .ready (.returned result)) :
      AppStep x (.job n) (x.setJob n pc)
  | take {s} (h : x.handler = .waiting) (hs : x.emitted[x.handled]? = some s) :
      AppStep x .handler { x with handler := .applying (sessionStateToJson s) x.state }
  | decide {ev current} (h : x.handler = .applying ev current) :
      AppStep x .handler
        { x with handler := .decided ev current (current.mode.getD x.mode) }
  | apply {ev current m} (h : x.handler = .decided ev current m) :
      AppStep x .handler { x with
        handler := .writing (applyTransition ev current m)
        mode := if ev.toState = .idle then .idle else x.mode }
  | write {next} (h : x.handler = .writing next) :
      AppStep x .handler { x with handler := .waiting, state := next, handled := x.handled+1 }
  -- the engine goes on by itself
  | engine {a engine} (ha : ∀ i r, a ≠ .request i r) (he : EngineStep x.engine a engine) :
      AppStep x (.engine a) { x with engine := engine }

end GravitalShare.Android
