import GravitalShare.Net

/-! The session automaton of the engine. -/
namespace GravitalShare.Engine

inductive SessionMode where
  | client
  | server
  deriving DecidableEq, Repr

inductive StopReason where
  | userRequest
  | fatalError
  | shutdown
  deriving DecidableEq, Repr

inductive FailureKind where
  | permissionDenied
  | configInvalid
  | proxyUnreachable
  | dnsResolveFailed
  | tunOpenFailed
  | engineCrashed
  | upstreamVpnDown
  | unknown
  deriving DecidableEq, Repr

def FailureKind.isRecoverable : FailureKind → Bool
  | .proxyUnreachable | .dnsResolveFailed => true
  | _ => false

structure PeerInfo where
  proxyAddr : SocketAddr
  deriving DecidableEq, Repr

inductive SessionState where
  | idle
  | preparing (mode : SessionMode)
  | connecting (mode : SessionMode) (attempt : UInt32)
  | connected (mode : SessionMode) (peer : PeerInfo)
  | reconnecting (mode : SessionMode) (attempt : UInt32) (lastError : Option String)
  | stopping (mode : SessionMode) (reason : StopReason)
  | failed (mode : SessionMode) (error : FailureKind) (recoverable : Bool)
  deriving DecidableEq, Repr

def SessionState.mode : SessionState → Option SessionMode
  | .idle => none
  | .preparing mode | .connecting mode _ | .connected mode _ | .reconnecting mode _ _
  | .stopping mode _ | .failed mode _ _ => some mode

inductive SessionEvent where
  | userStart (mode : SessionMode)
  | userStop
  | userAcknowledge
  | enginePrepared
  | engineReady
  | engineStopped
  | proxyConnected (peer : PeerInfo)
  | proxyDisconnected (error : Option String)
  | networkLost
  | networkRestored
  | fatalError (kind : FailureKind)
  | shutdown
  deriving DecidableEq, Repr

inductive EngineError where
  | invalidFd
  | invalidTransition
  deriving DecidableEq, Repr

def transition (s : SessionState) (e : SessionEvent) : Except EngineError SessionState :=
  match s, e with
  -- these two can come from any state
  | _, .fatalError kind => .ok (.failed (s.mode.getD .client) kind kind.isRecoverable)
  | _, .shutdown => .ok (.stopping (s.mode.getD .client) .shutdown)
  | .idle, .userStart mode => .ok (.preparing mode)
  | .preparing mode, .engineReady => .ok (.connecting mode 1)
  -- accepted without a change
  | .preparing mode, .enginePrepared => .ok (.preparing mode)
  | .connecting mode _, .proxyConnected peer => .ok (.connected mode peer)
  | .connecting mode attempt, .networkLost => .ok (.reconnecting mode attempt none)
  | .connecting mode attempt, .proxyDisconnected _ => .ok (.reconnecting mode attempt none)
  | .connected mode _, .networkLost => .ok (.reconnecting mode 1 none)
  | .connected mode _, .proxyDisconnected _ => .ok (.reconnecting mode 1 none)
  | .connected mode _, .userStop => .ok (.stopping mode .userRequest)
  | .reconnecting mode _ _, .proxyConnected peer => .ok (.connected mode peer)
  | .reconnecting mode _ _, .userStop => .ok (.stopping mode .userRequest)
  -- the two ways back to Idle
  | .stopping _ _, .engineStopped => .ok .idle
  | .failed _ _ _, .userAcknowledge => .ok .idle
  -- among them EngineStopped in every other state
  | _, _ => .error .invalidTransition

end GravitalShare.Engine
