import GravitalShare.AndroidSession
import GravitalShare.NetDisplay
import GravitalShare.QuotedFields

/-! The events of the engine as texts: what the engine writes, and what the app reads out of it
with patterns. -/
namespace GravitalShare.Android.Json

open QuotedFields

section Engine

/-- The name of a failure, which its Debug format is. -/
def debug : Engine.FailureKind → String
  | .permissionDenied => "PermissionDenied"
  | .configInvalid => "ConfigInvalid"
  | .proxyUnreachable => "ProxyUnreachable"
  | .dnsResolveFailed => "DnsResolveFailed"
  | .tunOpenFailed => "TunOpenFailed"
  | .engineCrashed => "EngineCrashed"
  | .upstreamVpnDown => "UpstreamVpnDown"
  | .unknown => "Unknown"

/-- `session_state_to_json` -/
def sessionStateToJson : Engine.SessionState → String
  | .idle => "\x7b\"kind\":\"session.transition\",\"to\":\"Idle\"\x7d"
  | .preparing _ => "\x7b\"kind\":\"session.transition\",\"to\":\"Preparing\"\x7d"
  | .connecting _ _ => "\x7b\"kind\":\"session.transition\",\"to\":\"Connecting\"\x7d"
  | .connected _ peer =>
    "\x7b\"kind\":\"session.transition\",\"to\":\"Connected\",\"peer\":\"" ++
      peer.proxyAddr.display ++ "\"\x7d"
  | .reconnecting _ _ _ => "\x7b\"kind\":\"session.transition\",\"to\":\"Reconnecting\"\x7d"
  | .stopping _ _ => "\x7b\"kind\":\"session.transition\",\"to\":\"Stopping\"\x7d"
  | .failed _ error _ =>
    "\x7b\"kind\":\"session.transition\",\"to\":\"Failed\",\"error\":\"" ++ debug error ++
      "\"\x7d"

end Engine

section App

-- the states of the app with their texts
inductive SessionState where
  | idle
  | preparing (mode : SessionMode)
  | connecting (mode : SessionMode) (attempt : ℤ)
  | connected (mode : SessionMode) (proxyAddr : String)
  | reconnecting (mode : SessionMode) (attempt : ℤ) (lastError : Option String)
  | stopping (mode : SessionMode)
  | failed (mode : SessionMode) (error : String) (recoverable : Bool)
  deriving DecidableEq, Repr

def SessionState.mode : SessionState → Option SessionMode
  | .idle => none
  | .preparing mode | .connecting mode _ | .connected mode _ | .reconnecting mode _ _
  | .stopping mode | .failed mode _ _ => some mode

/-- The flows of the SessionManager that an event can change. -/
structure SessionManager where
  state : SessionState
  mode : SessionMode
  throughput : ℕ
  deriving DecidableEq, Repr

/-- `current.mode() ?: _mode.value` -/
def SessionManager.currentMode (x : SessionManager) : SessionMode := x.state.mode.getD x.mode

/-- The first match of `"key"\s*:\s*"([^"]+)"`. -/
def extractJsonField (json key : String) : Option String :=
  (find quoted key.toList json.toList).map String.ofList

/-- `toLongOrNull` on decimal digits. -/
def toLongOrNull (s : List Char) : Option ℕ :=
  let n := s.foldl (fun n c => 10*n+(c.toNat - '0'.toNat)) 0
  if n < 2^63 then some n else none

/-- The first match of `"key"\s*:\s*(\d+)`. -/
def extractJsonLong (json key : String) : Option ℕ :=
  (find digits key.toList json.toList).bind toLongOrNull

def proxyFromJson (json : String) : String := (extractJsonField json "peer").getD "unknown"

def errorFromJson (json : String) : String := (extractJsonField json "error").getD "unknown"

def applyTransition (toState json : String) (x : SessionManager) : SessionManager :=
  match toState with
  | "Connecting" => { x with state := .connecting x.currentMode 1 }
  | "Connected" => { x with state := .connected x.currentMode (proxyFromJson json) }
  | "Reconnecting" => { x with state := .reconnecting x.currentMode 1 none }
  | "Stopping" => { x with state := .stopping x.currentMode }
  | "Idle" => { x with state := .idle, mode := .idle }
  | "Failed" => { x with state := .failed x.currentMode (errorFromJson json) true }
  | _ => x

def handleEngineEvent (json : String) (x : SessionManager) : SessionManager :=
  match extractJsonField json "kind" with
  | none => x
  | some kind =>
    if kind = "session.transition" then
      match extractJsonField json "to" with
      | none => x
      | some toState => applyTransition toState json x
    else if kind = "engine.metrics.snapshot" then
      { x with throughput := (extractJsonLong json "bytes_out").getD 0 }
    else x

end App

section Fields

def name : Engine.SessionState → String
  | .idle => "Idle"
  | .preparing _ => "Preparing"
  | .connecting _ _ => "Connecting"
  | .connected _ _ => "Connected"
  | .reconnecting _ _ _ => "Reconnecting"
  | .stopping _ _ => "Stopping"
  | .failed _ _ _ => "Failed"

/-- The fields of an event that not all states have. -/
def details : Engine.SessionState → List (List Char × List Char)
  | .connected _ peer => [("peer".toList, peer.proxyAddr.display.toList)]
  | .failed _ error _ => [("error".toList, (debug error).toList)]
  | _ => []

/-- An event up to the value of its third field. -/
def opening (toState key : List Char) : List Char :=
  '{' :: (field ("kind".toList, "session.transition".toList) ++
    ',' :: (field ("to".toList, toState) ++ ',' :: '"' :: (key ++ ['"', ':', '"'])))

theorem toList_event {front : String} {toState key : List Char}
    (h : front.toList = opening toState key) (v : String) :
    (front ++ v ++ "\"\x7d").toList = object ("kind".toList, "session.transition".toList)
      [("to".toList, toState), (key, v.toList)] := by
  have hclose : "\"\x7d".toList = ['"', '}'] := by decide
  rw [String.toList_append, String.toList_append, h, hclose]
  simp only [object, opening, others, field, List.append_assoc, List.cons_append, List.nil_append]

theorem toList_sessionStateToJson (s : Engine.SessionState) :
    (sessionStateToJson s).toList = object ("kind".toList, "session.transition".toList)
      (("to".toList, (name s).toList) :: details s) := by
  cases s with
  | connected mode peer =>
    dsimp only [sessionStateToJson, name, details]
    exact toList_event (by decide +kernel) peer.proxyAddr.display
  | failed mode error recoverable =>
    dsimp only [sessionStateToJson, name, details]
    exact toList_event (by decide +kernel) (debug error)
  | idle | preparing | connecting | reconnecting | stopping =>
    dsimp only [sessionStateToJson, name, details]
    decide +kernel

theorem plain_of {k v : String} (hk : Unquoted k) (hv : Unquoted v) (hne : v.toList ≠ []) :
    Plain (k.toList, v.toList) := ⟨hk, hv, hne⟩

theorem plain_name (s : Engine.SessionState) : Plain ("to".toList, (name s).toList) := by
  have hname : Unquoted (name s) ∧ (name s).toList ≠ [] := by
    cases s <;> dsimp only [name] <;> decide
  exact plain_of (by decide) hname.1 hname.2

theorem plain_error (error : Engine.FailureKind) :
    Plain ("error".toList, (debug error).toList) := by
  have hdebug : Unquoted (debug error) ∧ (debug error).toList ≠ [] := by
    cases error <;> decide
  exact plain_of (by decide) hdebug.1 hdebug.2

theorem plain_peer (addr : SocketAddr) : Plain ("peer".toList, addr.display.toList) :=
  plain_of (by decide) (.socketAddr addr) addr.display_ne_empty

theorem plain_details (s : Engine.SessionState) : ∀ f ∈ details s, Plain f := by
  intro f hf
  cases s with
  | connected mode peer =>
    rw [List.mem_singleton.mp hf]
    exact plain_peer peer.proxyAddr
  | failed mode error recoverable =>
    rw [List.mem_singleton.mp hf]
    exact plain_error error
  | _ => cases hf

/-- The app finds in an event the fields that the engine has put there. -/
theorem extractJsonField_event (s : Engine.SessionState) (key : String)
    (h : Unquoted key ∧ key.toList ≠ [':'] ∧ key.toList ≠ [',']) :
    extractJsonField (sessionStateToJson s) key =
      ((("kind".toList, "session.transition".toList) :: ("to".toList, (name s).toList) ::
        details s).lookup key.toList).map String.ofList := by
  rw [extractJsonField, toList_sessionStateToJson, find_object h.1 h.2.1 h.2.2]
  rw [List.forall_mem_cons, List.forall_mem_cons]
  exact ⟨plain_of (by decide) (by decide) (by decide), plain_name s, plain_details s⟩

theorem extract_kind (s : Engine.SessionState) :
    extractJsonField (sessionStateToJson s) "kind" = some "session.transition" := by
  rw [extractJsonField_event s "kind" (by decide)]
  rfl

theorem extract_to (s : Engine.SessionState) :
    extractJsonField (sessionStateToJson s) "to" = some (name s) := by
  rw [extractJsonField_event s "to" (by decide)]
  exact congrArg some String.ofList_toList

theorem proxyFromJson_event (mode : Engine.SessionMode) (peer : Engine.PeerInfo) :
    proxyFromJson (sessionStateToJson (.connected mode peer)) = peer.proxyAddr.display := by
  rw [proxyFromJson, extractJsonField_event _ "peer" (by decide)]
  exact String.ofList_toList

theorem errorFromJson_event (mode : Engine.SessionMode) (error : Engine.FailureKind)
    (recoverable : Bool) :
    errorFromJson (sessionStateToJson (.failed mode error recoverable)) = debug error := by
  rw [errorFromJson, extractJsonField_event _ "error" (by decide)]
  exact String.ofList_toList

end Fields

section Decoding

theorem handleEngineEvent_event (s : Engine.SessionState) (x : SessionManager) :
    handleEngineEvent (sessionStateToJson s) x =
      applyTransition (name s) (sessionStateToJson s) x := by
  rw [handleEngineEvent, extract_kind]
  dsimp only
  rw [if_pos rfl, extract_to]

/-- What an event makes of the SessionManager. -/
def decoded (s : Engine.SessionState) (x : SessionManager) : SessionManager :=
  match s with
  | .idle => { x with state := .idle, mode := .idle }
  | .preparing _ => x
  | .connecting _ _ => { x with state := .connecting x.currentMode 1 }
  | .connected _ peer => { x with state := .connected x.currentMode peer.proxyAddr.display }
  | .reconnecting _ _ _ => { x with state := .reconnecting x.currentMode 1 none }
  | .stopping _ _ => { x with state := .stopping x.currentMode }
  | .failed _ error _ => { x with state := .failed x.currentMode (debug error) true }

theorem handleEngineEvent_eq (s : Engine.SessionState) (x : SessionManager) :
    handleEngineEvent (sessionStateToJson s) x = decoded s x := by
  rw [handleEngineEvent_event]
  cases s with
  | connected mode peer =>
    rw [decoded, ← proxyFromJson_event mode peer]
    rfl
  | failed mode error recoverable =>
    rw [decoded, ← errorFromJson_event mode error recoverable]
    rfl
  | idle | preparing | connecting | reconnecting | stopping => rfl

def modeOf : Engine.SessionMode → SessionMode
  | .client => .client
  | .server => .server

/-- The app shows the state of the engine: the same constructor and mode, the address of the
proxy, and the name of the error with its flag. -/
def Faithful : Engine.SessionState → SessionState → Prop
  | .idle, .idle => True
  | .preparing mode, .preparing mode' => mode' = modeOf mode
  | .connecting mode _, .connecting mode' _ => mode' = modeOf mode
  | .connected mode peer, .connected mode' proxyAddr =>
    mode' = modeOf mode ∧ proxyAddr = peer.proxyAddr.display
  | .reconnecting mode _ _, .reconnecting mode' _ _ => mode' = modeOf mode
  | .stopping mode _, .stopping mode' => mode' = modeOf mode
  | .failed mode error recoverable, .failed mode' error' recoverable' =>
    mode' = modeOf mode ∧ error' = debug error ∧ recoverable' = recoverable
  | _, _ => False

/-- An event is decoded faithfully in the right mode, except that Preparing is ignored and that
every failure is taken for a recoverable one. -/
theorem event_faithful_iff (s : Engine.SessionState) (x : SessionManager) :
    Faithful s (handleEngineEvent (sessionStateToJson s) x).state ↔
      (∀ mode, s.mode = some mode → x.currentMode = modeOf mode) ∧
      (∀ mode, s = .preparing mode → ∃ mode', x.state = .preparing mode') ∧
      ∀ mode error recoverable, s = .failed mode error recoverable → recoverable = true := by
  rw [handleEngineEvent_eq]
  cases s with
  | preparing mode =>
    -- the state stays as it is
    obtain ⟨state, mode', throughput⟩ := x
    cases state <;> simp [decoded, Faithful, Engine.SessionState.mode, SessionManager.currentMode,
      SessionState.mode]
  | failed mode error recoverable =>
    simp [decoded, Faithful, Engine.SessionState.mode, eq_comm]
  | idle | connecting | connected | reconnecting | stopping =>
    simp [decoded, Faithful, Engine.SessionState.mode]

/-- A Preparing that comes to an idle app is lost, and a failure for want of permission is shown as
one to recover from. -/
theorem preparing_ignored_failure_recoverable :
    (handleEngineEvent (sessionStateToJson (.preparing .client)) ⟨.idle, .client, 0⟩).state =
      .idle ∧
    (handleEngineEvent (sessionStateToJson (.failed .client .permissionDenied false))
      ⟨.connecting .client 1, .client, 0⟩).state = .failed .client "PermissionDenied" true ∧
    ¬Faithful (.preparing .client)
      (handleEngineEvent (sessionStateToJson (.preparing .client)) ⟨.idle, .client, 0⟩).state ∧
    ¬Faithful (.failed .client .permissionDenied false)
      (handleEngineEvent (sessionStateToJson (.failed .client .permissionDenied false))
        ⟨.connecting .client 1, .client, 0⟩).state := by
  rw [handleEngineEvent_eq, handleEngineEvent_eq]
  refine ⟨rfl, rfl, id, ?_⟩
  rintro ⟨-, -, hflag⟩
  cases hflag

end Decoding

section Refinement

def addrText : AddrText → String
  | .given text => text
  | .shown addr => addr.display
  | .unknown => "unknown"

def errorText : ErrorText → String
  | .engineError code => "Engine error " ++ toString code
  | .shown error => debug error
  | .unknown => "unknown"

/-- A state with its texts written out. -/
def render : Android.SessionState → SessionState
  | .idle => .idle
  | .preparing mode => .preparing mode
  | .connecting mode attempt => .connecting mode attempt
  | .connected mode proxyAddr => .connected mode (addrText proxyAddr)
  | .reconnecting mode attempt lastError => .reconnecting mode attempt lastError
  | .stopping mode => .stopping mode
  | .failed mode error recoverable => .failed mode (errorText error) recoverable

theorem mode_render (state : Android.SessionState) : (render state).mode = state.mode := by
  cases state <;> rfl

/-- The collector on the fields of events does what the app does on their texts. -/
theorem handleEngineEvent_render (s : Engine.SessionState) (state : Android.SessionState)
    (mode : SessionMode) (throughput : ℕ) :
    handleEngineEvent (sessionStateToJson s) ⟨render state, mode, throughput⟩ =
      ⟨render (Android.applyTransition (Android.sessionStateToJson s) state
        (state.mode.getD mode)),
        if (Android.sessionStateToJson s).toState = .idle then .idle else mode, throughput⟩ := by
  rw [handleEngineEvent_eq, ← mode_render]
  cases s <;> rfl

/-- The steps of the collector on one event, when nothing comes between them. -/
theorem collector_handles {x : App} {s : Engine.SessionState} (hw : x.handler = .waiting)
    (hs : x.emitted[x.handled]? = some s) (throughput : ℕ) :
    ∃ tr y, Run AppStep x tr y ∧ y.handler = .waiting ∧ y.handled = x.handled+1 ∧
      (⟨render y.state, y.mode, throughput⟩ : SessionManager) =
        handleEngineEvent (sessionStateToJson s) ⟨render x.state, x.mode, throughput⟩ := by
  have htake := Run.single (AppStep.take hw hs)
  have hwrite := ((htake.snoc (.decide rfl)).snoc (.apply rfl)).snoc (.write rfl)
  refine ⟨_, _, hwrite, rfl, rfl, ?_⟩
  exact (handleEngineEvent_render s x.state x.mode throughput).symm

end Refinement

end GravitalShare.Android.Json
