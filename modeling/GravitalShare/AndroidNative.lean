import GravitalShare.AndroidSession
import GravitalShare.EngineConfig
import GravitalShare.EngineHistory

/-! The native `startClient`, called while nothing else is going on in the engine. -/
namespace GravitalShare.Android

open Engine (World EngineStep EngineAct EngineError dispatch)
open Engine.Config

def OK : ℤ := 0
def NOT_INITIALIZED : ℤ := -3

/-- The state of the session, and the configurations of the client sessions spawned so far. -/
structure Core where
  state : Engine.SessionState
  clients : List ClientConfig
  deriving DecidableEq, Repr

/-- `Engine::start_client`. The listeners have no part in its outcome. -/
def Core.startClient (c : Core) (tunFd : ℤ) (cfg : ClientConfig) : Except EngineError Unit × Core :=
  if tunFd < 0 then (.error .invalidFd, c)
  else
    -- `force_idle`
    let state := if c.state ≠ .idle then .idle else c.state
    let userStart := dispatch ([] : List Unit) state (.userStart .client)
    match userStart.result with
    | .error e => (.error e, { c with state := userStart.after })
    | .ok () =>
      let engineReady := dispatch ([] : List Unit) userStart.after .engineReady
      match engineReady.result with
      | .error e => (.error e, { c with state := engineReady.after })
      | .ok () => (.ok (), ⟨engineReady.after, c.clients ++ [cfg]⟩)

theorem Core.startClient_eq (c : Core) (tunFd : ℤ) (cfg : ClientConfig) :
    c.startClient tunFd cfg = if tunFd < 0 then (.error .invalidFd, c)
      else (.ok (), ⟨.connecting .client 1, c.clients ++ [cfg]⟩) := by
  have hidle : (if c.state ≠ .idle then .idle else c.state) = Engine.SessionState.idle := by
    split_ifs with h
    · rfl
    · exact not_not.mp h
  rw [Core.startClient, hidle]
  rfl

section Native

variable (read : List Char → Option JsonText.Value)

/-- What the engine makes of the JSON text. -/
def clientConfig (json : List Char) : ClientConfig :=
  match EngineConfig.fromStr read json with
  | some (.client c) => c
  | _ => ClientConfig.default

/-- `EngineBridge.startClient`. There is no engine if none could be initialised. -/
def nativeStartClient (engine : Option Core) (tunFd : ℤ) (json : List Char) : ℤ × Option Core :=
  if tunFd < 0 then (INVALID_FD, engine)
  else
    match engine with
    | none => (NOT_INITIALIZED, none)
    | some c =>
      let (result, c') := c.startClient tunFd (clientConfig read json)
      (ffiCode result, some c')

/-- It never fails because of the text. -/
theorem nativeStartClient_some {tunFd : ℤ} (h : ¬tunFd < 0) (c : Core) (json : List Char) :
    nativeStartClient read (some c) tunFd json =
      (OK, some ⟨.connecting .client 1, c.clients ++ [clientConfig read json]⟩) := by
  rw [nativeStartClient, if_neg h, Core.startClient_eq, if_neg h]
  rfl

end Native

section Interleaved

/-- What of a configuration the task of the session is modelled with. -/
def running (cfg : ClientConfig) : Engine.ClientConfig := ⟨cfg.proxyAddr, cfg.mtu⟩

/-- A call dispatches its next event and nothing comes between. -/
theorem call_dispatches {e : World} {i j : ℕ} {pc : Engine.CallPc} {ev : Engine.SessionEvent}
    {next : Engine.SessionState} (hcall : e.calls i = .ready pc) (hev : pc.event = some ev)
    (hj : e.session.calls j = .idle) (hread : SharedCell.afterRead Engine.transition e.session.value
      ev = .loaded ev e.session.value next) :
    ∃ tr e', Run EngineStep e tr e' ∧ e'.calls i = .ready (pc.resume (.ok ())) ∧
      e'.session.value = next ∧ (∀ j', j' ≠ j → e'.session.calls j' = e.session.calls j') ∧
      e'.tasks = e.tasks := by
  have h1 : EngineStep e (.callDispatch i j) _ := .callDispatch hcall hev (.invoke _ hj)
  obtain ⟨_, h2⟩ := Engine.dispatch_completes j (Run.single h1) (Function.update_self _ _ _) hread
  have h3 := h2.snoc
    (.callReturn (i := i) (Function.update_self _ _ _) (Function.update_self _ _ _))
  refine ⟨_, _, h3, Function.update_self _ _ _, rfl, ?_, rfl⟩
  intro j' hne
  exact (Function.update_of_ne hne _ _).trans (Function.update_of_ne hne _ _)

/-- A start leaves whatever session there is and finds the state idle. -/
theorem userStart_reached {e : World} {i : ℕ} {s : Engine.Start}
    (hcall : e.calls i = .ready (.checkState s)) :
    ∃ tr e', Run EngineStep e tr e' ∧ e'.calls i = .ready (.userStart s) ∧
      e'.session.value = .idle ∧ e'.session.calls = e.session.calls ∧ e'.tasks = e.tasks := by
  have h1 : EngineStep e (.call i) _ := .checkState hcall
  by_cases hidle : e.session.value = .idle
  · rw [if_pos hidle] at h1
    exact ⟨_, _, Run.single h1, Function.update_self _ _ _, hidle, rfl, rfl⟩
  · rw [if_neg hidle] at h1
    have h2 := (Run.single h1).snoc (.forceIdle (i := i) (Function.update_self _ _ _))
    classical
    have h3 := h2.snoc (.sendFalse (i := i) (Function.update_self _ _ _) decide_eq_true_iff)
    exact ⟨_, _, h3, Function.update_self _ _ _, rfl, rfl, rfl⟩

/-- The rest of a call that has found the session idle. -/
theorem userStart_completes {e : World} {i j j' k : ℕ} {tunFd : ℤ} {cfg : Engine.ClientConfig}
    (hcall : e.calls i = .ready (.userStart (.client tunFd cfg))) (hvalue : e.session.value = .idle)
    (hj : e.session.calls j = .idle) (hj' : e.session.calls j' = .idle) (hne : j' ≠ j)
    (hk : e.tasks k = .absent) :
    ∃ tr e', Run EngineStep e tr e' ∧ e'.calls i = .ready (.returned (.ok ())) ∧
      e'.session.value = .connecting .client 1 ∧
      ∃ rx, e'.tasks k = ⟨.ready (.client tunFd cfg rx .openTun), .unspawned⟩ := by
  obtain ⟨_, e₁, h1, hcall₁, hvalue₁, hcalls₁, htasks₁⟩ :=
    call_dispatches hcall rfl hj (by rw [hvalue]; rfl)
  obtain ⟨_, e₂, h2, hcall₂, hvalue₂, -, htasks₂⟩ :=
    call_dispatches hcall₁ rfl ((hcalls₁ j' hne).trans hj') (by rw [hvalue₁]; rfl)
  have hk₂ : e₂.tasks k = .absent := by rw [htasks₂, htasks₁, hk]
  have h3 := ((h1.append h2).snoc (.subscribe hcall₂)).snoc
    (.spawn (i := i) (Function.update_self _ _ _) hk₂)
  exact ⟨_, _, h3, Function.update_self _ _ _, hvalue₂, _, Function.update_self _ _ _⟩

/-- The call has the same outcome in the engine with its tasks, if it is left alone. -/
theorem startClient_runs {e : World} {i j j' k : ℕ} (tunFd : ℤ) (cfg : ClientConfig)
    (clients : List ClientConfig) (hcall : e.calls i = .ready .unused)
    (hj : e.session.calls j = .idle) (hj' : e.session.calls j' = .idle) (hne : j' ≠ j)
    (hk : e.tasks k = .absent) :
    ∃ tr e' result c', Run EngineStep e tr e' ∧
      Core.startClient ⟨e.session.value, clients⟩ tunFd cfg = (result, c') ∧
      e'.calls i = .ready (.returned result) ∧ e'.session.value = c'.state ∧
      (result = .ok () → c'.clients = clients ++ [cfg] ∧
        ∃ rx, e'.tasks k = ⟨.ready (.client tunFd (running cfg) rx .openTun), .unspawned⟩) := by
  have h1 : EngineStep e (.request i (.start (.client tunFd (running cfg)))) _ := .request _ hcall
  rw [Core.startClient_eq]
  by_cases hfd : tunFd < 0
  · rw [if_pos hfd]
    refine ⟨_, _, _, _, Run.single h1, rfl, ?_, rfl, fun h => by cases h⟩
    rw [World.calls_setCall_self, Engine.Request.entry, if_pos hfd]
  rw [if_neg hfd]
  rw [Engine.Request.entry, if_neg hfd] at h1
  obtain ⟨_, e₁, h2, hcall₁, hvalue₁, hcalls₁, htasks₁⟩ := userStart_reached
    (World.calls_setCall_self e i (.ready (.checkState (.client tunFd (running cfg)))))
  obtain ⟨_, e', h3, hreturned, hvalue, htask⟩ := userStart_completes hcall₁ hvalue₁
    ((congrFun hcalls₁ j).trans hj) ((congrFun hcalls₁ j').trans hj') hne
    ((congrFun htasks₁ k).trans hk)
  exact ⟨_, e', _, _, ((Run.single h1).append h2).append h3, rfl, hreturned, hvalue,
    fun _ => ⟨rfl, htask⟩⟩

end Interleaved

end GravitalShare.Android
