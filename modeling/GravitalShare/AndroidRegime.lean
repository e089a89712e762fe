import GravitalShare.AndroidSession
import GravitalShare.EngineEvents

/-! SessionManager used one call at a time. What it shows is in one of two regimes: a session
has been started and the mode is set, or Connected is out of reach. -/
namespace GravitalShare.Android

open Engine (World EngineStep EngineAct Tracked)

namespace App

/-- No coroutine is in progress, no dispatch is in flight, and all events are handled. -/
structure Settled (x : App) : Prop where
  jobs : ∀ n, (x.jobs n).ended = true
  handler : x.handler = .waiting
  handled : x.handled = x.emitted.length
  quiescent : SharedCell.Quiescent x.engine.session

/-- What the collector is still to see. -/
def Pending (x : App) (P : Engine.SessionState → Prop) : Prop :=
  (∀ v ∈ x.emitted.drop x.handled, P v) ∧ ∀ v, x.engine.Storing v → P v

/-- There is nothing for the collector to see. -/
structure Drained (x : App) : Prop where
  handler : x.handler = .waiting
  handled : x.emitted.length ≤ x.handled
  storing : ∀ v, ¬x.engine.Storing v

end App

/-- A start or an acknowledgement finds the app settled and no session left, a stop finds it
settled with the engine in Connected. -/
def Calm (x : App) : AppAct → Prop
  | .launch _ .stop => x.Settled ∧ ∃ mode peer, x.engine.session.value = .connected mode peer
  | .launch _ _ => x.Settled ∧ x.engine.TasksOver
  | _ => True

namespace Handler

/-- The collector may be about to write a state of this phase. -/
def Brings (p : Phase) : Handler → Prop
  | .waiting => False
  | .applying ev current | .decided ev current _ =>
    (if ev.toState = .preparing then current.phase else ev.toState) = p
  | .writing next => next.phase = p

/-- The collector is about to reset the mode. -/
def Resets : Handler → Prop
  | .applying ev _ | .decided ev _ _ => ev.toState = .idle
  | _ => False

end Handler

/-- Connected is not shown and will not come, unless there is a start. -/
structure Closed (x : App) : Prop where
  state : x.state.phase ≠ .connected
  handler : ¬x.handler.Brings .connected
  pending : x.Pending (phaseOf · ≠ .connected)
  setUp : ¬x.engine.SetsUp

/-- The mode is set, and will be unless there is a stop. -/
structure Open (x : App) : Prop where
  mode : x.mode ≠ .idle
  handler : ¬x.handler.Resets
  pending : x.Pending (phaseOf · ≠ .idle)
  tearDown : ¬x.engine.TearsDown

section Steps

variable {x x' : App} {a : EngineAct} {e : World} {i k : ℕ}
  {P : Engine.SessionState → Prop}

theorem App.Drained.pending (h : x.Drained) : x.Pending P := by
  refine ⟨?_, fun v hv => absurd hv (h.storing v)⟩
  rw [List.drop_of_length_le h.handled]
  exact fun v hv => absurd hv List.not_mem_nil

theorem App.Settled.drained (h : x.Settled) : x.Drained := by
  refine ⟨h.handler, h.handled.ge, ?_⟩
  rintro v ⟨j, ev, hj⟩
  rcases h.quiescent j with hc | ⟨_, _, hc⟩ <;> cases hj.symm.trans hc

/-- What is told later has been written in the meantime. -/
theorem App.Pending.engine (hp : x.Pending P) (h : EngineStep x.engine a e)
    (hw : ∀ j, a = .session (.write j) → P e.session.value) :
    App.Pending { x with engine := e } P := by
  have hcalls {j : ℕ} {c : SharedCell.CallState Engine.SessionState Engine.SessionEvent
      Engine.EngineError} (hu : e.session.calls = Function.update x.engine.session.calls j c)
      (hc : ∀ ev v, c = .stored ev v → P v) (v : Engine.SessionState) (hv : e.Storing v) :
      P v := by
    obtain ⟨j', ev, hj'⟩ := hv
    rcases SharedCell.calls_cases hu j' with ⟨-, heq⟩ | heq
    · exact hc ev v (heq.symm.trans hj')
    · exact hp.2 v ⟨j', ev, heq.symm.trans hj'⟩
  rcases h.told_cases with ⟨j, ev, ha, hd, hu⟩ | ⟨j, ev, v, -, hst, hd, hu⟩ | ⟨-, hd, hst⟩
  · refine ⟨?_, hcalls hu ?_⟩
    · rw [App.emitted, hd]
      exact hp.1
    · intro ev' v hc
      cases hc
      exact hw j ha
  · refine ⟨?_, hcalls hu fun _ _ hc => by cases hc⟩
    intro v' hv'
    rw [App.emitted, hd, List.map_append, List.drop_append] at hv'
    rcases List.mem_append.mp hv' with hv' | hv'
    · exact hp.1 v' hv'
    · obtain rfl := List.mem_singleton.mp (List.mem_of_mem_drop hv')
      exact hp.2 _ ⟨j, ev, hst⟩
  · refine ⟨?_, ?_⟩
    · rw [App.emitted, hd]
      exact hp.1
    · rintro v ⟨j, ev, hj⟩
      exact hp.2 v ⟨j, ev, (hst j ev v).mp hj⟩

theorem App.Drained.engine (hd : x.Drained) (h : EngineStep x.engine a e)
    (hw : ∀ j, a ≠ .session (.write j)) : App.Drained { x with engine := e } := by
  rcases h.told_cases with ⟨j, _, ha, -⟩ | ⟨j, ev, v, -, hst, -⟩ | ⟨-, hdel, hst⟩
  · exact absurd ha (hw j)
  · exact absurd ⟨j, ev, hst⟩ (hd.storing v)
  · refine ⟨hd.handler, ?_, ?_⟩
    · rw [App.emitted, hdel]
      exact hd.handled
    · rintro v ⟨j, ev, hj⟩
      exact hd.storing v ⟨j, ev, (hst j ev v).mp hj⟩

theorem Closed.engine (hc : Closed x) (ht : Tracked x.engine i k)
    (h : EngineStep x.engine a e) (ha : ∀ i r, a ≠ .request i r) :
    Closed { x with engine := e } := by
  refine ⟨hc.state, hc.handler, hc.pending.engine h ?_, ht.not_setsUp h ha hc.setUp⟩
  rintro j rfl
  rcases ht.write_of_not_setsUp h hc.setUp with ⟨-, mode, hv⟩ | ⟨-, hv⟩
  · rw [hv]
    exact nofun
  · rw [hv]
    exact nofun

theorem Open.engine (ho : Open x) (ht : Tracked x.engine i k)
    (h : EngineStep x.engine a e) (ha : ∀ i r, a ≠ .request i r) :
    Open { x with engine := e } := by
  refine ⟨ho.mode, ho.handler, ho.pending.engine h ?_, ht.not_tearsDown h ha ho.tearDown⟩
  rintro j rfl hp
  have hne := ht.write_ne_idle h ho.tearDown
  cases hv : e.session.value with
  | idle => exact hne hv
  | _ =>
    rw [hv] at hp
    cases hp

/-- Coroutines and the mode are no concern of what may become Connected. -/
theorem Closed.of_eq (hc : Closed x) (he : x'.engine = x.engine) (hh : x'.handler = x.handler)
    (hn : x'.handled = x.handled) (hs : x'.state.phase ≠ .connected) : Closed x' := by
  refine ⟨hs, ?_, ?_, ?_⟩
  · rw [hh]
    exact hc.handler
  · rw [App.Pending, App.emitted, he, hn]
    exact hc.pending
  · rw [he]
    exact hc.setUp

theorem Open.of_eq (ho : Open x) (he : x'.engine = x.engine) (hh : x'.handler = x.handler)
    (hn : x'.handled = x.handled) (hm : x'.mode ≠ .idle) : Open x' := by
  refine ⟨hm, ?_, ?_, ?_⟩
  · rw [hh]
    exact ho.handler
  · rw [App.Pending, App.emitted, he, hn]
    exact ho.pending
  · rw [he]
    exact ho.tearDown

theorem App.Pending.next (hp : x.Pending P) {v : Engine.SessionState}
    (hv : x.emitted[x.handled]? = some v) : P v := by
  apply hp.1
  obtain ⟨hlt, heq⟩ := List.getElem?_eq_some_iff.mp hv
  rw [← List.getElem_cons_drop hlt, heq]
  exact List.mem_cons_self

theorem App.Pending.advance (hp : x.Pending P) (y : App) (he : y.engine = x.engine)
    (hn : y.handled = x.handled+1) : y.Pending P := by
  rw [App.Pending, App.emitted, he, hn]
  refine ⟨?_, hp.2⟩
  intro v hv
  rw [← List.drop_drop, List.drop_one] at hv
  exact hp.1 v (List.mem_of_mem_tail hv)

theorem Closed.handler_step (hc : Closed x) (h : AppStep x .handler x') : Closed x' := by
  have hh := hc.handler
  cases h with
  | @take v _ hv =>
    refine ⟨hc.state, ?_, hc.pending, hc.setUp⟩
    have hne := hc.pending.next hv
    rw [Handler.Brings, toState_sessionStateToJson]
    split
    · exact hc.state
    · exact hne
  | decide h =>
    rw [h] at hh
    exact ⟨hc.state, hh, hc.pending, hc.setUp⟩
  | @apply ev current m h =>
    rw [h] at hh
    refine ⟨hc.state, ?_, hc.pending, hc.setUp⟩
    rw [Handler.Brings, phase_applyTransition]
    exact hh
  | @write next h =>
    rw [h] at hh
    exact ⟨hh, id, hc.pending.advance _ rfl rfl, hc.setUp⟩

theorem Open.handler_step (ho : Open x) (h : AppStep x .handler x') : Open x' := by
  have hh := ho.handler
  cases h with
  | @take v _ hv =>
    refine ⟨ho.mode, ?_, ho.pending, ho.tearDown⟩
    rw [Handler.Resets, toState_sessionStateToJson]
    exact ho.pending.next hv
  | decide h =>
    rw [h] at hh
    exact ⟨ho.mode, hh, ho.pending, ho.tearDown⟩
  | @apply ev current m h =>
    rw [h] at hh
    refine ⟨?_, id, ho.pending, ho.tearDown⟩
    have hne : ev.toState ≠ .idle := hh
    dsimp only
    rw [if_neg hne]
    exact ho.mode
  | write h => exact ⟨ho.mode, id, ho.pending.advance _ rfl rfl, ho.tearDown⟩

theorem App.Drained.of_eq (hd : x.Drained) (he : x'.engine = x.engine)
    (hh : x'.handler = x.handler) (hn : x'.handled = x.handled) : x'.Drained := by
  refine ⟨hh.trans hd.handler, ?_, ?_⟩
  · rw [App.emitted, he, hn]
    exact hd.handled
  · rw [he]
    exact hd.storing

theorem Closed.of_drained (hd : x.Drained) (hs : x.state.phase ≠ .connected)
    (hno : ¬x.engine.SetsUp) : Closed x :=
  ⟨hs, by rw [hd.handler]; exact id, hd.pending, hno⟩

theorem Open.of_drained (hd : x.Drained) (hm : x.mode ≠ .idle) (hno : ¬x.engine.TearsDown) :
    Open x :=
  ⟨hm, by rw [hd.handler]; exact id, hd.pending, hno⟩

/-- There is nothing to do for the collector. -/
theorem App.Drained.not_handler_step (hd : x.Drained) : ¬AppStep x .handler x' := by
  intro h
  cases h with
  | take _ hv =>
    obtain ⟨hlt, -⟩ := List.getElem?_eq_some_iff.mp hv
    exact absurd hd.handled (Nat.not_le_of_lt hlt)
  | decide h | apply h | write h => cases h.symm.trans hd.handler

end Steps

/-- What holds while a coroutine is at `pc`, with `i` the engine's latest call. -/
def Stage (x : App) (i : ℕ) : Pc → Prop
  | .unused | .done => x.engine.CallsOver ∧ (Closed x ∨ Open x)
  | .setMode _ | .setIdle none =>
    x.Drained ∧ x.engine.CallsOver ∧ x.engine.TasksOver ∧ (Closed x ∨ Open x)
  | .setPreparing _ | .callStart _ =>
    x.Drained ∧ x.engine.CallsOver ∧ x.engine.TasksOver ∧ (Closed x ∨ Open x) ∧ x.mode ≠ .idle
  | .inStart _ i' => i' = i ∧ Open x
  | .report _ _ => x.engine.CallsOver ∧ Open x
  | .readState | .readMode _ | .setStopping _ => x.Drained ∧ x.engine.Up ∧ (Closed x ∨ Open x)
  | .callStop => x.engine.Up ∧ Closed x
  | .inStop i' => i' = i ∧ Closed x ∧ (x.engine.solo i 0).StopsWell
  | .setIdle (some i') | .setModeIdle (some i') =>
    x.engine.CallsOver ∧ Closed x ∧ x.engine.calls i' = .ready (.returned (.ok ()))
  | .setModeIdle none => x.engine.CallsOver ∧ Closed x

/-- One coroutine at a time, over an engine whose sessions do not overlap. -/
structure Inv (x : App) (i k n : ℕ) : Prop where
  tracked : Tracked x.engine i k
  others : ∀ n', n' ≠ n → (x.jobs n').ended = true
  stage : Stage x i (x.jobs n)

section Invariant

variable {x x' : App} {a : AppAct} {i k n : ℕ} {pc : Pc}

theorem Inv.new : Inv App.new 0 0 0 := by
  refine ⟨Tracked.new, fun _ _ => rfl, fun i => ⟨_, rfl, rfl⟩, Or.inl ⟨nofun, id, ?_, ?_⟩⟩
  · refine ⟨fun v hv => absurd hv List.not_mem_nil, ?_⟩
    rintro v ⟨j, ev, hj⟩
    cases hj
  · exact Tracked.new.not_setsUp_of_over (fun i => ⟨_, rfl, rfl⟩) fun _ => rfl

theorem Stage.regime (hs : Stage x i pc) : Closed x ∨ Open x := by
  cases pc with
  | unused | done => exact hs.2
  | setMode s => exact hs.2.2.2
  | setPreparing s | callStart s => exact hs.2.2.2.1
  | inStart s i' => exact Or.inr hs.2
  | report s code => exact Or.inr hs.2
  | readState | readMode current | setStopping m => exact hs.2.2
  | callStop => exact Or.inl hs.2
  | inStop i' => exact Or.inl hs.2.1
  | setIdle o =>
    cases o with
    | none => exact hs.2.2.2
    | some i' => exact Or.inl hs.2.1
  | setModeIdle o =>
    cases o with
    | none => exact Or.inl hs.2
    | some i' => exact Or.inl hs.2.1

theorem Stage.engine (hs : Stage x i pc) (ht : Tracked x.engine i k) {a : EngineAct} {e : World}
    (h : EngineStep x.engine a e) (ha : ∀ i r, a ≠ .request i r) :
    Stage { x with engine := e } i pc := by
  have hregime (hr : Closed x ∨ Open x) :
      Closed { x with engine := e } ∨ Open { x with engine := e } := by
    rcases hr with hc | ho
    · exact Or.inl (hc.engine ht h ha)
    · exact Or.inr (ho.engine ht h ha)
  have hquiet (hd : x.Drained) (hc : x.engine.CallsOver) (hto : x.engine.TasksOver) :
      App.Drained { x with engine := e } ∧ e.CallsOver ∧ e.TasksOver := by
    obtain ⟨hc', hto', hw⟩ := ht.at_rest h ha hc hto
    exact ⟨hd.engine h hw, hc', hto'⟩
  have hret {i' : ℕ} (hr : x.engine.calls i' = .ready (.returned (.ok ()))) :
      e.calls i' = .ready (.returned (.ok ())) := (h.calls_eq_of_ended ha hr rfl).trans hr
  cases pc with
  | unused | done => exact ⟨h.callsOver ha hs.1, hregime hs.2⟩
  | setMode s =>
    obtain ⟨hd, hc, hto, hr⟩ := hs
    obtain ⟨hd', hc', hto'⟩ := hquiet hd hc hto
    exact ⟨hd', hc', hto', hregime hr⟩
  | setPreparing s | callStart s =>
    obtain ⟨hd, hc, hto, hr, hm⟩ := hs
    obtain ⟨hd', hc', hto'⟩ := hquiet hd hc hto
    exact ⟨hd', hc', hto', hregime hr, hm⟩
  | inStart s i' => exact ⟨hs.1, hs.2.engine ht h ha⟩
  | report s code => exact ⟨h.callsOver ha hs.1, hs.2.engine ht h ha⟩
  | readState | readMode current | setStopping m =>
    obtain ⟨hd, hup, hr⟩ := hs
    obtain ⟨hup', hw⟩ := ht.up h ha hup
    exact ⟨hd.engine h hw, hup', hregime hr⟩
  | callStop => exact ⟨(ht.up h ha hs.1).1, hs.2.engine ht h ha⟩
  | inStop i' =>
    refine ⟨hs.1, hs.2.1.engine ht h ha, ?_⟩
    obtain ⟨k', ht', hsolo, hstep | heq⟩ := ht.own_step h ha
    · exact hstep.stopsWell hsolo (fun hm => hs.2.1.setUp ⟨i, k, hm⟩) hs.2.2
    · have hw : (e.solo i k').StopsWell := by
        rw [heq]
        exact hs.2.2
      exact hw
  | setIdle o =>
    cases o with
    | none =>
      obtain ⟨hd, hc, hto, hr⟩ := hs
      obtain ⟨hd', hc', hto'⟩ := hquiet hd hc hto
      exact ⟨hd', hc', hto', hregime hr⟩
    | some i' => exact ⟨h.callsOver ha hs.1, hs.2.1.engine ht h ha, hret hs.2.2⟩
  | setModeIdle o =>
    cases o with
    | none => exact ⟨h.callsOver ha hs.1, hs.2.engine ht h ha⟩
    | some i' => exact ⟨h.callsOver ha hs.1, hs.2.1.engine ht h ha, hret hs.2.2⟩

theorem AppStep.handler_engine (h : AppStep x .handler x') :
    x'.engine = x.engine ∧ x'.jobs = x.jobs := by
  cases h <;> exact ⟨rfl, rfl⟩

theorem Stage.handler (hs : Stage x i pc) (h : AppStep x .handler x') : Stage x' i pc := by
  have hregime (hr : Closed x ∨ Open x) : Closed x' ∨ Open x' := by
    rcases hr with hc | ho
    · exact Or.inl (hc.handler_step h)
    · exact Or.inr (ho.handler_step h)
  obtain ⟨he, -⟩ := h.handler_engine
  cases pc with
  | unused | done => exact ⟨by rw [he]; exact hs.1, hregime hs.2⟩
  | setMode s => exact absurd h hs.1.not_handler_step
  | setPreparing s | callStart s => exact absurd h hs.1.not_handler_step
  | inStart s i' => exact ⟨hs.1, hs.2.handler_step h⟩
  | report s code => exact ⟨by rw [he]; exact hs.1, hs.2.handler_step h⟩
  | readState | readMode current | setStopping m => exact absurd h hs.1.not_handler_step
  | callStop => exact ⟨by rw [he]; exact hs.1, hs.2.handler_step h⟩
  | inStop i' => exact ⟨hs.1, hs.2.1.handler_step h, by rw [he]; exact hs.2.2⟩
  | setIdle o =>
    cases o with
    | none => exact absurd h hs.1.not_handler_step
    | some i' =>
      exact ⟨by rw [he]; exact hs.1, hs.2.1.handler_step h, by rw [he]; exact hs.2.2⟩
  | setModeIdle o =>
    cases o with
    | none => exact ⟨by rw [he]; exact hs.1, hs.2.handler_step h⟩
    | some i' =>
      exact ⟨by rw [he]; exact hs.1, hs.2.1.handler_step h, by rw [he]; exact hs.2.2⟩

theorem Start.mode_ne_idle (s : Start) : s.mode ≠ .idle := by
  cases s <;> exact nofun

/-- A coroutine reads or writes one of the flows. -/
theorem Stage.access (hs : Stage x i pc) (ht : Tracked x.engine i k) {pc' : Pc}
    {state : SessionState} {mode : SessionMode}
    (h : pc.access x.state x.mode = some (pc', state, mode)) (y : App)
    (hy : y = { x.setJob n pc' with state := state, mode := mode }) : Stage y i pc' := by
  subst hy
  cases pc with
  | setMode s =>
    cases h
    obtain ⟨hd, hc, hto, hr⟩ := hs
    refine ⟨hd.of_eq rfl rfl rfl, hc, hto, ?_, s.mode_ne_idle⟩
    exact hr.imp (fun hc => hc.of_eq rfl rfl rfl hc.state)
      fun ho => ho.of_eq rfl rfl rfl s.mode_ne_idle
  | setPreparing s =>
    cases h
    obtain ⟨hd, hc, hto, hr, hm⟩ := hs
    refine ⟨hd.of_eq rfl rfl rfl, hc, hto, ?_, hm⟩
    exact hr.imp (fun hc => hc.of_eq rfl rfl rfl nofun) fun ho => ho.of_eq rfl rfl rfl hm
  | report s code =>
    cases h
    exact ⟨hs.1, Or.inr (hs.2.of_eq rfl rfl rfl hs.2.mode)⟩
  | readState | readMode current =>
    cases h
    obtain ⟨hd, hup, hr⟩ := hs
    refine ⟨hd.of_eq rfl rfl rfl, hup, ?_⟩
    exact hr.imp (fun hc => hc.of_eq rfl rfl rfl hc.state)
      fun ho => ho.of_eq rfl rfl rfl ho.mode
  | setStopping m =>
    -- nothing is left that could bring Connected back
    cases h
    obtain ⟨hd, hup, -⟩ := hs
    exact ⟨hup, Closed.of_drained (hd.of_eq rfl rfl rfl) nofun hup.setUp⟩
  | setIdle o =>
    cases h
    cases o with
    | none =>
      obtain ⟨hd, hc, hto, -⟩ := hs
      exact ⟨hc, Closed.of_drained (hd.of_eq rfl rfl rfl) nofun (ht.not_setsUp_of_over hc hto)⟩
    | some i' => exact ⟨hs.1, hs.2.1.of_eq rfl rfl rfl nofun, hs.2.2⟩
  | setModeIdle o =>
    cases h
    have hc : Closed x := by
      cases o with
      | none => exact hs.2
      | some i' => exact hs.2.1
    have hover : x.engine.CallsOver := by
      cases o with
      | none => exact hs.1
      | some i' => exact hs.1
    exact ⟨hover, Or.inl (hc.of_eq rfl rfl rfl hc.state)⟩
  | _ => cases h

/-- A coroutine calls the engine. -/
theorem Stage.call (hs : Stage x i pc) (ht : Tracked x.engine i k) {pc' : Pc} {i' : ℕ}
    {r : Engine.Request} {e : World} (h : pc.call i' = some (r, pc'))
    (he : EngineStep x.engine (.request i' r) e) (y : App)
    (hy : y = { x.setJob n pc' with engine := e }) :
    Tracked y.engine i' k ∧ Stage y i' pc' := by
  subst hy
  cases he with
  | request _ hunused =>
    cases pc with
    | callStart s =>
      cases h
      obtain ⟨hd, hc, hto, -, hm⟩ := hs
      obtain ⟨hshadow, -⟩ := ht.shadow.request (.start s.engine) ⟨hc, fun _ => hto⟩
      have ht' : Tracked _ i' k := ⟨hshadow, ht.polling⟩
      refine ⟨ht', rfl, Open.of_drained ⟨hd.handler, hd.handled, hd.storing⟩ hm ?_⟩
      intro hdown
      rcases hshadow.alone.tearsDown hdown with hcall | ⟨htask, -⟩
      · rw [World.solo_call (World.calls_setCall_self x.engine i' _)] at hcall
        rcases s.engine.entry_cases with ⟨-, h⟩ | ⟨-, h⟩ <;> rw [h] at hcall <;>
          rcases hcall with hcall | hcall <;> cases hcall
      · obtain ⟨pc, hpc, hdead⟩ := ht'.tasks_ready hto k
        rw [World.solo_task hpc] at htask
        exact htask ((Engine.TaskPc.alive_eq_false_iff pc).mp hdead)
    | callStop =>
      cases h
      obtain ⟨hup, hc⟩ := hs
      obtain ⟨hshadow, -⟩ := ht.shadow.request .stop ⟨hup.calls, nofun⟩
      have ht' : Tracked _ i' k := ⟨hshadow, ht.polling⟩
      have hcall := World.solo_call (k := k) (World.calls_setCall_self x.engine i'
        (.ready Engine.Request.stop.entry))
      have hno : ¬World.SetsUp (x.engine.setCall i' (.ready Engine.Request.stop.entry)) := by
        intro hup'
        rcases hshadow.alone.setsUp hup' with hs | hs
        · rw [hcall] at hs
          cases hs
        · exact hup.setUp ⟨i, k, Or.inr hs⟩
      exact ⟨ht', rfl, ⟨hc.state, hc.handler, hc.pending, hno⟩, Or.inl ⟨hcall, hup.connected⟩⟩
    | _ => cases h

/-- The engine has answered. -/
theorem Stage.resume (hs : Stage x i pc) (ht : Tracked x.engine i k) {pc' : Pc} {i' : ℕ}
    {result : Except Engine.EngineError Unit} (h : pc.resume result = some (i', pc'))
    (hr : x.engine.calls i' = .ready (.returned result)) : Stage (x.setJob n pc') i pc' := by
  have hover (hi : i' = i) : x.engine.CallsOver := by
    intro i''
    rcases eq_or_ne i'' i' with rfl | hne
    · exact ⟨_, hr, rfl⟩
    · exact ht.shadow.alone.calls i'' (hi ▸ hne)
  cases pc with
  | inStart s i₁ =>
    cases h
    exact ⟨hover hs.1, hs.2.of_eq rfl rfl rfl hs.2.mode⟩
  | inStop i₁ =>
    cases h
    obtain ⟨rfl, hc, hwell⟩ := hs
    -- the one answer that a stop of a Connected session gets
    obtain rfl : result = .ok () := by
      have hcall := World.solo_call (k := 0) hr
      rcases hwell with ⟨hw, -⟩ | hw | hw <;> cases hcall.symm.trans hw
      rfl
    exact ⟨hover rfl, hc.of_eq rfl rfl rfl hc.state, hr⟩
  | _ => cases h

theorem Stage.of_ended (hs : Stage x i pc) (ho : pc.ended = true) :
    x.engine.CallsOver ∧ (Closed x ∨ Open x) := by
  cases pc with
  | unused | done => exact hs
  | _ => cases ho

theorem App.setJob_cases (x : App) (n n' : ℕ) (pc : Pc) :
    n' = n ∧ (x.setJob n pc).jobs n' = pc ∨ n' ≠ n ∧ (x.setJob n pc).jobs n' = x.jobs n' := by
  rcases eq_or_ne n' n with rfl | hne
  · exact Or.inl ⟨rfl, Function.update_self _ _ _⟩
  · exact Or.inr ⟨hne, Function.update_of_ne hne _ _⟩

theorem App.jobs_setJob_self (x : App) (n : ℕ) (pc : Pc) : (x.setJob n pc).jobs n = pc :=
  Function.update_self _ _ _

/-- The one coroutine in progress. -/
theorem App.job_eq (h : ∀ n', n' ≠ n → (x.jobs n').ended = true) {n' : ℕ}
    (hpc : (x.jobs n').ended = false) : n' = n := by
  by_contra hne
  cases (h n' hne).symm.trans hpc

theorem App.others_setJob (h : ∀ n', n' ≠ n → (x.jobs n').ended = true) (pc : Pc) (n' : ℕ)
    (hne : n' ≠ n) : ((x.setJob n pc).jobs n').ended = true := by
  rcases x.setJob_cases n n' pc with ⟨heq, -⟩ | ⟨-, heq⟩
  · exact absurd heq hne
  · rw [heq]
    exact h n' hne

theorem Inv.job_eq (hi : Inv x i k n) {n' : ℕ} (hpc : (x.jobs n').ended = false) : n' = n :=
  App.job_eq hi.others hpc

/-- The one coroutine in progress has moved on. -/
theorem Inv.move (hi : Inv x i k n) {i' k' : ℕ} {pc' : Pc}
    (hjobs : x'.jobs = (x.setJob n pc').jobs) (ht : Tracked x'.engine i' k')
    (hs : Stage x' i' pc') : Inv x' i' k' n := by
  refine ⟨ht, ?_, ?_⟩
  · rw [hjobs]
    exact App.others_setJob hi.others pc'
  · rw [hjobs, App.jobs_setJob_self]
    exact hs

/-- A coroutine is launched when none is in progress. -/
theorem Inv.launch (hi : Inv x i k n) {n' : ℕ} (l : Launch) (hc : Calm x (.launch n' l)) :
    Inv (x.setJob n' l.entry) i k n' := by
  have hsettled : x.Settled := by
    cases l with
    | stop | start s | acknowledgeError => exact hc.1
  obtain ⟨hover, hr⟩ := hi.stage.of_ended (hsettled.jobs n)
  have hd : App.Drained (x.setJob n' l.entry) := hsettled.drained.of_eq rfl rfl rfl
  have hr' : Closed (x.setJob n' l.entry) ∨ Open (x.setJob n' l.entry) :=
    hr.imp (fun hc => hc.of_eq rfl rfl rfl hc.state) fun ho => ho.of_eq rfl rfl rfl ho.mode
  refine ⟨hi.tracked, App.others_setJob (fun n'' _ => hsettled.jobs n'') l.entry, ?_⟩
  rw [App.jobs_setJob_self]
  cases l with
  | start s => exact ⟨hd, hover, hc.2, hr'⟩
  | acknowledgeError => exact ⟨hd, hover, hc.2, hr'⟩
  | stop =>
    refine ⟨hd, ⟨hover, ?_, hc.2⟩, hr'⟩
    -- a session that is still being set up is not Connected
    intro hup
    rcases hi.tracked.shadow.alone.setsUp hup with hs | hs
    · have ho := Engine.CallPc.starting_of_ended (Tracked.call_ended hover i k)
      cases hs.symm.trans ho
    · obtain ⟨mode, attempt, hv⟩ := hi.tracked.shadow.orderly.dialing hs
      obtain ⟨_, _, hv'⟩ := hc.2
      cases hv.symm.trans hv'

theorem AppStep.inv (h : AppStep x a x') (hc : Calm x a) (hi : Inv x i k n) :
    ∃ i' k' n', Inv x' i' k' n' := by
  cases a with
  | launch n' l =>
    cases h with
    | launch => exact ⟨i, k, n', hi.launch l hc⟩
  | job n' =>
    cases h with
    | access h =>
      obtain rfl := hi.job_eq (Pc.ended_of_access h)
      exact ⟨i, k, n', hi.move rfl hi.tracked (hi.stage.access hi.tracked h _ rfl)⟩
    | @call _ i' _ _ _ h he =>
      obtain rfl := hi.job_eq (Pc.ended_of_call h)
      obtain ⟨ht, hs⟩ := hi.stage.call (n := n') hi.tracked h he _ rfl
      exact ⟨i', k, n', hi.move rfl ht hs⟩
    | resume h hr =>
      obtain rfl := hi.job_eq (Pc.ended_of_resume h)
      exact ⟨i, k, n', hi.move rfl hi.tracked (hi.stage.resume hi.tracked h hr)⟩
  | handler =>
    obtain ⟨he, hj⟩ := h.handler_engine
    refine ⟨i, k, n, by rw [he]; exact hi.tracked, by rw [hj]; exact hi.others, ?_⟩
    rw [hj]
    exact hi.stage.handler h
  | engine a =>
    cases h with
    | engine ha he =>
      obtain ⟨k', ht, -⟩ := hi.tracked.own_step he ha
      exact ⟨i, k', n, ht, hi.others, hi.stage.engine hi.tracked he ha⟩

theorem inv_of_run {tr : List (App × AppAct)} (h : Run AppStep App.new tr x)
    (hcalm : ∀ q ∈ tr, Calm q.1 q.2) : ∃ i k n, Inv x i k n := by
  refine h.history_of Calm (fun _ x => ∃ i k n, Inv x i k n) ⟨0, 0, 0, Inv.new⟩ ?_ hcalm
  rintro tr x a x' ⟨i, k, n, hi⟩ hc hstep
  exact hstep.inv hc hi

end Invariant

end GravitalShare.Android
