import GravitalShare.AndroidRegime
import GravitalShare.EngineStart

/-! What SessionManager shows after a start. The coroutine and the collector of events both write
the state, and the coroutine writes what it expects rather than what the engine reports. -/
namespace GravitalShare.Android

open Engine (World EngineStep EngineAct Tracked)

theorem getElem?_of_isPrefix {α : Type} {l l' : List α} (h : l <+: l') {n : ℕ} {a : α}
    (hn : l[n]? = some a) : l'[n]? = some a := by
  obtain ⟨t, rfl⟩ := h
  rw [List.getElem?_append_left (List.getElem?_eq_some_iff.mp hn).1]
  exact hn

/-- What the engine reports of a session that is being set up. -/
def StartPhases (w : List Phase) : Prop :=
  ∃ p, (p = .connected ∨ p = .failed) ∧ w <+: [.preparing, .connecting, p]

namespace StartPhases

variable {w : List Phase} {n : ℕ}

theorem preparing (h : StartPhases w) (hn : w[n]? = some .preparing) : n = 0 := by
  obtain ⟨p, hp, hw⟩ := h
  have hn' := getElem?_of_isPrefix hw hn
  match n with
  | 0 => rfl
  | 1 => cases hn'
  | 2 => rcases hp with rfl | rfl <;> cases hn'
  | n+3 => cases hn'

theorem length_le (h : StartPhases w) : w.length ≤ 3 := by
  obtain ⟨p, -, hw⟩ := h
  exact hw.length_le

/-- Preparing and Connecting are the first states shown. -/
theorem early (h : StartPhases w) {q : Phase} (hq : q = .preparing ∨ q = .connecting)
    (hn : (.preparing :: w)[n]? = some q) : n < 2 ∨ n = 2 ∧ q = .connecting := by
  obtain ⟨p, hp, hw⟩ := h
  have hn' := getElem?_of_isPrefix (List.cons_prefix_cons.mpr ⟨rfl, hw⟩) hn
  match n with
  | 0 | 1 => exact Or.inl (by decide)
  | 2 => exact Or.inr ⟨rfl, (Option.some.inj hn').symm⟩
  | 3 => rcases hp with rfl | rfl <;> rcases hq with rfl | rfl <;> cases hn'
  | n+4 => cases hn'

/-- What is shown later is shown last. -/
theorem late (h : StartPhases w) {q : Phase} (hq : ¬(q = .preparing ∨ q = .connecting))
    (hn : (.preparing :: w)[n]? = some q) : n = 3 ∧ w.length = 3 := by
  have hlt := (List.getElem?_eq_some_iff.mp hn).1
  have hlen := h.length_le
  obtain ⟨p, hp, hw⟩ := h
  have hn' := getElem?_of_isPrefix (List.cons_prefix_cons.mpr ⟨rfl, hw⟩) hn
  rw [List.length_cons] at hlt
  match n with
  | 0 | 1 => exact absurd (Or.inl (Option.some.inj hn').symm) hq
  | 2 => exact absurd (Or.inr (Option.some.inj hn').symm) hq
  | 3 => exact ⟨rfl, by omega⟩
  | n+4 => cases hn'

end StartPhases

/-- The phases that call `i` of the engine, a start, and its session have told. -/
def App.told (x : App) (s : Start) (i k : ℕ) : List Phase :=
  ((x.engine.solo i k).told s.engine).map phaseOf

theorem startPhases_told {x : App} {s : Start} {v : Engine.SessionState} {b i k : ℕ}
    (hc : x.engine.Course s.engine v b i k) : StartPhases (x.told s i k) := by
  obtain ⟨u, hu, hend⟩ := hc.script.told_shape
  refine ⟨phaseOf u, ?_, hu.map phaseOf⟩
  rcases hend with ⟨_, _, rfl⟩ | ⟨_, _, _, rfl⟩
  · exact Or.inl rfl
  · exact Or.inr rfl

/-- What the collector brings next, when `n` of the events `w` have been handled. -/
def Handler.Follows (w : List Phase) (lo n : ℕ) : Handler → Prop
  | .waiting => True
  | .applying ev current | .decided ev current _ =>
    w[n]? = some ev.toState ∧ (lo ≤ n → ev.toState = .preparing → current.phase = .preparing)
  | .writing next => lo ≤ n+1 → w[n]? = some next.phase

/-- The app after a start that found the engine in `v`, with `b` events told before and `n` since
then handled. From event `lo` on, the state shown is that of the last event. -/
structure Follows (x : App) (s : Start) (v : Engine.SessionState) (b i k lo n : ℕ) : Prop where
  -- `lo` is 0 before the coroutine's last write and 2 after it
  course : x.engine.Course s.engine v b i k
  handled : x.handled = b+n
  state : lo ≤ n → (.preparing :: x.told s i k)[n]? = some x.state.phase
  handler : x.handler.Follows (x.told s i k) lo n

section Steps

variable {x x' : App} {s : Start} {v : Engine.SessionState} {b i k lo n : ℕ}

theorem Handler.Follows.mono {h : Handler} {w w' : List Phase} (hf : h.Follows w lo n)
    (hw : w <+: w') : h.Follows w' lo n := by
  cases h with
  | waiting => trivial
  | applying ev current | decided ev current m => exact ⟨getElem?_of_isPrefix hw hf.1, hf.2⟩
  | writing next => exact fun hlo => getElem?_of_isPrefix hw (hf hlo)

theorem told_step (hc : x.engine.Course s.engine v b i k) {a : EngineAct} {e : World}
    (h : EngineStep x.engine a e) (ha : ∀ i r, a ≠ .request i r) :
    ∃ k', e.Course s.engine v b i k' ∧
      x.told s i k <+: App.told { x with engine := e } s i k' := by
  obtain ⟨k', hc', hw⟩ := hc.step h ha
  exact ⟨k', hc', hw.map phaseOf⟩

theorem Follows.engine (hf : Follows x s v b i k lo n) {a : EngineAct} {e : World}
    (h : EngineStep x.engine a e) (ha : ∀ i r, a ≠ .request i r) :
    ∃ k', Follows { x with engine := e } s v b i k' lo n := by
  obtain ⟨k', hc, hw⟩ := told_step hf.course h ha
  refine ⟨k', hc, hf.handled, ?_, hf.handler.mono hw⟩
  intro hlo
  exact getElem?_of_isPrefix (List.cons_prefix_cons.mpr ⟨rfl, hw⟩) (hf.state hlo)

/-- The event the collector takes next. -/
theorem told_next (hc : x.engine.Course s.engine v b i k) (hn : x.handled = b+n)
    {u : Engine.SessionState} (hu : x.emitted[x.handled]? = some u) :
    (x.told s i k)[n]? = some (phaseOf u) := by
  rw [hn] at hu
  rw [App.told, List.getElem?_map, hc.told.next hu]
  rfl

theorem Follows.handler_step (hf : Follows x s v b i k lo n) (hlo : lo ≠ 1)
    (h : AppStep x .handler x') : ∃ n', Follows x' s v b i k lo n' := by
  have hshape := startPhases_told hf.course
  have hh := hf.handler
  cases h with
  | @take u _ hu =>
    have hnext := told_next hf.course hf.handled hu
    refine ⟨n, hf.course, hf.handled, hf.state, ?_, ?_⟩
    · rw [toState_sessionStateToJson]
      exact hnext
    · -- Preparing is the first event, and what is shown before it is Preparing
      intro hle hp
      rw [toState_sessionStateToJson] at hp
      rw [hp] at hnext
      obtain rfl := hshape.preparing hnext
      exact (Option.some.inj (hf.state hle)).symm
  | decide h =>
    rw [h] at hh
    exact ⟨n, hf.course, hf.handled, hf.state, hh⟩
  | @apply ev current m h =>
    rw [h] at hh
    refine ⟨n, hf.course, hf.handled, hf.state, ?_⟩
    intro hle
    rw [phase_applyTransition]
    have hnext := hh.1
    -- Preparing has no branch of its own: the state read before is written back
    by_cases hp : ev.toState = .preparing
    · rw [hp] at hnext
      obtain rfl := hshape.preparing hnext
      rw [if_pos hp, hh.2 (by omega) hp]
      exact hnext
    · rw [if_neg hp]
      exact hnext
  | @write next h =>
    rw [h] at hh
    refine ⟨n+1, hf.course, ?_, hh, trivial⟩
    rw [hf.handled]
    rfl

/-- All events are handled. -/
theorem Follows.shown (hf : Follows x s v b i k lo n) (hlo : lo ≤ (x.told s i k).length)
    (hle : b+(x.told s i k).length ≤ x.handled) :
    (.preparing :: x.told s i k)[(x.told s i k).length]? = some x.state.phase := by
  rw [hf.handled] at hle
  have hle' : (x.told s i k).length ≤ n := by omega
  have hstate := hf.state (hlo.trans hle')
  have hlt := (List.getElem?_eq_some_iff.mp hstate).1
  rw [List.length_cons] at hlt
  obtain rfl : n = (x.told s i k).length := by omega
  exact hstate

/-- Nothing is left for the collector. -/
theorem not_handler_step (hc : x.engine.Course s.engine v b i k) (hn : x.handled = b+n)
    (hw : x.handler = .waiting) (hle : (x.told s i k).length ≤ n) : ¬AppStep x .handler x' := by
  intro h
  cases h with
  | take _ hu =>
    have hlt := (List.getElem?_eq_some_iff.mp (told_next hc hn hu)).1
    exact absurd hle (Nat.not_le_of_lt hlt)
  | decide h | apply h | write h => cases h.symm.trans hw

/-- The coroutine's last write, when it comes in time. -/
theorem Follows.report (hf : Follows x s v b i k 0 n)
    (hearly : x.state.phase = .preparing ∨ x.state.phase = .connecting)
    (he : x'.engine = x.engine) (hh : x'.handler = x.handler) (hn : x'.handled = x.handled)
    (hs : x'.state.phase = .connecting) : Follows x' s v b i k 2 n := by
  have htold : x'.told s i k = x.told s i k := by
    rw [App.told, he]
    rfl
  refine ⟨by rw [he]; exact hf.course, by rw [hn]; exact hf.handled, ?_, ?_⟩
  · -- from the second event on Connecting is what was shown already
    intro hle
    have hstate := hf.state (Nat.zero_le n)
    rcases (startPhases_told hf.course).early hearly hstate with hlt | ⟨-, hq⟩
    · omega
    · rw [htold, hstate, hq, hs]
  · rw [hh, htold]
    have hhandler := hf.handler
    cases hx : x.handler with
    | waiting => trivial
    | applying ev current | decided ev current m =>
      rw [hx] at hhandler
      exact ⟨hhandler.1, fun hle => hhandler.2 (Nat.zero_le n)⟩
    | writing next =>
      rw [hx] at hhandler
      exact fun hle => hhandler (Nat.zero_le _)

end Steps

/-- The last write of coroutine `n` replaces Preparing or Connecting. -/
def InTime (n : ℕ) (tr : List (App × AppAct)) : Prop :=
  ∀ q ∈ tr, q.2 = .job n → ∀ s code, q.1.jobs n = .report s code →
    q.1.state.phase = .preparing ∨ q.1.state.phase = .connecting

section InTime

variable {n : ℕ} {tr : List (App × AppAct)} {x : App} {a : AppAct}

theorem inTime_snoc : InTime n (tr ++ [(x, a)]) ↔ InTime n tr ∧
    (a = .job n → ∀ s code, x.jobs n = .report s code →
      x.state.phase = .preparing ∨ x.state.phase = .connecting) := by
  rw [InTime, List.forall_mem_append, List.forall_mem_singleton]
  rfl

/-- Steps other than the last write are no concern. -/
theorem inTime_snoc_of_ne (h : a = .job n → ∀ s code, x.jobs n ≠ .report s code) :
    InTime n (tr ++ [(x, a)]) ↔ InTime n tr := by
  rw [inTime_snoc]
  exact and_iff_left fun ha s code hpc => absurd hpc (h ha s code)

end InTime

/-- What the state shown comes to once the coroutine is done. -/
inductive Outcome (tr : List (App × AppAct)) (x : App) (n : ℕ) (s : Start)
    (v : Engine.SessionState) (b : ℕ) : Prop
  | inTime {i k m} (h : Follows x s v b i k 2 m)
      (hr : x.engine.calls i = .ready (.returned (.ok ()))) (ht : InTime n tr) :
      Outcome tr x n s v b
  | refused {i k m err} (h : x.engine.Course s.engine v b i k) (hm : x.handled = b+m)
      (hw : x.handler = .waiting) (hr : x.engine.calls i = .ready (.returned (.error err)))
      (hs : x.state.phase = .failed) : Outcome tr x n s v b
  | late {i k} (h : x.engine.Course s.engine v b i k) (hm : x.handled = b+3)
      (hw : x.handler = .waiting) (hr : x.engine.calls i = .ready (.returned (.ok ())))
      (hs : x.state.phase = .connecting) (hlen : 3 ≤ (x.told s i k).length)
      (ht : ¬InTime n tr) : Outcome tr x n s v b

/-- A start that has not called the engine yet. -/
structure Resting (x : App) (v : Engine.SessionState) (b : ℕ) : Prop where
  tracked : ∃ i k, Tracked x.engine i k
  drained : x.Drained
  calls : x.engine.CallsOver
  tasks : x.engine.TasksOver
  value : x.engine.session.value = v
  emitted : x.emitted.length = b
  handled : x.handled = b

/-- What holds while the coroutine `n` of a start is at `pc`. -/
def Progress (tr : List (App × AppAct)) (x : App) (n : ℕ) (s : Start) (v : Engine.SessionState)
    (b : ℕ) : Pc → Prop
  | .setMode s' | .setPreparing s' => s' = s ∧ Resting x v b ∧ InTime n tr
  | .callStart s' => s' = s ∧ Resting x v b ∧ InTime n tr ∧ x.state.phase = .preparing
  | .inStart s' i => s' = s ∧ InTime n tr ∧ ∃ k m, Follows x s v b i k 0 m
  | .report s' code => s' = s ∧ InTime n tr ∧ ∃ i k m result, Follows x s v b i k 0 m ∧
      x.engine.calls i = .ready (.returned result) ∧ code = ffiCode result
  | .done => Outcome tr x n s v b
  | _ => False

section Progress

variable {tr : List (App × AppAct)} {x x' : App} {n b : ℕ} {s : Start}
  {v : Engine.SessionState} {pc : Pc}

theorem Resting.of_eq (h : Resting x v b) (he : x'.engine = x.engine)
    (hh : x'.handler = x.handler) (hn : x'.handled = x.handled) : Resting x' v b := by
  refine ⟨?_, h.drained.of_eq he hh hn, ?_, ?_, ?_, ?_, hn.trans h.handled⟩
  · rw [he]
    exact h.tracked
  · rw [he]
    exact h.calls
  · rw [he]
    exact h.tasks
  · rw [he]
    exact h.value
  · rw [App.emitted, he]
    exact h.emitted

theorem Resting.engine (h : Resting x v b) {a : EngineAct} {e : World}
    (he : EngineStep x.engine a e) (ha : ∀ i r, a ≠ .request i r) :
    Resting { x with engine := e } v b := by
  obtain ⟨i, k, ht⟩ := h.tracked
  obtain ⟨hc, hd, hw⟩ := ht.at_rest he ha h.calls h.tasks
  obtain ⟨k', ht', -⟩ := ht.own_step he ha
  refine ⟨⟨i, k', ht'⟩, h.drained.engine he hw, hc, hd, ?_, ?_, h.handled⟩
  · rcases he.value_cases with hv | ⟨j, hj⟩ | ⟨i', s, -, hi'⟩
    · exact hv.trans h.value
    · exact absurd hj (hw j)
    · obtain ⟨pc, hpc, hover⟩ := h.calls i'
      cases hi'.symm.trans hpc
      cases hover
  · rcases he.told_cases with ⟨j, _, hj, -⟩ | ⟨j, ev, u, -, hst, -⟩ | ⟨-, hdel, -⟩
    · exact absurd hj (hw j)
    · exact absurd ⟨j, ev, hst⟩ (h.drained.storing u)
    · rw [App.emitted, hdel]
      exact h.emitted

theorem Outcome.engine (h : Outcome tr x n s v b) {a : EngineAct} {e : World}
    (he : EngineStep x.engine a e) (ha : ∀ i r, a ≠ .request i r) :
    Outcome tr { x with engine := e } n s v b := by
  have hret {i : ℕ} {result : Except Engine.EngineError Unit}
      (hr : x.engine.calls i = .ready (.returned result)) :
      e.calls i = .ready (.returned result) := (he.calls_eq_of_ended ha hr rfl).trans hr
  cases h with
  | inTime h hr ht =>
    obtain ⟨k', h'⟩ := h.engine he ha
    exact .inTime h' (hret hr) ht
  | refused h hm hw hr hs =>
    obtain ⟨k', h', -⟩ := told_step h he ha
    exact .refused h' hm hw (hret hr) hs
  | late h hm hw hr hs hlen ht =>
    obtain ⟨k', h', htold⟩ := told_step h he ha
    exact .late h' hm hw (hret hr) hs (hlen.trans htold.length_le) ht

theorem Outcome.handler (h : Outcome tr x n s v b) (hstep : AppStep x .handler x') :
    Outcome tr x' n s v b := by
  cases h with
  | inTime h hr ht =>
    obtain ⟨m', h'⟩ := h.handler_step (by decide) hstep
    refine .inTime h' ?_ ht
    rw [hstep.handler_engine.1]
    exact hr
  | refused h hm hw hr hs =>
    refine absurd hstep (not_handler_step h hm hw ?_)
    rw [App.told, (h.script.returned_error (World.solo_call hr)).2.1]
    exact Nat.zero_le _
  | late h hm hw hr hs hlen ht =>
    exact absurd hstep (not_handler_step h hm hw (startPhases_told h).length_le)

theorem Outcome.mono (h : Outcome tr x n s v b) {tr' : List (App × AppAct)}
    (htr : InTime n tr' ↔ InTime n tr) : Outcome tr' x n s v b := by
  cases h with
  | inTime h hr ht => exact .inTime h hr (htr.mpr ht)
  | refused h hm hw hr hs => exact .refused h hm hw hr hs
  | late h hm hw hr hs hlen ht => exact .late h hm hw hr hs hlen fun ht' => ht (htr.mp ht')

/-- The coroutine's last write. -/
theorem Outcome.report {i k m : ℕ} {result : Except Engine.EngineError Unit} {code : ℤ}
    (hstart : s.started.phase = .connecting) (hjob : x.jobs n = .report s code)
    (ht : InTime n tr) (hf : Follows x s v b i k 0 m)
    (hr : x.engine.calls i = .ready (.returned result)) (hcode : code = ffiCode result)
    (y : App) (hy : y = { x.setJob n .done with
      state := if code ≠ 0 then .failed s.mode (.engineError code) false else s.started }) :
    Outcome (tr ++ [(x, .job n)]) y n s v b := by
  subst hy
  have hstate := hf.state (Nat.zero_le m)
  -- when all that is told has been handled, the collector waits
  have hwait (hlen : (x.told s i k).length ≤ m) : x.handler = .waiting := by
    have hnone := List.getElem?_eq_none hlen
    have hhandler := hf.handler
    cases hx : x.handler with
    | waiting => rfl
    | applying ev current | decided ev current m =>
      rw [hx] at hhandler
      cases hnone.symm.trans hhandler.1
    | writing next =>
      rw [hx] at hhandler
      cases hnone.symm.trans (hhandler (Nat.zero_le _))
  cases result with
  | error err =>
    have hne : code ≠ 0 := by
      rw [hcode]
      cases err <;> decide
    have htold : x.told s i k = [] := by
      rw [App.told, (hf.course.script.returned_error (World.solo_call hr)).2.1]
      rfl
    refine .refused hf.course hf.handled (hwait (by rw [htold]; exact Nat.zero_le m)) hr ?_
    dsimp only
    rw [if_pos hne]
    rfl
  | ok u =>
    have hzero : ¬code ≠ 0 := by
      rw [hcode]
      exact fun h => h rfl
    have hnew : SessionState.phase
        (if code ≠ 0 then .failed s.mode (.engineError code) false else s.started) =
        .connecting := by
      rw [if_neg hzero, hstart]
    by_cases hearly : x.state.phase = .preparing ∨ x.state.phase = .connecting
    · exact .inTime (hf.report hearly rfl rfl rfl hnew) hr
        (inTime_snoc.mpr ⟨ht, fun _ _ _ _ => hearly⟩)
    · -- the session's outcome is on show, and no event will come after it
      obtain ⟨rfl, hlen⟩ := (startPhases_told hf.course).late hearly hstate
      exact .late hf.course hf.handled (hwait hlen.le) hr hnew hlen.ge
        fun ht' => hearly ((inTime_snoc.mp ht').2 rfl s code hjob)

theorem Progress.access (hstart : s.started.phase = .connecting) (hjob : x.jobs n = pc)
    (hp : Progress tr x n s v b pc) {pc' : Pc} {state : SessionState} {mode : SessionMode}
    (h : pc.access x.state x.mode = some (pc', state, mode)) (y : App)
    (hy : y = { x.setJob n pc' with state := state, mode := mode }) :
    Progress (tr ++ [(x, .job n)]) y n s v b pc' := by
  have hkeep (hno : ∀ s code, pc ≠ .report s code) :
      InTime n (tr ++ [(x, .job n)]) ↔ InTime n tr := by
    apply inTime_snoc_of_ne
    rw [hjob]
    exact fun _ => hno
  subst hy
  cases pc with
  | setMode s' =>
    cases h
    obtain ⟨rfl, hr, ht⟩ := hp
    exact ⟨rfl, hr.of_eq rfl rfl rfl, (hkeep nofun).mpr ht⟩
  | setPreparing s' =>
    cases h
    obtain ⟨rfl, hr, ht⟩ := hp
    exact ⟨rfl, hr.of_eq rfl rfl rfl, (hkeep nofun).mpr ht, rfl⟩
  | report s' code =>
    cases h
    obtain ⟨rfl, ht, i, k, m, result, hf, hr, hcode⟩ := hp
    exact Outcome.report hstart hjob ht hf hr hcode _ rfl
  | readState | readMode current | setStopping m | setIdle o | setModeIdle o => exact hp.elim
  | _ => cases h

theorem Progress.call (hjob : x.jobs n = pc) (hp : Progress tr x n s v b pc) {pc' : Pc} {i' : ℕ}
    {r : Engine.Request} {e : World} (h : pc.call i' = some (r, pc'))
    (he : EngineStep x.engine (.request i' r) e) (y : App)
    (hy : y = { x.setJob n pc' with engine := e }) :
    Progress (tr ++ [(x, .job n)]) y n s v b pc' := by
  subst hy
  cases pc with
  | callStart s' =>
    cases h
    obtain ⟨rfl, hr, ht, hs⟩ := hp
    have ht' : InTime n (tr ++ [(x, .job n)]) := by
      apply (inTime_snoc_of_ne ?_).mpr ht
      rw [hjob]
      exact nofun
    obtain ⟨i, k, htr⟩ := hr.tracked
    have hc := World.Course.request htr hr.calls hr.tasks hr.drained.storing he
    have hb : x.engine.session.delivered.length = b := by
      rw [← hr.emitted, App.emitted, List.length_map]
    rw [hr.value, hb] at hc
    refine ⟨rfl, ht', k, 0, hc, hr.handled, ?_, ?_⟩
    · intro _
      exact congrArg some hs.symm
    · dsimp only [App.setJob]
      rw [hr.drained.handler]
      trivial
  | callStop => exact hp.elim
  | _ => cases h

theorem Progress.resume (hjob : x.jobs n = pc) (hp : Progress tr x n s v b pc) {pc' : Pc} {i' : ℕ}
    {result : Except Engine.EngineError Unit} (h : pc.resume result = some (i', pc'))
    (hr : x.engine.calls i' = .ready (.returned result)) :
    Progress (tr ++ [(x, .job n)]) (x.setJob n pc') n s v b pc' := by
  cases pc with
  | inStart s' i =>
    cases h
    obtain ⟨rfl, ht, k, m, hf⟩ := hp
    refine ⟨rfl, ?_, i', k, m, result, ⟨hf.course, hf.handled, hf.state, hf.handler⟩, hr, rfl⟩
    apply (inTime_snoc_of_ne ?_).mpr ht
    rw [hjob]
    exact nofun
  | inStop i => exact hp.elim
  | _ => cases h

theorem Progress.handler (hp : Progress tr x n s v b pc) (hstep : AppStep x .handler x') :
    Progress (tr ++ [(x, .handler)]) x' n s v b pc := by
  have hkeep : InTime n (tr ++ [(x, .handler)]) ↔ InTime n tr := inTime_snoc_of_ne nofun
  cases pc with
  | setMode s' | setPreparing s' => exact absurd hstep hp.2.1.drained.not_handler_step
  | callStart s' => exact absurd hstep hp.2.1.drained.not_handler_step
  | inStart s' i =>
    obtain ⟨rfl, ht, k, m, hf⟩ := hp
    obtain ⟨m', hf'⟩ := hf.handler_step (by decide) hstep
    exact ⟨rfl, hkeep.mpr ht, k, m', hf'⟩
  | report s' code =>
    obtain ⟨rfl, ht, i, k, m, result, hf, hr, hcode⟩ := hp
    obtain ⟨m', hf'⟩ := hf.handler_step (by decide) hstep
    refine ⟨rfl, hkeep.mpr ht, i, k, m', result, hf', ?_, hcode⟩
    rw [hstep.handler_engine.1]
    exact hr
  | done => exact (Outcome.handler hp hstep).mono hkeep
  | _ => exact hp.elim

theorem Progress.engine (hp : Progress tr x n s v b pc) {a : EngineAct} {e : World}
    (he : EngineStep x.engine a e) (ha : ∀ i r, a ≠ .request i r) :
    Progress (tr ++ [(x, .engine a)]) { x with engine := e } n s v b pc := by
  have hkeep : InTime n (tr ++ [(x, .engine a)]) ↔ InTime n tr := inTime_snoc_of_ne nofun
  cases pc with
  | setMode s' | setPreparing s' => exact ⟨hp.1, hp.2.1.engine he ha, hkeep.mpr hp.2.2⟩
  | callStart s' => exact ⟨hp.1, hp.2.1.engine he ha, hkeep.mpr hp.2.2.1, hp.2.2.2⟩
  | inStart s' i =>
    obtain ⟨rfl, ht, k, m, hf⟩ := hp
    obtain ⟨k', hf'⟩ := hf.engine he ha
    exact ⟨rfl, hkeep.mpr ht, k', m, hf'⟩
  | report s' code =>
    obtain ⟨rfl, ht, i, k, m, result, hf, hr, hcode⟩ := hp
    obtain ⟨k', hf'⟩ := hf.engine he ha
    have hr' := (he.calls_eq_of_ended ha hr rfl).trans hr
    exact ⟨rfl, hkeep.mpr ht, i, k', m, result, hf', hr', hcode⟩
  | done => exact (Outcome.engine hp he ha).mono hkeep
  | _ => exact hp.elim

/-- A step of the app while a start is the one coroutine in progress. -/
theorem AppStep.progress {a : AppAct} (h : AppStep x a x') (ha : ∀ n l, a ≠ .launch n l)
    (hstart : s.started.phase = .connecting) (hothers : ∀ n', n' ≠ n → (x.jobs n').ended = true)
    (hp : Progress tr x n s v b (x.jobs n)) :
    (∀ n', n' ≠ n → (x'.jobs n').ended = true) ∧
      Progress (tr ++ [(x, a)]) x' n s v b (x'.jobs n) := by
  have hmove {pc : Pc} (hjobs : x'.jobs = (x.setJob n pc).jobs)
      (hp' : Progress (tr ++ [(x, a)]) x' n s v b pc) :
      (∀ n', n' ≠ n → (x'.jobs n').ended = true) ∧
        Progress (tr ++ [(x, a)]) x' n s v b (x'.jobs n) := by
    rw [hjobs, App.jobs_setJob_self]
    exact ⟨App.others_setJob hothers pc, hp'⟩
  cases a with
  | launch n' l => exact absurd rfl (ha n' l)
  | job n' =>
    cases h with
    | access h =>
      obtain rfl := App.job_eq hothers (Pc.ended_of_access h)
      exact hmove rfl (hp.access hstart rfl h _ rfl)
    | call h he =>
      obtain rfl := App.job_eq hothers (Pc.ended_of_call h)
      exact hmove rfl (hp.call rfl h he _ rfl)
    | resume h hr =>
      obtain rfl := App.job_eq hothers (Pc.ended_of_resume h)
      exact hmove rfl (hp.resume rfl h hr)
  | handler =>
    have hj := h.handler_engine.2
    rw [hj]
    exact ⟨hothers, hp.handler h⟩
  | engine a =>
    cases h with
    | engine ha he => exact ⟨hothers, hp.engine he ha⟩

/-- A start is launched when the app is settled. -/
theorem Progress.launch {tr₀ : List (App × AppAct)} {x₀ x₁ : App} (h₀ : Run AppStep App.new tr₀ x₀)
    (hcalm : ∀ q ∈ tr₀, Calm q.1 q.2) (hl : AppStep x₀ (.launch n (.start s)) x₁)
    (hc : Calm x₀ (.launch n (.start s))) :
    (∀ n', n' ≠ n → (x₁.jobs n').ended = true) ∧
      Progress [] x₁ n s x₀.engine.session.value x₀.handled (x₁.jobs n) := by
  obtain ⟨hsettled, htasks⟩ := hc
  obtain ⟨i, k, n₀, hi⟩ := inv_of_run h₀ hcalm
  have hover := (hi.stage.of_ended (hsettled.jobs n₀)).1
  cases hl with
  | launch =>
    refine ⟨App.others_setJob (fun n' _ => hsettled.jobs n') _, ?_⟩
    rw [App.jobs_setJob_self]
    exact ⟨rfl, ⟨⟨i, k, hi.tracked⟩, hsettled.drained.of_eq rfl rfl rfl, hover, htasks, rfl,
      hsettled.handled.symm, rfl⟩, fun q hq => absurd hq List.not_mem_nil⟩

/-- What is shown in the end. -/
theorem Outcome.shown_iff (h : Outcome tr x n s v b) (hd : x.Drained) :
    (¬s.engine.Valid ∧ x.state.phase = .failed ∧ x.engine.session.value = v) ∨
    (s.engine.Valid ∧ (x.state.phase = phaseOf x.engine.session.value ↔ InTime n tr)) := by
  have hlength {i k : ℕ} (hc : x.engine.Course s.engine v b i k) :
      b+(x.told s i k).length ≤ x.handled := by
    have hle := hd.handled
    rw [App.emitted, List.length_map, ← hc.told.length_eq hd.storing] at hle
    rw [App.told, List.length_map]
    exact hle
  cases h with
  | refused hc hm hw hr hs =>
    obtain ⟨hvalid, -, hv⟩ := hc.script.returned_error (World.solo_call hr)
    exact Or.inl ⟨hvalid, hs, hv⟩
  | @inTime i k m hf hr ht =>
    obtain ⟨hvalid, htold⟩ := hf.course.script.returned_ok (World.solo_call hr)
    refine Or.inr ⟨hvalid, iff_of_true ?_ ht⟩
    rcases htold with ⟨htold, hv⟩ | ⟨htold, -⟩
    · have hw : x.told s i k = [.preparing, .connecting] := by
        rw [App.told, htold]
        rfl
      have hlast := hf.shown (by rw [hw]; exact le_rfl) (hlength hf.course)
      rw [hw] at hlast
      rw [show x.engine.session.value = _ from hv]
      exact (Option.some.inj hlast).symm
    · have hw : x.told s i k = [.preparing, .connecting, phaseOf x.engine.session.value] := by
        rw [App.told, htold]
        rfl
      have hlast := hf.shown (by rw [hw]; exact Nat.le_succ 2) (hlength hf.course)
      rw [hw] at hlast
      exact (Option.some.inj hlast).symm
  | late hc hm hw hr hs hlen ht =>
    obtain ⟨hvalid, htold⟩ := hc.script.returned_ok (World.solo_call hr)
    refine Or.inr ⟨hvalid, iff_of_false ?_ ht⟩
    rw [hs]
    rcases htold with ⟨htold, -⟩ | ⟨-, ⟨_, _, hv⟩ | ⟨_, _, _, hv⟩⟩
    · rw [App.told, List.length_map, htold] at hlen
      exact absurd hlen (Nat.not_succ_le_self 2)
    · rw [show x.engine.session.value = _ from hv]
      exact fun h => by cases h
    · rw [show x.engine.session.value = _ from hv]
      exact fun h => by cases h

end Progress

end GravitalShare.Android
