import GravitalShare.JniBridge

/-! Where the states that the listener is told of end up. There is one engine, whoever gets to
build it, and once a registration has returned its events go to the newest callback. -/
namespace GravitalShare.Jni

open Engine (SessionState SessionEvent)

namespace Pc

/-- The engine that a thread has got hold of. -/
def engine : Pc → Option ℕ
  | .wire e | .wiring e | .engaged e | .decide e _ | .write e _ | .tell e _ | .listening e _
  | .slot e _ | .fire e _ | .lockCallback e _ | .onEvent e _ | .fired e | .told e => some e
  | _ => none

/-- The thread is past the place that stores the JVM, or past the place that stores a callback. -/
def afterJvm : Pc → Bool
  | .refer _ | .register _ | .registering _ => true
  | _ => false

def afterCallback : Pc → Bool
  | .get .wire | .make (some .wire) | .publish (some .wire) _ | .reget .wire | .wire _ | .wiring _
  | .fire _ _ | .lockCallback _ _ | .onEvent _ _ => true
  | _ => false

def built : Pc → Option ℕ
  | .publish _ e => some e
  | _ => none

/-- A state on its way from the listener to the callback. -/
def firing : Pc → Option SessionState
  | .fire _ s | .lockCallback _ s | .onEvent _ s => some s
  | _ => none

end Pc

namespace Shared

def Ready (s : Shared) : Prop := s.jvm = true ∧ s.callback.isSome = true

/-- Nothing that was set up is ever taken back. -/
structure Le (s s' : Shared) : Prop where
  inst : ∀ e, s.inst = some e → s'.inst = some e
  made : s.made ≤ s'.made
  jvm : s.jvm = true → s'.jvm = true
  ready : s.Ready → s'.Ready
  wired : ∀ e, e < s.made → s.wired e = true → s'.wired e = true

structure Ok (s : Shared) : Prop where
  inst : ∀ e, s.inst = some e → e < s.made
  wired : ∀ e, s.wired e = true → s.Ready

end Shared

structure Pc.Ok (s : Shared) (p : Pc) : Prop where
  engine : ∀ e, p.engine = some e → s.inst = some e
  jvm : p.afterJvm = true → s.jvm = true
  ready : p.afterCallback = true → s.Ready
  built : ∀ e, p.built = some e → e < s.made

theorem Pc.Ok.mono {s s' : Shared} {p : Pc} (hp : p.Ok s) (h : s.Le s') : p.Ok s' where
  engine e he := h.inst e (hp.engine e he)
  jvm hj := h.jvm (hp.jvm hj)
  ready hr := h.ready (hp.ready hr)
  built e he := (hp.built e he).trans_le h.made

section

variable {s s' : Shared} {p p' : Pc} {a : Act}

theorem Shared.Le.refl (s : Shared) : s.Le s :=
  ⟨fun _ h => h, le_rfl, fun h => h, fun h => h, fun _ _ h => h⟩

theorem Move.le (h : Move s p a s' p') : s.Le s' := by
  cases h with
  | storeJvm => exact ⟨fun _ h => h, le_rfl, fun _ => rfl, fun h => ⟨rfl, h.2⟩, fun _ _ h => h⟩
  | registered => exact ⟨fun _ h => h, le_rfl, fun h => h, fun h => ⟨h.1, rfl⟩, fun _ _ h => h⟩
  | make =>
    refine ⟨fun _ h => h, Nat.le_succ _, fun h => h, fun h => h, ?_⟩
    intro e he hw
    exact (Function.update_of_ne he.ne _ _).trans hw
  | publish | inited =>
    refine ⟨?_, le_rfl, fun h => h, fun h => h, fun _ _ h => h⟩
    intro e he
    simp only [he, Option.getD_some]
  | @wired e₀ =>
    refine ⟨fun _ h => h, le_rfl, fun h => h, fun h => h, ?_⟩
    intro e _ hw
    by_cases hne : e = e₀
    · rw [hne]
      exact Function.update_self _ _ _
    · exact (Function.update_of_ne hne _ _).trans hw
  | forceIdle | write => exact ⟨fun _ h => h, le_rfl, fun h => h, fun h => h, fun _ _ h => h⟩
  | _ => exact .refl s

theorem Move.ok (h : Move s p a s' p') (hs : s.Ok) (hp : p.Ok s) : s'.Ok := by
  cases h with
  | storeJvm => exact ⟨hs.inst, fun e he => ⟨rfl, (hs.wired e he).2⟩⟩
  | registered => exact ⟨hs.inst, fun e he => ⟨(hs.wired e he).1, rfl⟩⟩
  | make =>
    refine ⟨fun e he => (hs.inst e he).trans (Nat.lt_succ_self _), ?_⟩
    intro e he
    by_cases hne : e = s.made
    · rw [hne] at he
      exact Bool.noConfusion ((Function.update_self _ _ _).symm.trans he)
    · exact hs.wired e ((Function.update_of_ne hne _ _).symm.trans he)
  | publish | inited =>
    refine ⟨?_, hs.wired⟩
    intro e he
    cases hi : s.inst with
    | none =>
      simp only [hi, Option.getD_none, Option.some.injEq] at he
      exact hp.built e (congrArg some he)
    | some e₁ =>
      simp only [hi, Option.getD_some] at he
      exact hs.inst e (hi.trans he)
  | wired =>
    refine ⟨hs.inst, ?_⟩
    intro e _
    exact hp.ready rfl
  | forceIdle | write => exact ⟨hs.inst, hs.wired⟩
  | _ => exact hs

theorem Pc.Ok.idle (s : Shared) : Pc.Ok s .idle :=
  ⟨nofun, Bool.noConfusion, Bool.noConfusion, nofun⟩

theorem Pc.Ok.weaken (hp : p.Ok s) (hengine : ∀ e, p'.engine = some e → p.engine = some e)
    (hjvm : p'.afterJvm = true → p.afterJvm = true)
    (hready : p'.afterCallback = true → p.afterCallback = true)
    (hbuilt : ∀ e, p'.built = some e → p.built = some e) : p'.Ok s where
  engine e he := hp.engine e (hengine e he)
  jvm hj := hp.jvm (hjvm hj)
  ready hr := hp.ready (hready hr)
  built e he := hp.built e (hbuilt e he)

theorem Goal.reach_ok {g : Goal} {e : ℕ} (hi : s.inst = some e) (hg : g = .wire → s.Ready) :
    (g.reach e).Ok s := by
  cases g with
  | wire => exact ⟨fun _ he => hi.trans he, Bool.noConfusion, fun _ => hg rfl, nofun⟩
  | use => exact ⟨fun _ he => hi.trans he, Bool.noConfusion, Bool.noConfusion, nofun⟩

theorem found_ok {g : Goal} (hp : p.Ok s) (hg : g = .wire → s.Ready) :
    (found g p s.inst).Ok s := by
  cases hi : s.inst with
  | none => exact hp
  | some e => exact Goal.reach_ok hi hg

theorem Move.pc_ok (h : Move s p a s' p') (hs : s.Ok) (hp : p.Ok s) : p'.Ok s' := by
  have hmono := hp.mono h.le
  cases h with
  | storeJvm => exact ⟨nofun, fun _ => rfl, Bool.noConfusion, nofun⟩
  | registered => exact ⟨nofun, Bool.noConfusion, fun _ => ⟨hp.jvm rfl, rfl⟩, nofun⟩
  | @get g =>
    apply found_ok
    · cases g <;> exact hp.weaken (fun _ he => he) id id nofun
    · rintro rfl
      exact hp.ready rfl
  | @make g =>
    refine ⟨nofun, Bool.noConfusion, ?_, ?_⟩
    · intro hr
      match g with
      | some .wire => exact hp.ready rfl
    · rintro e ⟨⟩
      exact Nat.lt_succ_self _
  | @publish g e => cases g <;> exact hmono.weaken nofun Bool.noConfusion id nofun
  | @reget g =>
    apply found_ok (Pc.Ok.idle s)
    rintro rfl
    exact hp.ready rfl
  | engage hi => exact ⟨fun _ he => hi.trans he, Bool.noConfusion, Bool.noConfusion, nofun⟩
  | decide =>
    unfold decided
    split
    · split_ifs <;> exact hp.weaken (fun _ he => he) id id nofun
    · exact hp.weaken (fun _ he => he) id id nofun
  | slot =>
    split_ifs with hw
    · exact ⟨hp.engine, Bool.noConfusion, fun _ => hs.wired _ hw, nofun⟩
    · exact hp.weaken (fun _ he => he) id id nofun
  | fire =>
    split_ifs
    · exact hp.weaken (fun _ he => he) id id nofun
    · exact hp.weaken (fun _ he => he) id Bool.noConfusion nofun
  | onEvent | notAttached => exact hp.weaken (fun _ he => he) id Bool.noConfusion nofun
  | noJvm | noRef | noRuntime | inited | wired | leave => exact .idle _
  | _ => exact hmono.weaken (fun _ he => he) id id nofun

end

namespace Pc

-- what a step of the thread does to callbacks and states

def stores : Pc → Act → List ℕ
  | .registering cb, .tick => [cb]
  | _, _ => []

def wires : Pc → Act → Option ℕ
  | .wiring e, .tick => some e
  | _, _ => none

def passes : Pc → Act → List SessionState
  | .slot _ s, .tick => [s]
  | _, _ => []

def calls (cb : Option ℕ) : Pc → Act → List (ℕ × SessionState)
  | .onEvent _ s, .tick => cb.toList.map fun cb => (cb, s)
  | _, _ => []

def loses : Pc → Act → Prop
  | .onEvent _ _, .fail => True
  | _, _ => False

/-- The thread holds the event callback of its engine for a state that it tells. -/
def telling : Pc → Bool
  | .slot _ _ | .fire _ _ | .lockCallback _ _ | .onEvent _ _ => true
  | _ => false

theorem telling_holds {p : Pc} (h : p.telling = true) :
    ∃ e, p.engine = some e ∧ .eventCallback e ∈ p.holds := by
  cases p with
  | slot e _ | fire e _ | lockCallback e _ | onEvent e _ =>
    exact ⟨e, rfl, List.mem_cons_of_mem _ List.mem_cons_self⟩
  | _ => exact Bool.noConfusion h

theorem telling_of_firing {p : Pc} {s : SessionState} (h : p.firing = some s) :
    p.telling = true := by
  cases p with
  | fire | lockCallback | onEvent => rfl
  | _ => cases h

end Pc

theorem Goal.reach_firing (g : Goal) (e : ℕ) : (g.reach e).firing = none := by
  cases g <;> rfl

theorem found_firing (g : Goal) {p : Pc} (hp : p.firing = none) (o : Option ℕ) :
    (found g p o).firing = none := by
  cases o with
  | none => exact hp
  | some e => exact g.reach_firing e

theorem decided_firing (e : ℕ) (current : SessionState) (ev : SessionEvent) :
    (decided e current ev).firing = none := by
  unfold decided
  split
  · split_ifs <;> rfl
  · rfl

section

variable {s s' : Shared} {p p' : Pc} {a : Act}

/-- A thread that is not telling a state has no part in the way from listener to callback. -/
theorem Move.not_telling (h : Move s p a s' p') (hp : p.telling = false) :
    p'.firing = p.firing ∧ p.passes a = [] ∧ p.calls s.callback a = [] := by
  cases h with
  | get | reget => exact ⟨found_firing _ rfl _, rfl, rfl⟩
  | decide => exact ⟨decided_firing _ _ _, rfl, rfl⟩
  | slot | fire | lockCallback | onEvent | notAttached => exact Bool.noConfusion hp
  | _ => exact ⟨rfl, rfl, rfl⟩

theorem Move.callback_eq (h : Move s p a s' p') :
    s'.callback = (p.stores a).getLast?.or s.callback := by
  cases h with
  | registered => rfl
  | _ => exact (Option.none_or).symm

theorem Move.wires (h : Move s p a s' p') {e : ℕ} (he : p.wires a = some e) :
    p.engine = some e ∧ s'.wired e = true := by
  cases h with
  | wired =>
    cases he
    exact ⟨rfl, Function.update_self _ _ _⟩
  | _ => cases he

/-- With everything set up, a state that the listener has in hand gets to the callback. -/
theorem Move.conserves (h : Move s p a s' p') (ht : p.telling = true) (hp : p.Ok s)
    (hwired : ∀ e, p.engine = some e → s.wired e = true) (hlose : ¬p.loses a) :
    p.firing.toList ++ p.passes a = (p.calls s.callback a).map Prod.snd ++ p'.firing.toList := by
  cases h with
  | slot =>
    rw [if_pos (hwired _ rfl)]
    rfl
  | fire =>
    rw [if_pos (hp.ready rfl).1]
    rfl
  | lockCallback => rfl
  | onEvent =>
    obtain ⟨cb, hcb⟩ := Option.isSome_iff_exists.mp (hp.ready rfl).2
    rw [hcb]
    rfl
  | notAttached => exact absurd trivial hlose
  | _ => exact Bool.noConfusion ht

end

section

variable {T : Type}

/-- The callbacks that were registered, the states for which the listener looked for a callback,
and the calls of `onEvent`. -/
def storedAt (w : World T) (x : T × Act) : List ℕ := (w.pcs x.1).stores x.2

def passedAt (w : World T) (x : T × Act) : List SessionState := (w.pcs x.1).passes x.2

def calledAt (w : World T) (x : T × Act) : List (ℕ × SessionState) :=
  (w.pcs x.1).calls w.shared.callback x.2

structure Sound (w : World T) : Prop where
  shared : w.shared.Ok
  pcs : ∀ t, (w.pcs t).Ok w.shared
  exclusive : LockOrder.Exclusive bridge w

theorem Sound.init (T : Type) : Sound (World.init T) where
  shared := ⟨nofun, fun _ => Bool.noConfusion⟩
  pcs _ := .idle _
  exclusive _ _ _ h := absurd h List.not_mem_nil

variable [DecidableEq T] {w w' : World T} {x : T × Act}

theorem Sound.step (hw : Sound w) (h : LockOrder.Step bridge w x w') : Sound w' := by
  have hex := h.exclusive hw.exclusive
  obtain @⟨t, a, s, p, hfree, hmove⟩ := h
  refine ⟨Move.ok hmove hw.shared (hw.pcs t), ?_, hex⟩
  intro u
  by_cases hu : u = t
  · rw [hu]
    show (Function.update w.pcs t p t).Ok s
    rw [Function.update_self]
    exact Move.pc_ok hmove hw.shared (hw.pcs t)
  · show (Function.update w.pcs t p u).Ok s
    rw [Function.update_of_ne hu]
    exact (hw.pcs u).mono (Move.le hmove)

omit [DecidableEq T] in
/-- One thread at a time tells a state, since all of them use the same engine. -/
theorem Sound.telling_unique (hw : Sound w) {t u : T} (ht : (w.pcs t).telling = true)
    (hu : (w.pcs u).telling = true) : t = u := by
  obtain ⟨e, he, hholds⟩ := Pc.telling_holds ht
  obtain ⟨e', he', hholds'⟩ := Pc.telling_holds hu
  have hsame : some e = some e' :=
    ((hw.pcs t).engine e he).symm.trans ((hw.pcs u).engine e' he')
  cases hsame
  exact hw.exclusive _ t u hholds hholds'

/-- The states between the listener and the callback, of which there is one at most. -/
def InHand (w : World T) (l : List SessionState) : Prop :=
  (∀ t s, (w.pcs t).firing = some s → l = [s]) ∧ ((∀ t, (w.pcs t).firing = none) → l = [])

omit [DecidableEq T] in
theorem Sound.exists_inHand (hw : Sound w) : ∃ l, InHand w l := by
  by_cases h : ∃ t s, (w.pcs t).firing = some s
  · obtain ⟨t, s, hs⟩ := h
    refine ⟨[s], ?_, fun hnone => absurd ((hnone t).symm.trans hs) nofun⟩
    intro u s' hs'
    obtain rfl := hw.telling_unique (Pc.telling_of_firing hs) (Pc.telling_of_firing hs')
    rw [hs] at hs'
    cases hs'
    rfl
  · refine ⟨[], ?_, fun _ => rfl⟩
    intro t s hs
    exact absurd ⟨t, s, hs⟩ h

theorem InHand.same {l : List SessionState} (hl : InHand w l) {t : T} {p : Pc} {s : Shared}
    (hp : p.firing = (w.pcs t).firing) : InHand ⟨s, Function.update w.pcs t p⟩ l := by
  have heq : ∀ u, (Function.update w.pcs t p u).firing = (w.pcs u).firing := by
    intro u
    by_cases hu : u = t
    · rw [hu, Function.update_self, hp]
    · rw [Function.update_of_ne hu]
  constructor
  · intro u st hu
    exact hl.1 u st ((heq u).symm.trans hu)
  · intro hnone
    exact hl.2 fun u => (heq u).symm.trans (hnone u)

/-- A state that a thread tells by itself is in hand, or nothing is. -/
theorem Sound.inHand_update (hw : Sound w) {t : T} {p : Pc} {s : Shared}
    (ht : (w.pcs t).telling = true) :
    InHand ⟨s, Function.update w.pcs t p⟩ p.firing.toList := by
  have hothers : ∀ u, u ≠ t → (w.pcs u).firing = none := by
    intro u hu
    cases hf : (w.pcs u).firing with
    | none => rfl
    | some st => exact absurd (hw.telling_unique (Pc.telling_of_firing hf) ht) hu
  constructor
  · intro u st hst
    by_cases hu : u = t
    · have hst : (Function.update w.pcs t p u).firing = some st := hst
      rw [hu, Function.update_self] at hst
      rw [hst]
      rfl
    · have hst : (Function.update w.pcs t p u).firing = some st := hst
      rw [Function.update_of_ne hu, hothers u hu] at hst
      cases hst
  · intro hnone
    have ht : (Function.update w.pcs t p t).firing = none := hnone t
    rw [Function.update_self] at ht
    rw [ht]
    rfl

/-- What is in hand, then what the listener takes up, is what reaches the callback, then what is
in hand. -/
theorem InHand.step {l : List SessionState} (hl : InHand w l) (hw : Sound w)
    (h : LockOrder.Step bridge w x w')
    (hwired : ∀ e, w.shared.inst = some e → w.shared.wired e = true)
    (hlose : ¬(w.pcs x.1).loses x.2) :
    ∃ l', InHand w' l' ∧ l ++ passedAt w x = (calledAt w x).map Prod.snd ++ l' := by
  obtain @⟨t, a, s, p, hfree, hmove⟩ := h
  by_cases ht : (w.pcs t).telling = true
  · refine ⟨_, hw.inHand_update ht, ?_⟩
    have hmine : l = (w.pcs t).firing.toList := by
      cases hf : (w.pcs t).firing with
      | some st => exact hl.1 t st hf
      | none =>
        apply hl.2
        intro u
        cases hu : (w.pcs u).firing with
        | none => rfl
        | some st =>
          obtain rfl := hw.telling_unique (Pc.telling_of_firing hu) ht
          exact hu.symm.trans hf
    rw [hmine]
    exact Move.conserves hmove ht (hw.pcs t) (fun e he => hwired e ((hw.pcs t).engine e he)) hlose
  · obtain ⟨hsame, hpass, hcall⟩ := Move.not_telling hmove (Bool.not_eq_true _ ▸ ht)
    refine ⟨l, hl.same hsame, ?_⟩
    show l ++ (w.pcs t).passes a = ((w.pcs t).calls w.shared.callback a).map Prod.snd ++ l
    rw [hpass, hcall, List.append_nil]
    rfl

/-- The engine `e` is the one that everybody gets, and its events are fired into the JVM. -/
def Wired (w : World T) (e : ℕ) : Prop := w.shared.inst = some e ∧ w.shared.wired e = true

theorem Wired.step {e : ℕ} (he : Wired w e) (hw : Sound w) (h : LockOrder.Step bridge w x w') :
    Wired w' e := by
  obtain @⟨t, a, s, p, hfree, hmove⟩ := h
  have hle := Move.le hmove
  exact ⟨hle.inst e he.1, hle.wired e (hw.shared.inst e he.1) he.2⟩

/-- What a run from the start has established. -/
structure History (tr : List (World T × T × Act)) (w : World T) : Prop where
  sound : Sound w
  callback : w.shared.callback = (gather storedAt tr).getLast?
  wired : ∀ y ∈ tr, ∀ e, (y.1.pcs y.2.1).wires y.2.2 = some e → Wired w e

theorem History.step {tr : List (World T × T × Act)} (hh : History tr w)
    (h : LockOrder.Step bridge w x w') : History (tr ++ [(w, x)]) w' where
  sound := hh.sound.step h
  callback := by
    rw [gather_snoc, List.getLast?_append, ← hh.callback]
    obtain @⟨t, a, s, p, hfree, hmove⟩ := h
    exact Move.callback_eq hmove
  wired := by
    intro y hy e he
    rcases List.mem_append.mp hy with hy | hy
    · exact (hh.wired y hy e he).step hh.sound h
    · rw [List.mem_singleton.mp hy] at he
      obtain @⟨t, a, s, p, hfree, hmove⟩ := h
      obtain ⟨hengine, hwired⟩ := Move.wires hmove he
      exact ⟨(Move.le hmove).inst e ((hh.sound.pcs t).engine e hengine), hwired⟩

theorem History.of_run {tr : List (World T × T × Act)}
    (h : Run (LockOrder.Step bridge) (World.init T) tr w) : History tr w :=
  h.history History ⟨Sound.init T, rfl, nofun⟩ fun _ _ _ _ hh hs => hh.step hs

/-- Once a call of `nativeSetEventCallback` has returned OK, the rest of the run goes on with one
engine, and every state that a thread tells its listener reaches the callback that was registered
last, in the order in which the states are told, except for one that is on its way; unless a thread
cannot be attached to the JVM. -/
theorem events_reach_callback {tr₁ tr₂ : List (World T × T × Act)} {w₁ w₂ : World T}
    (h₁ : Run (LockOrder.Step bridge) (World.init T) tr₁ w₁)
    (h₂ : Run (LockOrder.Step bridge) w₁ tr₂ w₂) {y : World T × T × Act} (hy : y ∈ tr₁) {e : ℕ}
    (he : (y.1.pcs y.2.1).wires y.2.2 = some e)
    (hok : ∀ z ∈ tr₂, ¬(z.1.pcs z.2.1).loses z.2.2) :
    (∀ t e', (w₂.pcs t).engine = some e' → e' = e) ∧
    w₂.shared.callback = (gather storedAt (tr₁ ++ tr₂)).getLast? ∧
    ∃ l₁ l₂, InHand w₁ l₁ ∧ InHand w₂ l₂ ∧
      l₁ ++ gather passedAt tr₂ = (gather calledAt tr₂).map Prod.snd ++ l₂ := by
  have hstart := History.of_run h₁
  have hend := History.of_run (h₁.append h₂)
  refine ⟨?_, hend.callback, ?_⟩
  · intro t e' he'
    have hinst := (hend.sound.pcs t).engine e' he'
    have hwired := hend.wired y (List.mem_append_left _ hy) e he
    exact Option.some.inj (hinst.symm.trans hwired.1)
  · obtain ⟨l₁, hl₁⟩ := hstart.sound.exists_inHand
    have hrun := h₂.history_of (fun w x => ¬(w.pcs x.1).loses x.2)
      (fun tr w => Sound w ∧ Wired w e ∧ ∃ l, InHand w l ∧
        l₁ ++ gather passedAt tr = (gather calledAt tr).map Prod.snd ++ l)
      ⟨hstart.sound, hstart.wired y hy e he, l₁, hl₁, List.append_nil _⟩
      (by
        rintro tr w x w' ⟨hw, hwired, l, hl, hflow⟩ hlose h
        have hall : ∀ e', w.shared.inst = some e' → w.shared.wired e' = true := by
          intro e' he'
          rw [← Option.some.inj (hwired.1.symm.trans he')]
          exact hwired.2
        obtain ⟨l', hl', hnext⟩ := hl.step hw h hall hlose
        refine ⟨hw.step h, hwired.step hw h, l', hl', ?_⟩
        rw [gather_snoc, gather_snoc, List.map_append, ← List.append_assoc, hflow,
          List.append_assoc, hnext, List.append_assoc])
      hok
    obtain ⟨-, -, l₂, hl₂, hflow⟩ := hrun
    exact ⟨l₁, l₂, hl₁, hl₂, hflow⟩

end

/-- A thread that is alone never waits. -/
theorem solo_step {s s' : Shared} {p p' : Pc} {a : Act} (h : Move s p a s' p') :
    LockOrder.Step bridge (⟨s, fun _ => p⟩ : World Unit) ((), a) ⟨s', fun _ => p'⟩ := by
  have hfree : LockOrder.Enabled bridge (⟨s, fun _ => p⟩ : World Unit) () := by
    intro l hl t ht
    exact absurd (Pc.ordered ht hl) (lt_irrefl _)
  have hupdate : Function.update (fun _ : Unit => p) () p' = fun _ => p' :=
    funext fun _ => Function.update_self _ _ _
  rw [← hupdate]
  exact .mk hfree h

theorem first_registration : ∃ tr w, Run (LockOrder.Step bridge) (World.init Unit) tr w ∧
    (∃ y ∈ tr, (y.1.pcs y.2.1).wires y.2.2 = some 0) ∧ w.shared.inst = some 0 ∧
      w.shared.state 0 = .idle ∧ w.shared.wired 0 = true ∧ w.shared.jvm = true ∧
      w.pcs = fun _ => .idle := by
  have hstart : LockOrder.Step bridge (World.init Unit) ((), .start (.setEventCallback 7)) _ :=
    solo_step .setEventCallback
  have hstored := ((((Run.single hstart).snoc (solo_step .storeJvm)).snoc (solo_step .refer)).snoc
    (solo_step .register)).snoc (solo_step .registered)
  have hbuilt := (((hstored.snoc (solo_step .get)).snoc (solo_step .make)).snoc
    (solo_step .publish)).snoc (solo_step .reget)
  have hwired := (hbuilt.snoc (solo_step .wire)).snoc (solo_step .wired)
  exact ⟨_, _, hwired, ⟨_, List.mem_append_right _ (List.mem_singleton_self _), rfl⟩, rfl, rfl, rfl,
    rfl, rfl⟩

/-- A dispatch that changes the state, with a callback in place. -/
theorem dispatch_run {s : Shared} {e : ℕ} {ev : SessionEvent} {next : SessionState}
    (hinst : s.inst = some e) (hdecided : decided e (s.state e) ev = .write e next)
    (hwired : s.wired e = true) (hjvm : s.jvm = true) :
    ∃ tr w, Run (LockOrder.Step bridge) (⟨s, fun _ => .idle⟩ : World Unit) tr w ∧
      (∀ z ∈ tr, ¬(z.1.pcs z.2.1).loses z.2.2) ∧ gather passedAt tr = [next] ∧
      w.pcs = fun _ => .fired e := by
  have hengage : Run (fun w x w' => LockOrder.Step bridge w x w' ∧ ¬(w.pcs x.1).loses x.2)
      (⟨s, fun _ => .idle⟩ : World Unit) _ _ := .single ⟨solo_step (.engage hinst), id⟩
  have hdecide : Move s (.decide e ev) .tick s (.write e next) := hdecided ▸ .decide
  have hslot {st : ℕ → SessionState} : Move { s with state := st } (.slot e next) .tick
      { s with state := st } (.fire e next) := by
    have h := @Move.slot { s with state := st } e next
    rwa [if_pos hwired] at h
  have hfire {st : ℕ → SessionState} : Move { s with state := st } (.fire e next) .tick
      { s with state := st } (.lockCallback e next) := by
    have h := @Move.fire { s with state := st } e next
    rwa [if_pos hjvm] at h
  have hwrite := ((hengage.snoc ⟨solo_step .dispatch, id⟩).snoc
    ⟨solo_step hdecide, id⟩).snoc ⟨solo_step .write, id⟩
  have htold := ((hwrite.snoc ⟨solo_step .tell, id⟩).snoc ⟨solo_step .listening, id⟩).snoc
    ⟨solo_step hslot, id⟩
  have hfired := ((htold.snoc ⟨solo_step hfire, id⟩).snoc ⟨solo_step .lockCallback, id⟩).snoc
    ⟨solo_step .onEvent, id⟩
  obtain ⟨hrun, hok⟩ := hfired.guarded
  exact ⟨_, _, hrun, hok, rfl, rfl⟩

/-- A callback is registered, and a session begins. -/
theorem first_event_called : ∃ tr : List (World Unit × Unit × Act),
    gather passedAt tr = [.preparing .client] ∧
      (gather calledAt tr).map Prod.snd = [.preparing .client] := by
  obtain ⟨tr₁, ⟨s, pcs⟩, h₁, ⟨y, hy, he⟩, hinst, hstate, hwired, hjvm, rfl⟩ := first_registration
  have hdecided : decided 0 (s.state 0) (.userStart .client) = .write 0 (.preparing .client) := by
    rw [show s.state 0 = .idle from hstate]
    rfl
  obtain ⟨tr₂, w₂, h₂, hok, hpassed, hpcs⟩ := dispatch_run hinst hdecided hwired hjvm
  obtain ⟨-, -, l₁, l₂, hl₁, hl₂, hflow⟩ := events_reach_callback h₁ h₂ hy he hok
  have hnone₁ : l₁ = [] := hl₁.2 fun _ => rfl
  have hnone₂ : l₂ = [] := hl₂.2 fun t => congrArg (fun f => (f t).firing) hpcs
  rw [hnone₁, hnone₂, List.append_nil, hpassed] at hflow
  exact ⟨tr₂, hpassed, hflow.symm⟩

end GravitalShare.Jni
