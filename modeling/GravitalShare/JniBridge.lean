import GravitalShare.EngineSession
import GravitalShare.LockOrder

/-! The JNI entry points and the session behind them, as threads: Java threads that look up or
build the engine and register a callback, and any thread that dispatches an event and tells the
listener of it. -/
namespace GravitalShare.Jni

open Engine (SessionState SessionEvent transition)
open LockOrder (Discipline)

/-- The locks that are held over more than one access. The lock of the state is not among them: it
is given back before anything else is done. -/
inductive Lock where
  | listeners (e : ℕ)
  | eventCallback (e : ℕ)
  -- the static `EVENT_CALLBACK`
  | callback
  deriving DecidableEq, Repr

def Lock.rank : Lock → ℕ
  | .listeners _ => 0
  | .eventCallback _ => 1
  | .callback => 2

/-- Engines are numbered in the order in which `Engine::new` built them, and a global reference to
a callback is a number too. `wired e` says that the event callback of the engine `e` is
`fire_jvm_event`; there is nothing else that it could be. -/
structure Shared where
  inst : Option ℕ
  made : ℕ
  state : ℕ → SessionState
  wired : ℕ → Bool
  jvm : Bool
  callback : Option ℕ

def Shared.init : Shared where
  inst := none
  made := 0
  state _ := .idle
  wired _ := false
  jvm := false
  callback := none

/-- What a call wants of the engine that `get_or_init` gives it. -/
inductive Goal where
  | wire
  | use
  deriving DecidableEq, Repr

inductive Pc where
  | idle
  -- `nativeSetEventCallback`
  | storeJvm (cb : ℕ)
  | refer (cb : ℕ)
  | register (cb : ℕ)
  | registering (cb : ℕ)
  -- `get_or_init`; without a goal, `init`
  | get (g : Goal)
  | make (g : Option Goal)
  | publish (g : Option Goal) (e : ℕ)
  | reget (g : Goal)
  -- `set_event_callback`
  | wire (e : ℕ)
  | wiring (e : ℕ)
  -- a thread that has got the engine, and its calls of `dispatch`
  | engaged (e : ℕ)
  | decide (e : ℕ) (ev : SessionEvent)
  | write (e : ℕ) (next : SessionState)
  | tell (e : ℕ) (s : SessionState)
  | listening (e : ℕ) (s : SessionState)
  | slot (e : ℕ) (s : SessionState)
  -- `fire_jvm_event`
  | fire (e : ℕ) (s : SessionState)
  | lockCallback (e : ℕ) (s : SessionState)
  | onEvent (e : ℕ) (s : SessionState)
  -- back in the listener, and back in `dispatch`
  | fired (e : ℕ)
  | told (e : ℕ)

inductive Call where
  | setEventCallback (cb : ℕ)
  | init
  | getOrInit
  | get
  | dispatch (ev : SessionEvent)
  | forceIdle

/-- A call begins, a thread goes on, or what it tries fails: to find the JVM, to make a global
reference, to build the runtime, or to attach the thread and call the method. -/
inductive Act where
  | start (c : Call)
  | tick
  | fail

def Goal.reach : Goal → ℕ → Pc
  | .wire, e => .wire e
  | .use, e => .engaged e

/-- Where `get` leads. -/
def found (g : Goal) (orElse : Pc) : Option ℕ → Pc
  | some e => g.reach e
  | none => orElse

-- what `dispatch` does with the event
def decided (e : ℕ) (current : SessionState) (ev : SessionEvent) : Pc :=
  match transition current ev with
  | .ok next => if next = current then .engaged e else .write e next
  | .error _ => .engaged e

/-- One step of a thread that has what it waits for. -/
inductive Move : Shared → Pc → Act → Shared → Pc → Prop
  | setEventCallback {s cb} : Move s .idle (.start (.setEventCallback cb)) s (.storeJvm cb)
  | storeJvm {s cb} : Move s (.storeJvm cb) .tick { s with jvm := true } (.refer cb)
  | noJvm {s cb} (h : s.jvm = false) : Move s (.storeJvm cb) .fail s .idle
  | refer {s cb} : Move s (.refer cb) .tick s (.register cb)
  | noRef {s cb} : Move s (.refer cb) .fail s .idle
  | register {s cb} : Move s (.register cb) .tick s (.registering cb)
  | registered {s cb} :
      Move s (.registering cb) .tick { s with callback := some cb } (.get .wire)
  | init {s} : Move s .idle (.start .init) s (.make none)
  | getOrInit {s} : Move s .idle (.start .getOrInit) s (.get .use)
  | get {s g} : Move s (.get g) .tick s (found g (.make (some g)) s.inst)
  | make {s g} :
      Move s (.make g) .tick
        { s with
          made := s.made+1
          state := Function.update s.state s.made .idle
          wired := Function.update s.wired s.made false }
        (.publish g s.made)
  | noRuntime {s g} : Move s (.make g) .fail s .idle
  -- the first one to get here wins
  | publish {s g e} :
      Move s (.publish (some g) e) .tick { s with inst := some (s.inst.getD e) } (.reget g)
  | inited {s e} : Move s (.publish none e) .tick { s with inst := some (s.inst.getD e) } .idle
  | reget {s g} : Move s (.reget g) .tick s (found g .idle s.inst)
  | wire {s e} : Move s (.wire e) .tick s (.wiring e)
  | wired {s e} :
      Move s (.wiring e) .tick { s with wired := Function.update s.wired e true } .idle
  -- `stop` and the tasks of a session
  | engage {s e} (h : s.inst = some e) : Move s .idle (.start .get) s (.engaged e)
  | leave {s e} : Move s (.engaged e) .tick s .idle
  | forceIdle {s e} :
      Move s (.engaged e) (.start .forceIdle)
        { s with state := Function.update s.state e .idle } (.engaged e)
  | dispatch {s e ev} : Move s (.engaged e) (.start (.dispatch ev)) s (.decide e ev)
  | decide {s e ev} : Move s (.decide e ev) .tick s (decided e (s.state e) ev)
  | write {s e next} :
      Move s (.write e next) .tick { s with state := Function.update s.state e next }
        (.tell e next)
  | tell {s e st} : Move s (.tell e st) .tick s (.listening e st)
  | listening {s e st} : Move s (.listening e st) .tick s (.slot e st)
  | slot {s e st} :
      Move s (.slot e st) .tick s (if s.wired e = true then .fire e st else .fired e)
  | fire {s e st} :
      Move s (.fire e st) .tick s (if s.jvm = true then .lockCallback e st else .fired e)
  | lockCallback {s e st} : Move s (.lockCallback e st) .tick s (.onEvent e st)
  | onEvent {s e st} : Move s (.onEvent e st) .tick s (.fired e)
  | notAttached {s e st} : Move s (.onEvent e st) .fail s (.fired e)
  | fired {s e} : Move s (.fired e) .tick s (.told e)
  | told {s e} : Move s (.told e) .tick s (.engaged e)

namespace Pc

/-- The locks that a thread holds, and the one that it takes with its next step. -/
def holds : Pc → List Lock
  | .registering _ => [.callback]
  | .wiring e => [.eventCallback e]
  | .listening e _ | .told e => [.listeners e]
  | .slot e _ | .fire e _ | .lockCallback e _ | .fired e => [.listeners e, .eventCallback e]
  | .onEvent e _ => [.listeners e, .eventCallback e, .callback]
  | _ => []

def wants : Pc → Option Lock
  | .register _ | .lockCallback _ _ => some .callback
  | .wire e | .listening e _ => some (.eventCallback e)
  | .tell e _ => some (.listeners e)
  | _ => none

/-- The steps that a thread has left in the call that it is in, at most. -/
def cost : Pc → ℕ
  | .idle => 0
  | .engaged _ => 1
  | .told _ => 2
  | .fired _ => 3
  | .onEvent _ _ => 4
  | .lockCallback _ _ => 5
  | .fire _ _ => 6
  | .slot _ _ => 7
  | .listening _ _ => 8
  | .tell _ _ => 9
  | .write _ _ => 10
  | .decide _ _ => 11
  | .wiring _ => 1
  | .wire _ => 2
  | .reget _ => 3
  | .publish _ _ => 4
  | .make _ => 5
  | .get _ => 6
  | .registering _ => 7
  | .register _ => 8
  | .refer _ => 9
  | .storeJvm _ => 10

end Pc

theorem Pc.ordered {p : Pc} {l m : Lock} (hl : l ∈ p.holds) (hm : p.wants = some m) :
    l.rank < m.rank := by
  cases p with
  | listening e st =>
    cases hm
    rw [List.mem_singleton.mp hl]
    exact Nat.zero_lt_one
  | lockCallback e st =>
    cases hm
    rcases List.mem_pair.mp hl with rfl | rfl
    · exact Nat.zero_lt_two
    · exact Nat.one_lt_two
  | register cb | tell e st | wire e => exact absurd hl List.not_mem_nil
  | _ => cases hm

theorem Goal.reach_holds (g : Goal) (e : ℕ) : (g.reach e).holds = [] := by
  cases g <;> rfl

theorem found_holds (g : Goal) {p : Pc} (hp : p.holds = []) (o : Option ℕ) :
    (found g p o).holds = [] := by
  cases o with
  | none => exact hp
  | some e => exact g.reach_holds e

theorem decided_holds (e : ℕ) (current : SessionState) (ev : SessionEvent) :
    (decided e current ev).holds = [] := by
  unfold decided
  split
  · split_ifs <;> rfl
  · rfl

theorem Move.takes {s s' : Shared} {p p' : Pc} {a : Act} (h : Move s p a s' p') {l : Lock}
    (hl : l ∈ p'.holds) : l ∈ p.holds ∨ p.wants = some l := by
  cases h with
  | get | reget =>
    rw [found_holds _ rfl] at hl
    exact absurd hl List.not_mem_nil
  | decide =>
    rw [decided_holds] at hl
    exact absurd hl List.not_mem_nil
  | register | wire | tell => exact Or.inr (congrArg some (List.mem_singleton.mp hl).symm)
  | listening =>
    rcases List.mem_pair.mp hl with rfl | rfl
    · exact Or.inl (List.mem_singleton_self _)
    · exact Or.inr rfl
  | slot | fire =>
    split_ifs at hl <;> exact Or.inl hl
  | lockCallback =>
    simp only [Pc.holds, List.mem_cons, List.not_mem_nil, or_false] at hl
    rcases hl with rfl | rfl | rfl
    · exact Or.inl List.mem_cons_self
    · exact Or.inl (List.mem_cons_of_mem _ (List.mem_singleton_self _))
    · exact Or.inr rfl
  | onEvent | notAttached =>
    left
    rcases List.mem_pair.mp hl with rfl | rfl
    · exact List.mem_cons_self
    · exact List.mem_cons_of_mem _ List.mem_cons_self
  | fired => exact Or.inl (List.mem_cons.mpr (Or.inl (List.mem_singleton.mp hl)))
  | _ => exact absurd hl List.not_mem_nil

/-- The order is listeners, event callback, `EVENT_CALLBACK`, and no step takes another lock than
the one it waited for. -/
def bridge : Discipline Shared Pc Act Lock where
  move := Move
  holds p l := l ∈ p.holds
  wants := Pc.wants
  rank := Lock.rank
  ordered _ _ _ := Pc.ordered
  takes _ _ _ _ _ h _ := h.takes

abbrev World (T : Type) := LockOrder.World Shared Pc T

def World.init (T : Type) : World T := ⟨Shared.init, fun _ => .idle⟩

def Act.Starts : Act → Prop
  | .start _ => True
  | _ => False

/-- A thread in a call can go on, once it has the lock that it waits for. -/
theorem exists_tick (s : Shared) {p : Pc} (hp : p ≠ .idle) : ∃ s' p', Move s p .tick s' p' := by
  cases p with
  | idle => exact absurd rfl hp
  | storeJvm => exact ⟨_, _, .storeJvm⟩
  | refer => exact ⟨_, _, .refer⟩
  | register => exact ⟨_, _, .register⟩
  | registering => exact ⟨_, _, .registered⟩
  | get => exact ⟨_, _, .get⟩
  | make => exact ⟨_, _, .make⟩
  | publish g e =>
    cases g with
    | none => exact ⟨_, _, .inited⟩
    | some g => exact ⟨_, _, .publish⟩
  | reget => exact ⟨_, _, .reget⟩
  | wire => exact ⟨_, _, .wire⟩
  | wiring => exact ⟨_, _, .wired⟩
  | engaged => exact ⟨_, _, .leave⟩
  | decide => exact ⟨_, _, .decide⟩
  | write => exact ⟨_, _, .write⟩
  | tell => exact ⟨_, _, .tell⟩
  | listening => exact ⟨_, _, .listening⟩
  | slot => exact ⟨_, _, .slot⟩
  | fire => exact ⟨_, _, .fire⟩
  | lockCallback => exact ⟨_, _, .lockCallback⟩
  | onEvent => exact ⟨_, _, .onEvent⟩
  | fired => exact ⟨_, _, .fired⟩
  | told => exact ⟨_, _, .told⟩

theorem found_cost (g : Goal) {p : Pc} {n : ℕ} (hn : 2 < n) (hp : p.cost < n) (o : Option ℕ) :
    (found g p o).cost < n := by
  cases o with
  | none => exact hp
  | some e =>
    cases g with
    | wire => exact hn
    | use => exact Nat.lt_of_succ_lt hn

theorem Move.cost_lt {s s' : Shared} {p p' : Pc} {a : Act} (h : Move s p a s' p')
    (ha : ¬a.Starts) : p'.cost < p.cost := by
  cases h with
  | get | reget => apply found_cost <;> simp [Pc.cost]
  | decide =>
    unfold decided
    split
    · split_ifs <;> simp [Pc.cost]
    · simp [Pc.cost]
  | slot | fire => split_ifs <;> simp [Pc.cost]
  | setEventCallback | init | getOrInit | engage | forceIdle | dispatch => exact absurd trivial ha
  | _ => simp [Pc.cost]

theorem cost_le (p : Pc) : p.cost ≤ 11 := by
  cases p <;> exact Nat.le_of_ble_eq_true rfl

/-- `nativeSetEventCallback` up to the lock of `EVENT_CALLBACK`, whatever the other threads do. -/
theorem setEventCallback_waits {T : Type} [DecidableEq T] {w : World T} {t : T}
    (ht : w.pcs t = .idle) (cb : ℕ) : ∃ tr w', Run (LockOrder.Step bridge) w tr w' ∧
      w'.pcs t = .register cb ∧ ∀ u, u ≠ t → w'.pcs u = w.pcs u := by
  -- a point at which the thread wants no lock
  have hstep : ∀ (v : World T) p a s q, v.pcs t = p → p.wants = none → Move v.shared p a s q →
      LockOrder.Step bridge v (t, a) ⟨s, Function.update v.pcs t q⟩ := by
    rintro v p a s q rfl hwants hmove
    refine .mk (fun l hl => ?_) hmove
    have hnone : some l = none := hl.symm.trans hwants
    cases hnone
  have hself : ∀ (pcs : T → Pc) p, Function.update pcs t p t = p := fun _ _ =>
    Function.update_self ..
  refine ⟨_, _, .snoc (.snoc (.single (hstep w _ _ _ _ ht rfl .setEventCallback))
    (hstep _ _ _ _ _ (hself _ _) rfl .storeJvm)) (hstep _ _ _ _ _ (hself _ _) rfl .refer),
    hself _ _, ?_⟩
  intro u hu
  simp only [Function.update_of_ne hu]

/-- However many threads call into the engine, and whatever they call: the callback of the app is
called by one thread at a time, some thread that is in a call can always go on, and once no further
calls begin all of them are over after 11 steps each at most. -/
theorem calls_complete {T : Type} [Fintype T] [DecidableEq T] {tr : List (World T × T × Act)}
    {w : World T} (hrun : Run (LockOrder.Step bridge) (World.init T) tr w) :
    (∀ t u e e' s s', w.pcs t = .onEvent e s → w.pcs u = .onEvent e' s' → t = u) ∧
    (∀ t, w.pcs t ≠ .idle → ∃ u w', w.pcs u ≠ .idle ∧ LockOrder.Step bridge w (u, .tick) w') ∧
    ∀ tr' w', Run (LockOrder.Step bridge) w tr' w' → (∀ x ∈ tr', ¬x.2.2.Starts) →
      tr'.length ≤ 11*Fintype.card T := by
  refine ⟨?_, ?_, ?_⟩
  · have hex : LockOrder.Exclusive bridge w := by
      apply hrun.invariant (LockOrder.Exclusive bridge)
      · intro l t u ht
        exact absurd ht List.not_mem_nil
      · intro w x w' hw h
        exact h.exclusive hw
    intro t u e e' s s' ht hu
    apply hex .callback
    · simp [bridge, ht, Pc.holds]
    · simp [bridge, hu, Pc.holds]
  · intro t ht
    have hbusy : ∀ p l, bridge.holds p l → p ≠ .idle := by
      rintro p l hl rfl
      exact absurd hl List.not_mem_nil
    obtain ⟨u, hu, hfree⟩ := LockOrder.exists_enabled _ hbusy ht
    obtain ⟨s', p', hmove⟩ := exists_tick w.shared hu
    exact ⟨u, _, hu, .mk hfree hmove⟩
  · intro tr' w' hrun' hstarts
    have hle := LockOrder.length_le Pc.cost Act.Starts (fun _ _ _ _ _ h => Move.cost_lt h) hrun'
      hstarts
    have hsum : ∑ t, (w.pcs t).cost ≤ ∑ _t : T, 11 := Finset.sum_le_sum fun t _ => cost_le _
    rw [Finset.sum_const_nat (fun _ _ => rfl), Finset.card_univ, Nat.mul_comm] at hsum
    omega

/-- Two threads register a callback: one has `EVENT_CALLBACK` and the other waits for it. -/
theorem contending_threads_complete : ∃ w, w.pcs true = .registering 1 ∧
    w.pcs false = .register 2 ∧ ¬LockOrder.Enabled bridge w false ∧
    (∃ u w', w.pcs u ≠ .idle ∧ LockOrder.Step bridge (T := Bool) w (u, .tick) w') ∧
    ∀ tr' w', Run (LockOrder.Step bridge) w tr' w' → (∀ x ∈ tr', ¬x.2.2.Starts) →
      tr'.length ≤ 22 := by
  obtain ⟨tr₁, w₁, hrun₁, hfirst, hrest₁⟩ :=
    setEventCallback_waits (w := World.init Bool) (t := true) rfl 1
  obtain ⟨tr₂, w₂, hrun₂, hsecond, hrest₂⟩ :=
    setEventCallback_waits (t := false) (hrest₁ false Bool.false_ne_true) 2
  have hfirst₂ : w₂.pcs true = .register 1 := (hrest₂ true Bool.false_ne_true.symm).trans hfirst
  have hfree : LockOrder.Enabled bridge w₂ true := by
    intro l _ u hu
    cases u <;> simp [bridge, hfirst₂, hsecond, Pc.holds] at hu
  have hmove : Move w₂.shared (w₂.pcs true) .tick w₂.shared (.registering 1) := by
    rw [hfirst₂]
    exact .register
  obtain ⟨w, hstep, hholds, hwants⟩ : ∃ w, LockOrder.Step bridge w₂ (true, .tick) w ∧
      w.pcs true = .registering 1 ∧ w.pcs false = .register 2 :=
    ⟨_, .mk hfree hmove, rfl, hsecond⟩
  have hbusy : w.pcs true ≠ .idle := by
    rw [hholds]
    exact nofun
  obtain ⟨-, hgo, hover⟩ := calls_complete ((hrun₁.append hrun₂).snoc hstep)
  refine ⟨w, hholds, hwants, ?_, hgo true hbusy, hover⟩
  intro hfree
  apply hfree .callback (congrArg Pc.wants hwants) true
  simp [bridge, hholds, Pc.holds]

end GravitalShare.Jni
