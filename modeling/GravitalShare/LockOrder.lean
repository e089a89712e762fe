import GravitalShare.Transition
import Mathlib.Algebra.BigOperators.Group.Finset.Basic
import Mathlib.Algebra.Order.BigOperators.Group.Finset
import Mathlib.Data.Fintype.Card
import Mathlib.Data.Set.Finite.Lemmas

/-! Threads that share a state and take locks in a fixed order. A thread waits for one lock at a
time, and the locks that it holds come before that one. -/
namespace GravitalShare.LockOrder

/-- What a thread can do, which locks it holds at each point, and which one it takes next. -/
structure Discipline (S P A L : Type) where
  move : S → P → A → S → P → Prop
  holds : P → L → Prop
  wants : P → Option L
  rank : L → ℕ
  ordered : ∀ p l m, holds p l → wants p = some m → rank l < rank m
  takes : ∀ s p a s' p', move s p a s' p' → ∀ l, holds p' l → holds p l ∨ wants p = some l

structure World (S P T : Type) where
  shared : S
  pcs : T → P

section

variable {S P A L T : Type} (D : Discipline S P A L)

def Free (w : World S P T) (l : L) : Prop := ∀ t, ¬D.holds (w.pcs t) l

def Enabled (w : World S P T) (t : T) : Prop := ∀ l, D.wants (w.pcs t) = some l → Free D w l

/-- At most one thread holds a lock. -/
def Exclusive (w : World S P T) : Prop :=
  ∀ l t u, D.holds (w.pcs t) l → D.holds (w.pcs u) l → t = u

variable [DecidableEq T]

inductive Step : World S P T → T × A → World S P T → Prop
  | mk {w : World S P T} {t : T} {a : A} {s : S} {p : P} (hfree : Enabled D w t)
      (h : D.move w.shared (w.pcs t) a s p) : Step w (t, a) ⟨s, Function.update w.pcs t p⟩

variable {D} {w w' : World S P T}

theorem Step.exclusive {x : T × A} (h : Step D w x w') (hw : Exclusive D w) : Exclusive D w' := by
  obtain @⟨t, a, s, p, hfree, hmove⟩ := h
  -- a lock of the thread that moved is nobody else's
  have hown : ∀ l u, D.holds p l → D.holds (w.pcs u) l → u = t := by
    intro l u hp hu
    rcases D.takes _ _ _ _ _ hmove l hp with hold | hwant
    · exact hw l u t hu hold
    · exact absurd hu (hfree l hwant u)
  intro l u v hu hv
  by_cases hut : u = t
  · by_cases hvt : v = t
    · rw [hut, hvt]
    · simp only [hut, Function.update_self, Function.update_of_ne hvt] at hu hv
      exact absurd (hown l v hu hv) hvt
  · by_cases hvt : v = t
    · simp only [hvt, Function.update_self, Function.update_of_ne hut] at hu hv
      exact absurd (hown l u hv hu) hut
    · simp only [Function.update_of_ne hut, Function.update_of_ne hvt] at hu hv
      exact hw l u v hu hv

omit [DecidableEq T] in
/-- Among the threads that are at work there is one that need not wait. -/
theorem exists_enabled [Finite T] (busy : P → Prop) (hbusy : ∀ p l, D.holds p l → busy p) {t : T}
    (ht : busy (w.pcs t)) : ∃ u, busy (w.pcs u) ∧ Enabled D w u := by
  let want (u : T) : ℕ := ((D.wants (w.pcs u)).map fun l => D.rank l+1).getD 0
  -- the one that waits for the last lock: whoever holds that lock does not wait
  obtain ⟨u, hu, hmax⟩ := Set.exists_max_image {u | busy (w.pcs u)} want (Set.toFinite _) ⟨t, ht⟩
  by_cases hfree : Enabled D w u
  · exact ⟨u, hu, hfree⟩
  · simp only [Enabled, Free, not_forall, not_not] at hfree
    obtain ⟨l, hl, v, hv⟩ := hfree
    refine ⟨v, hbusy _ l hv, ?_⟩
    intro m hm
    have hlt := D.ordered _ l m hv hm
    have hle := hmax v (hbusy _ l hv)
    simp only [want, hl, hm, Option.map_some, Option.getD_some] at hle
    omega

/-- A bound for the steps that are left, while no thread begins anything new. -/
theorem length_le [Fintype T] (cost : P → ℕ) (begins : A → Prop)
    (hcost : ∀ s p a s' p', D.move s p a s' p' → ¬begins a → cost p' < cost p)
    {tr : List (World S P T × T × A)} (h : Run (Step D) w tr w')
    (htr : ∀ x ∈ tr, ¬begins x.2.2) :
    tr.length+∑ t, cost (w'.pcs t) ≤ ∑ t, cost (w.pcs t) := by
  refine h.history_of (fun _ x => ¬begins x.2)
    (fun tr w' => tr.length+∑ t, cost (w'.pcs t) ≤ ∑ t, cost (w.pcs t)) ?_ ?_ htr
  · simp
  · intro tr v x v' ih hx hstep
    obtain @⟨t, a, s, p, hfree, hmove⟩ := hstep
    have hlt := hcost _ _ _ _ _ hmove hx
    have hsum : ∑ u, cost (Function.update v.pcs t p u)+1 ≤ ∑ u, cost (v.pcs u) := by
      have hstrict : ∑ u, cost (Function.update v.pcs t p u) < ∑ u, cost (v.pcs u) := by
        apply Finset.sum_lt_sum
        · intro u _
          by_cases hut : u = t
          · rw [hut, Function.update_self]
            exact hlt.le
          · rw [Function.update_of_ne hut]
        · exact ⟨t, Finset.mem_univ t, by rwa [Function.update_self]⟩
      exact hstrict
    rw [List.length_append, List.length_singleton]
    show tr.length+1+∑ u, cost (Function.update v.pcs t p u) ≤ _
    omega

end

end GravitalShare.LockOrder
