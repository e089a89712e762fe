import Mathlib.Data.List.Basic
import Mathlib.Order.Monotone.Basic
import Mathlib.Order.WellFounded
import Mathlib.Tactic.Common

/-! Runs of a labelled step relation. A run keeps every step together with the state
it left, so that what a program did, and under which conditions, can be read off it. -/
namespace GravitalShare

inductive Run {S L : Type} (step : S → L → S → Prop) (s : S) : List (S × L) → S → Prop
  | nil : Run step s [] s
  | snoc {tr t l u} : Run step s tr t → step t l u → Run step s (tr ++ [(t, l)]) u

namespace Run

variable {S L : Type} {step : S → L → S → Prop} {s t u : S} {tr tr' : List (S × L)}

theorem single {l : L} (h : step s l t) : Run step s [(s, l)] t := snoc nil h

theorem append (h : Run step s tr t) (h' : Run step t tr' u) : Run step s (tr ++ tr') u := by
  induction h' with
  | nil => rwa [List.append_nil]
  | snoc _ hl ih =>
    rw [← List.append_assoc]
    exact snoc ih hl

/-- A run that has made a step began with one. -/
theorem first_mem (h : Run step s tr t) : t = s ∨ ∃ l, (s, l) ∈ tr := by
  induction h with
  | nil => exact Or.inl rfl
  | @snoc tr t l u _ _ ih =>
    rcases ih with rfl | ⟨l', hl'⟩
    · exact Or.inr ⟨l, List.mem_append_right _ (List.mem_singleton_self _)⟩
    · exact Or.inr ⟨l', List.mem_append_left _ hl'⟩

/-- What every step preserves holds at the end of every run. -/
theorem invariant (I : S → Prop) (hs : I s) (hstep : ∀ t l u, I t → step t l u → I u)
    (h : Run step s tr t) : I t := by
  induction h with
  | nil => exact hs
  | snoc _ hl ih => exact hstep _ _ _ ih hl

/-- The same for a property of the state and of what happened so far. -/
theorem history (P : List (S × L) → S → Prop) (hs : P [] s)
    (hstep : ∀ tr t l u, P tr t → step t l u → P (tr ++ [(t, l)]) u)
    (h : Run step s tr t) : P tr t := by
  induction h with
  | nil => exact hs
  | snoc _ hl ih => exact hstep _ _ _ _ ih hl

/-- The same under a condition that every step of the run meets. -/
theorem history_of (C : S → L → Prop) (P : List (S × L) → S → Prop) (hs : P [] s)
    (hstep : ∀ tr t l u, P tr t → C t l → step t l u → P (tr ++ [(t, l)]) u)
    (h : Run step s tr t) (hc : ∀ p ∈ tr, C p.1 p.2) : P tr t := by
  induction h with
  | nil => exact hs
  | @snoc tr t l u _ hl ih =>
    have hlast : C t l := hc (t, l) (List.mem_append_right _ (List.mem_singleton_self _))
    exact hstep _ _ _ _ (ih fun p hp => hc p (List.mem_append_left _ hp)) hlast hl

theorem mono {step' : S → L → S → Prop} (hstep : ∀ t l u, step t l u → step' t l u)
    (h : Run step s tr t) : Run step' s tr t := by
  induction h with
  | nil => exact nil
  | snoc _ hl ih => exact snoc ih (hstep _ _ _ hl)

/-- A run of steps that all meet a condition. -/
theorem guarded {C : S → L → Prop} (h : Run (fun t l u => step t l u ∧ C t l) s tr t) :
    Run step s tr t ∧ ∀ p ∈ tr, C p.1 p.2 := by
  induction h with
  | nil => exact ⟨nil, fun _ hp => absurd hp List.not_mem_nil⟩
  | snoc _ hl ih =>
    refine ⟨snoc ih.1 hl.1, ?_⟩
    intro p hp
    rcases List.mem_append.mp hp with hp | hp
    · exact ih.2 p hp
    · rw [List.mem_singleton.mp hp]
      exact hl.2

/-- A property that no step can establish holds all along a run that ends in it. -/
theorem restrict {A : S → Prop} (hback : ∀ t l u, step t l u → A u → A t)
    (h : Run step s tr t) (ht : A t) : Run (fun t l u => step t l u ∧ A u) s tr t := by
  induction h with
  | nil => exact nil
  | snoc _ hl ih => exact snoc (ih (hback _ _ _ hl ht)) ⟨hl, ht⟩

end Run

/-- If a well-founded measure is lowered by the steps of one kind and never raised, then only steps
of the other kind go on forever. -/
theorem settles {S L α : Type} [PartialOrder α] [WellFoundedLT α] (μ : S → α) (busy : L → Prop)
    (s : ℕ → S) (l : ℕ → L) (hlt : ∀ n, busy (l n) → μ (s (n+1)) < μ (s n))
    (hle : ∀ n, ¬busy (l n) → μ (s (n+1)) ≤ μ (s n)) : ∃ N, ∀ n, N ≤ n → ¬busy (l n) := by
  have hanti : Antitone fun n => μ (s n) := by
    apply antitone_nat_of_succ_le
    intro n
    by_cases hb : busy (l n)
    · exact (hlt n hb).le
    · exact hle n hb
  -- from a place with the least value on, nothing is left to lower
  obtain ⟨-, ⟨N, rfl⟩, hmin⟩ :=
    (wellFounded_lt (α := α)).has_min (Set.range fun n => μ (s n)) ⟨_, 0, rfl⟩
  refine ⟨N, ?_⟩
  intro n hn hb
  exact hmin _ ⟨n+1, rfl⟩ ((hlt n hb).trans_le (hanti hn))

section Flow

variable {S L β : Type}

/-- What the steps of a run contributed, in order. -/
def gather (f : S → L → List β) (tr : List (S × L)) : List β := tr.flatMap fun p => f p.1 p.2

theorem gather_append (f : S → L → List β) (tr tr' : List (S × L)) :
    gather f (tr ++ tr') = gather f tr ++ gather f tr' := List.flatMap_append

theorem gather_snoc (f : S → L → List β) (tr : List (S × L)) (s : S) (l : L) :
    gather f (tr ++ [(s, l)]) = gather f tr ++ f s l := by
  rw [gather_append]
  exact congrArg _ (List.append_nil _)

/-- Where the contribution depends on the labels alone. -/
theorem gather_labels (f : S → L → List β) (s : S) (hf : ∀ t l, f t l = f s l)
    (tr : List (S × L)) : gather f tr = (tr.map Prod.snd).flatMap (f s) := by
  rw [List.flatMap_map]
  exact List.flatMap_congr fun p _ => hf p.1 p.2

/-- Accounting for a queue `q` with inflow and outflow. When every step either passes on
exactly what it was given or loses something, the outflow followed by the queue is the
inflow exactly if no step of the run lost anything. -/
theorem Run.conserved_iff {step : S → L → S → Prop} {s t : S} {tr : List (S × L)}
    (q : S → List β) (inflow outflow : S → L → List β) (lossy : S → L → Prop)
    (hstep : ∀ t l u, step t l u →
      (¬lossy t l ∧ q t ++ inflow t l = outflow t l ++ q u) ∨
      (lossy t l ∧ (outflow t l).length+(q u).length < (q t).length+(inflow t l).length))
    (h0 : q s = []) (h : Run step s tr t) :
    gather outflow tr ++ q t = gather inflow tr ↔ ∀ p ∈ tr, ¬lossy p.1 p.2 := by
  -- equality while nothing is lost, and a deficit from the first loss on
  have key : ((∀ p ∈ tr, ¬lossy p.1 p.2) → gather outflow tr ++ q t = gather inflow tr) ∧
      (gather outflow tr).length+(q t).length ≤ (gather inflow tr).length ∧
      ((∃ p ∈ tr, lossy p.1 p.2) →
        (gather outflow tr).length+(q t).length < (gather inflow tr).length) := by
    induction h with
    | nil => simp [gather, h0]
    | @snoc tr t l u _ hl ih =>
      obtain ⟨heq, hle, hlt⟩ := ih
      simp only [gather_snoc, List.length_append]
      rcases hstep t l u hl with ⟨hn, hq⟩ | ⟨hn, hq⟩
      · have hlen := congrArg List.length hq
        simp only [List.length_append] at hlen
        refine ⟨?_, by omega, ?_⟩
        · intro hall
          rw [List.append_assoc, ← hq, ← List.append_assoc,
            heq fun p hp => hall p (List.mem_append_left _ hp)]
        · rintro ⟨p, hp, hlp⟩
          rcases List.mem_append.mp hp with hp | hp
          · have := hlt ⟨p, hp, hlp⟩
            omega
          · rw [List.mem_singleton.mp hp] at hlp
            exact absurd hlp hn
      · refine ⟨?_, by omega, fun _ => by omega⟩
        intro hall
        exact absurd hn (hall (t, l) (List.mem_append_right _ (List.mem_singleton_self _)))
  constructor
  · intro he p hp hlp
    have hlt := key.2.2 ⟨p, hp, hlp⟩
    rw [← he, List.length_append] at hlt
    omega
  · exact key.1

end Flow

end GravitalShare
