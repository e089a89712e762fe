import Mathlib.Logic.Function.Basic
import Mathlib.Tactic.Common

/-! Numbered slots and the parties that rely on them. A party claims that a slot holds a certain
thing; what is in a slot is claimed by somebody, unless it is known to be loose. -/
namespace GravitalShare.Slots

variable {N O P : Type} {table : N → Option O} {claim claim' : P → Option (N × O)}
  {loose loose' : O → Prop} {n : N} {o : O} {p q : P}

structure Kept (table : N → Option O) (claim : P → Option (N × O)) (loose : O → Prop) : Prop where
  held : ∀ p n o, claim p = some (n, o) → table n = some o
  covered : ∀ n o, table n = some o → (∃ p, claim p = some (n, o)) ∨ loose o

/-- No two parties rely on the same thing. -/
def Apart (claim : P → Option (N × O)) : Prop :=
  ∀ p q n m o, claim p = some (n, o) → claim q = some (m, o) → p = q

theorem Kept.congr (h : Kept table claim loose) (hc : ∀ q, claim' q = claim q)
    (hl : ∀ o, loose o → loose' o) : Kept table claim' loose' where
  held p n o hp := h.held p n o (hc p ▸ hp)
  covered n o hn := by
    rcases h.covered n o hn with ⟨p, hp⟩ | ho
    · exact Or.inl ⟨p, (hc p).trans hp⟩
    · exact Or.inr (hl o ho)

/-- A party forgets about its slot. -/
theorem Kept.abandon (h : Kept table claim loose) (hsame : ∀ r, r ≠ p → claim' r = claim r)
    (hp : claim p = some (n, o)) (hp' : claim' p = none) (hl : ∀ o, loose o → loose' o)
    (ho : loose' o) : Kept table claim' loose' where
  held r m o' hr := by
    have hne : r ≠ p := fun he => Option.some_ne_none _ (hr.symm.trans (he ▸ hp'))
    exact h.held r m o' (hsame r hne ▸ hr)
  covered m o' hm := by
    rcases h.covered m o' hm with ⟨r, hr⟩ | ho'
    · rcases eq_or_ne r p with rfl | hne
      · cases hr.symm.trans hp
        exact Or.inr ho
      · exact Or.inl ⟨r, (hsame r hne).trans hr⟩
    · exact Or.inr (hl o' ho')

/-- A party hands its slot on to another. -/
theorem Kept.move (h : Kept table claim loose) (hsame : ∀ r, r ≠ p → r ≠ q → claim' r = claim r)
    (hp' : claim' p = none) (hq : claim q = none) (hq' : claim' q = claim p) :
    Kept table claim' loose where
  held r m o' hr := by
    rcases eq_or_ne r q with rfl | hrq
    · exact h.held p m o' (hq' ▸ hr)
    · have hrp : r ≠ p := fun he => Option.some_ne_none _ (hr.symm.trans (he ▸ hp'))
      exact h.held r m o' (hsame r hrp hrq ▸ hr)
  covered m o' hm := by
    rcases h.covered m o' hm with ⟨r, hr⟩ | ho
    · rcases eq_or_ne r p with rfl | hrp
      · exact Or.inl ⟨q, hq'.trans hr⟩
      · have hrq : r ≠ q := fun he => Option.some_ne_none _ (hr.symm.trans (he ▸ hq))
        exact Or.inl ⟨r, (hsame r hrp hrq).trans hr⟩
    · exact Or.inr ho

variable [DecidableEq N]

/-- Something loose is put into a free slot. -/
theorem Kept.put (h : Kept table claim loose) (hn : table n = none) (ho : loose o) :
    Kept (Function.update table n (some o)) claim loose where
  held p m o' hp := by
    have hm := h.held p m o' hp
    have hne : m ≠ n := fun he => Option.some_ne_none o' (hm.symm.trans (he ▸ hn))
    rwa [Function.update_of_ne hne]
  covered m o' hm := by
    rcases eq_or_ne m n with rfl | hne
    · rw [Function.update_self] at hm
      cases hm
      exact Or.inr ho
    · rw [Function.update_of_ne hne] at hm
      exact h.covered m o' hm

/-- Something is taken out of its slot that nobody relies on. -/
theorem Kept.drop (h : Kept table claim loose) (hn : ∀ p o, claim p ≠ some (n, o)) :
    Kept (Function.update table n none) claim loose where
  held p m o' hp := by
    have hne : m ≠ n := fun he => hn p o' (he ▸ hp)
    rw [Function.update_of_ne hne]
    exact h.held p m o' hp
  covered m o' hm := by
    rcases eq_or_ne m n with rfl | hne
    · rw [Function.update_self] at hm
      cases hm
    · rw [Function.update_of_ne hne] at hm
      exact h.covered m o' hm

variable (hsame : ∀ r, r ≠ p → claim' r = claim r)
include hsame

/-- A party puts something into a free slot. -/
theorem Kept.take (h : Kept table claim loose) (hn : table n = none) (hp : claim p = none)
    (hp' : claim' p = some (n, o)) : Kept (Function.update table n (some o)) claim' loose where
  held r m o' hr := by
    rcases eq_or_ne r p with rfl | hne
    · rw [hp'] at hr
      cases hr
      exact Function.update_self _ _ _
    · have hm := h.held r m o' (hsame r hne ▸ hr)
      have hmn : m ≠ n := fun he => Option.some_ne_none o' (hm.symm.trans (he ▸ hn))
      rwa [Function.update_of_ne hmn]
  covered m o' hm := by
    rcases eq_or_ne m n with rfl | hmn
    · rw [Function.update_self] at hm
      cases hm
      exact Or.inl ⟨p, hp'⟩
    · rw [Function.update_of_ne hmn] at hm
      rcases h.covered m o' hm with ⟨r, hr⟩ | ho
      · have hne : r ≠ p := fun he => Option.some_ne_none _ (hr.symm.trans (he ▸ hp))
        exact Or.inl ⟨r, (hsame r hne).trans hr⟩
      · exact Or.inr ho

/-- A party empties the slot it relies on. -/
theorem Kept.release (h : Kept table claim loose) (ha : Apart claim) (hp : claim p = some (n, o))
    (hp' : claim' p = none) : Kept (Function.update table n none) claim' loose where
  held r m o' hr := by
    have hne : r ≠ p := fun he => Option.some_ne_none _ (hr.symm.trans (he ▸ hp'))
    have hr' : claim r = some (m, o') := hsame r hne ▸ hr
    have hm := h.held r m o' hr'
    -- the same slot would hold the same thing
    have hmn : m ≠ n := by
      rintro rfl
      cases hm.symm.trans (h.held p m o hp)
      exact hne (ha r p m m o hr' hp)
    rwa [Function.update_of_ne hmn]
  covered m o' hm := by
    rcases eq_or_ne m n with rfl | hmn
    · rw [Function.update_self] at hm
      cases hm
    · rw [Function.update_of_ne hmn] at hm
      rcases h.covered m o' hm with ⟨r, hr⟩ | ho
      · have hne : r ≠ p := by
          rintro rfl
          cases hr.symm.trans hp
          exact hmn rfl
        exact Or.inl ⟨r, (hsame r hne).trans hr⟩
      · exact Or.inr ho

end GravitalShare.Slots
