import Mathlib.Data.Nat.Notation
import Mathlib.Data.List.Range
import Mathlib.Tactic.Common

/-! Positions visited by a cursor that walks cyclically through an interval
`[base, base+size)`. -/
namespace GravitalShare

/-- The position reached from `start` after `i` moves. -/
def cyclic (base size start i : ℕ) : ℕ := base+(start-base+i)%size

section Cyclic

variable {base size start : ℕ} (hs : base ≤ start) (hs' : start < base+size)

theorem cyclic_ge (i : ℕ) : base ≤ cyclic base size start i := Nat.le_add_right _ _

include hs hs'

theorem cyclic_lt (i : ℕ) : cyclic base size start i < base+size := by
  have h := Nat.mod_lt (start-base+i) (show 0 < size by omega)
  unfold cyclic
  omega

theorem cyclic_zero : cyclic base size start 0 = start := by
  rw [cyclic, Nat.add_zero, Nat.mod_eq_of_lt (by omega)]
  omega

omit hs hs' in
theorem cyclic_succ (i : ℕ) :
    base+(cyclic base size start i-base+1)%size = cyclic base size start (i+1) := by
  simp only [cyclic, Nat.add_sub_cancel_left, Nat.mod_add_mod, Nat.add_assoc]

/-- Within one round the cursor is back at the start exactly at the end of it. -/
theorem cyclic_eq_start_iff {i : ℕ} (h0 : 0 < i) (hi : i ≤ size) :
    cyclic base size start i = start ↔ i = size := by
  unfold cyclic
  constructor
  · intro h
    by_contra hne
    by_cases hw : start-base+i < size
    · rw [Nat.mod_eq_of_lt hw] at h
      omega
    · rw [Nat.mod_eq_sub_mod (by omega), Nat.mod_eq_of_lt (by omega)] at h
      omega
  · rintro rfl
    rw [Nat.add_mod_right, Nat.mod_eq_of_lt (by omega)]
    omega

/-- One round visits the whole interval. -/
theorem cyclic_covers {p : ℕ} (hp : base ≤ p) (hp' : p < base+size) :
    ∃ i < size, cyclic base size start i = p := by
  by_cases h : start ≤ p
  · refine ⟨p-start, by omega, ?_⟩
    rw [cyclic, Nat.mod_eq_of_lt (by omega)]
    omega
  · refine ⟨p+size-start, by omega, ?_⟩
    rw [cyclic, Nat.mod_eq_sub_mod (by omega), Nat.mod_eq_of_lt (by omega)]
    omega

end Cyclic

end GravitalShare
