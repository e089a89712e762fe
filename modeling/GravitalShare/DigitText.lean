import Mathlib.Algebra.Group.Nat.Defs
import Mathlib.Algebra.Ring.Int.Defs
import Mathlib.Data.List.TakeWhile
import Mathlib.Tactic.Common

/-! Numbers as texts of digits. -/
namespace GravitalShare

/-- `char::to_digit`, for a radix of at most 36. -/
def toDigit (radix : ℕ) (c : Char) : Option ℕ :=
  let d := if c.isDigit then c.toNat - '0'.toNat
    else if 'a' ≤ c ∧ c ≤ 'z' then c.toNat - 'a'.toNat+10
    else if 'A' ≤ c ∧ c ≤ 'Z' then c.toNat - 'A'.toNat+10
    else radix
  if d < radix then some d else none

/-- The value of digits, read from left to right. -/
def digitsValue (radix : ℕ) (s : List Char) : ℕ :=
  s.foldl (fun n c => radix*n+(toDigit radix c).getD 0) 0

theorem digitsValue_snoc (radix : ℕ) (s : List Char) (c : Char) :
    digitsValue radix (s ++ [c]) = radix*digitsValue radix s+(toDigit radix c).getD 0 := by
  rw [digitsValue, List.foldl_append]
  rfl

section Decimal

theorem toDigit_of_isDigit {c : Char} (h : c.isDigit = true) :
    48 ≤ c.toNat ∧ c.toNat < 58 ∧ toDigit 10 c = some (c.toNat-48) := by
  have hrange : 48 ≤ c.toNat ∧ c.toNat ≤ 57 := by
    simpa [Char.isDigit, UInt32.le_iff_toNat_le] using h
  have hzero : '0'.toNat = 48 := rfl
  refine ⟨hrange.1, by omega, ?_⟩
  rw [toDigit, if_pos h, hzero, if_pos (by omega)]

theorem digitChar_facts : ∀ d < 10, toDigit 10 (Nat.digitChar d) = some d ∧
    (Nat.digitChar d = '0' ↔ d = 0) := by
  decide

/-- The decimal digits of a number are digits. -/
theorem digit_of_mem_toDigits {n : ℕ} {c : Char} (hc : c ∈ Nat.toDigits 10 n) :
    48 ≤ c.toNat ∧ c.toNat < 58 ∧ toDigit 10 c = some (c.toNat-48) :=
  toDigit_of_isDigit (Nat.isDigit_of_mem_toDigits (by decide) (by decide) hc)

theorem digitsValue_toDigits (n : ℕ) : digitsValue 10 (Nat.toDigits 10 n) = n := by
  induction n using Nat.strong_induction_on with
  | h n ih =>
    rw [Nat.toDigits_eq_if (by decide)]
    split_ifs with hn
    · have hd := (digitChar_facts n hn).1
      simp [digitsValue, hd]
    · have hd := (digitChar_facts _ (Nat.mod_lt n (by decide))).1
      rw [digitsValue_snoc, ih _ (Nat.div_lt_self (by omega) (by decide)), hd, Option.getD_some]
      omega

/-- Only zero begins with a zero. -/
theorem toDigits_cons (n : ℕ) : ∃ c rest, Nat.toDigits 10 n = c :: rest ∧
    (c = '0' → n = 0 ∧ rest = []) := by
  induction n using Nat.strong_induction_on with
  | h n ih =>
    rw [Nat.toDigits_eq_if (by decide)]
    split_ifs with hn
    · exact ⟨_, [], rfl, fun hc => ⟨(digitChar_facts n hn).2.mp hc, rfl⟩⟩
    · have hlt : n/10 < n := Nat.div_lt_self (by omega) (by decide)
      obtain ⟨c, rest, hcons, hzero⟩ := ih _ hlt
      refine ⟨c, rest ++ [Nat.digitChar (n%10)], by rw [hcons]; rfl, ?_⟩
      intro hc
      have := (hzero hc).1
      omega

end Decimal

end GravitalShare
