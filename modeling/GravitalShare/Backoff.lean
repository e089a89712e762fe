import GravitalShare.Machine
import Mathlib.Algebra.Order.Ring.Nat
import Mathlib.Data.List.Range

/-! Retrying with a delay that doubles from one attempt to the next up to a cap, as saturating
machine arithmetic computes it, and the loop that sleeps these delays. -/
namespace GravitalShare.Backoff

section Delay

-- u64::saturating_mul
def saturatingMul (a b : ℕ) : ℕ := min (a*b) (2^64-1)

-- u64::saturating_pow
def saturatingPow (a n : ℕ) : ℕ := min (a^n) (2^64-1)

-- base.saturating_mul(2.saturating_pow(attempt.saturating_sub(1))).min(cap)
def delay (base cap attempt : ℕ) : ℕ :=
  min (saturatingMul base (saturatingPow 2 (attempt-1))) cap

variable {base cap : ℕ}

/-- A cap that fits into the machine word hides both saturations. -/
theorem delay_eq (hb : 0 < base) (hc : cap < 2^64) (attempt : ℕ) :
    delay base cap attempt = min (base*2^(max attempt 1-1)) cap := by
  have hexp : max attempt 1-1 = attempt-1 := by omega
  rw [delay, saturatingMul, saturatingPow, hexp]
  generalize 2^(attempt-1) = p
  rcases Nat.le_total p (2^64-1) with hp | hp
  · rw [min_eq_left hp, min_assoc, min_eq_right (show cap ≤ 2^64-1 by omega)]
  · -- the power saturates, and so does every product with it
    have hsat : 2^64-1 ≤ base*(2^64-1) := Nat.le_mul_of_pos_left _ hb
    have hexact : 2^64-1 ≤ base*p := hp.trans (Nat.le_mul_of_pos_left _ hb)
    rw [min_eq_right hp, min_eq_right hsat, min_eq_right (show cap ≤ 2^64-1 by omega),
      min_eq_right (show cap ≤ base*p by omega)]

theorem delay_mono (hb : 0 < base) (hc : cap < 2^64) {m n : ℕ} (h : m ≤ n) :
    delay base cap m ≤ delay base cap n := by
  rw [delay_eq hb hc, delay_eq hb hc]
  have hexp : max m 1-1 ≤ max n 1-1 := by omega
  apply min_le_min_right
  apply Nat.mul_le_mul_left
  exact Nat.pow_le_pow_right (by decide) hexp

theorem delay_le (attempt : ℕ) : delay base cap attempt ≤ cap := min_le_right _ _

theorem le_delay (hb : 0 < base) (hc : cap < 2^64) (h : base ≤ cap) (attempt : ℕ) :
    base ≤ delay base cap attempt := by
  rw [delay_eq hb hc]
  apply le_min _ h
  exact Nat.le_mul_of_pos_right _ (Nat.two_pow_pos _)

end Delay

/-- What a retrying caller does, besides handing its result back. -/
inductive Act where
  | attempt (n : ℕ)
  | sleep (ms : ℕ)
  deriving DecidableEq, Repr

structure Trace (ε α : Type) where
  log : List Act
  result : Exec (Except ε α)

section Loop

variable {ε α : Type} (pause : ℕ → ℕ) (outcome : ℕ → Except ε α)

/-- `for attempt in k..=last`, which has `turns` numbers to go through. A failure is returned in
the last turn and slept on in every other one. -/
def loop (last : ℕ) : (turns k : ℕ) → Trace ε α
  -- unreachable!()
  | 0, _ => ⟨[], .error .assertion⟩
  | turns+1, k =>
    match outcome k with
    | .ok a => ⟨[.attempt k], .ok (.ok a)⟩
    | .error e =>
      if k = last then ⟨[.attempt k], .ok (.error e)⟩
      else
        let rest := loop last turns (k+1)
        ⟨.attempt k :: .sleep (pause k) :: rest.log, rest.result⟩

/-- `for attempt in 1..=last` -/
def retry (last : ℕ) : Trace ε α := loop pause outcome last last 1

/-- `m` failed attempts from number `k` on, and one more. -/
def timeline : (m k : ℕ) → List Act
  | 0, k => [.attempt k]
  | m+1, k => .attempt k :: .sleep (pause k) :: timeline m (k+1)

def attempts (log : List Act) : List ℕ :=
  log.filterMap fun
    | .attempt n => some n
    | .sleep _ => none

def sleeps (log : List Act) : List ℕ :=
  log.filterMap fun
    | .attempt _ => none
    | .sleep ms => some ms

/-- Every sleep has an attempt right before it and another one right after it. -/
def SleepsBetween (log : List Act) : Prop :=
  ∀ pre ms post, log = pre ++ .sleep ms :: post →
    (∃ pre' n, pre = pre' ++ [.attempt n]) ∧ ∃ n post', post = .attempt n :: post'

theorem attempts_timeline (m k : ℕ) : attempts (timeline pause m k) = List.range' k (m+1) := by
  induction m generalizing k with
  | zero => rfl
  | succ m ih => exact congrArg (k :: ·) (ih (k+1))

theorem sleeps_timeline (m k : ℕ) : sleeps (timeline pause m k) = (List.range' k m).map pause := by
  induction m generalizing k with
  | zero => rfl
  | succ m ih => exact congrArg (pause k :: ·) (ih (k+1))

theorem timeline_head (m k : ℕ) : ∃ rest, timeline pause m k = .attempt k :: rest := by
  cases m with
  | zero => exact ⟨[], rfl⟩
  | succ m => exact ⟨_, rfl⟩

theorem timeline_sleepsBetween (m k : ℕ) : SleepsBetween (timeline pause m k) := by
  induction m generalizing k with
  | zero =>
    intro pre ms post h
    rcases pre with _ | ⟨a, pre⟩ <;> simp [timeline] at h
  | succ m ih =>
    intro pre ms post h
    rw [timeline] at h
    -- the sleep is the first one or one of the rest
    rcases pre with _ | ⟨a, _ | ⟨b, pre⟩⟩
    · simp at h
    · simp only [List.cons_append, List.nil_append, List.cons.injEq] at h
      obtain ⟨rfl, -, rfl⟩ := h
      obtain ⟨rest, hrest⟩ := timeline_head pause m (k+1)
      exact ⟨⟨[], k, rfl⟩, k+1, rest, hrest⟩
    · simp only [List.cons_append, List.cons.injEq] at h
      obtain ⟨rfl, rfl, h⟩ := h
      obtain ⟨⟨pre', n, rfl⟩, hpost⟩ := ih (k+1) pre ms post h
      exact ⟨⟨_ :: _ :: pre', n, rfl⟩, hpost⟩

/-- All attempts from number `k` on that come before number `n` fail. -/
def FailsUntil (k n : ℕ) : Prop := ∀ i, k ≤ i → i < n → ∃ e, outcome i = .error e

/-- A loop that has a turn left ends with its first success or with its last attempt. -/
theorem loop_eq (last turns k : ℕ) (hk : k+turns = last) :
    ∃ m, m ≤ turns ∧ FailsUntil outcome k (k+m) ∧
      (m = turns ∨ ∃ a, outcome (k+m) = .ok a) ∧
      loop pause outcome last (turns+1) k = ⟨timeline pause m k, .ok (outcome (k+m))⟩ := by
  have hnone : FailsUntil outcome k (k+0) := fun i hi hi' => by omega
  induction turns generalizing k with
  | zero =>
    refine ⟨0, le_refl _, hnone, Or.inl rfl, ?_⟩
    rw [Nat.add_zero] at hk
    cases ho : outcome k with
    | ok a => simp only [loop, ho, timeline]
    | error e => simp only [loop, ho, if_pos hk, timeline]
  | succ turns ih =>
    cases ho : outcome k with
    | ok a =>
      refine ⟨0, Nat.zero_le _, hnone, Or.inr ⟨a, ho⟩, ?_⟩
      simp only [loop, ho, Nat.add_zero, timeline]
    | error e =>
      obtain ⟨m, hm, hfail, hend, hloop⟩ := ih (k+1) (by omega) (fun i hi hi' => by omega)
      have hshift : k+1+m = k+(m+1) := by omega
      rw [hshift] at hfail hend hloop
      refine ⟨m+1, by omega, ?_, ?_, ?_⟩
      · intro i hi hi'
        rcases Nat.eq_or_lt_of_le hi with rfl | hlt
        · exact ⟨e, ho⟩
        · exact hfail i hlt hi'
      · rcases hend with rfl | hok
        · exact Or.inl rfl
        · exact Or.inr hok
      · rw [loop, ho]
        dsimp only
        rw [if_neg (show k ≠ last by omega), hloop, timeline]

theorem retry_zero : retry pause outcome 0 = ⟨[], .error .assertion⟩ := rfl

theorem retry_eq {last : ℕ} (h : 1 ≤ last) :
    ∃ n, 1 ≤ n ∧ n ≤ last ∧ FailsUntil outcome 1 n ∧ (n = last ∨ ∃ a, outcome n = .ok a) ∧
      retry pause outcome last = ⟨timeline pause (n-1) 1, .ok (outcome n)⟩ := by
  obtain ⟨m, hm, hfail, hend, hloop⟩ := loop_eq pause outcome last (last-1) 1 (by omega)
  refine ⟨1+m, by omega, by omega, hfail, ?_, ?_⟩
  · rcases hend with rfl | hok
    · exact Or.inl (by omega)
    · exact Or.inr hok
  · rw [Nat.sub_add_cancel h] at hloop
    rw [retry, hloop, Nat.add_sub_cancel_left]

end Loop

end GravitalShare.Backoff
