import GravitalShare.Backoff
import GravitalShare.SocksProto

/-! `SocksClient::connect_with_retry`. The configured bound on the back-off is never read, and a
call that is allowed no attempt at all runs into the `unreachable!()` behind the loop. -/
namespace GravitalShare.Socks

open Backoff

structure ClientConfig where
  proxyAddr : SocketAddr
  maxBackoffMs : UInt64

/-- `SocksClient::backoff_delay`, in milliseconds. -/
def backoffDelay (attempt : UInt32) : ℕ := delay 250 30000 attempt.toNat

section Retry

variable {σ : Type} (connect : ClientConfig → AddrSpec → UInt16 → ℕ → Except SocksError σ)

/-- The attempts and the sleeps of a call and what it returns, if the `n`-th attempt to connect
comes out as `connect` has it. -/
def connectWithRetry (config : ClientConfig) (target : AddrSpec) (port : UInt16)
    (maxAttempts : UInt32) : Trace SocksError σ :=
  retry (fun attempt => backoffDelay (UInt32.ofNat attempt)) (connect config target port)
    maxAttempts.toNat

end Retry

/-- What is expected of a call that may make `last` attempts and may sleep `cap` milliseconds
at a time. -/
structure Bounded {σ : Type} (last cap : ℕ) (outcome : ℕ → Except SocksError σ)
    (t : Trace SocksError σ) : Prop where
  returns : t.result.Returns
  attempts_le : (attempts t.log).length ≤ last
  firstSuccess : ∀ n s, 1 ≤ n → n ≤ last → FailsUntil outcome 1 n → outcome n = .ok s →
    t.result = .ok (.ok s) ∧ attempts t.log = List.range' 1 n
  lastError : ∀ e, FailsUntil outcome 1 (last+1) → outcome last = .error e →
    t.result = .ok (.error e)
  between : SleepsBetween t.log
  capped : ∀ ms ∈ sleeps t.log, ms ≤ cap
  growing : (sleeps t.log).Pairwise (· ≤ ·)

theorem backoffDelay_mono {m n : UInt32} (h : m ≤ n) : backoffDelay m ≤ backoffDelay n :=
  delay_mono (by decide) (by decide) (UInt32.le_iff_toNat_le.mp h)

section Bounds

variable {σ : Type} {outcome : ℕ → Except SocksError σ} {last cap : ℕ} {pause : ℕ → ℕ}

/-- The attempt that a call ends with is the only one that can end it. -/
theorem ends_at {n n' : ℕ} (hn : 1 ≤ n) (hfail : FailsUntil outcome 1 n)
    (hend : n = last ∨ ∃ s, outcome n = .ok s) (hn' : 1 ≤ n') (hle : n' ≤ last)
    (hfail' : FailsUntil outcome 1 n') {s : σ} (hs : outcome n' = .ok s) : n = n' := by
  rcases Nat.lt_trichotomy n n' with hlt | heq | hgt
  · obtain ⟨e, he⟩ := hfail' n hn hlt
    rcases hend with rfl | ⟨s', hs'⟩
    · omega
    · cases he.symm.trans hs'
  · exact heq
  · obtain ⟨e, he⟩ := hfail n' hn' hgt
    cases he.symm.trans hs

/-- Only the cap can be exceeded once there is an attempt to make. -/
theorem retry_bounded_iff (hmono : ∀ m n, m ≤ n → n ≤ last → pause m ≤ pause n) (h : 1 ≤ last) :
    Bounded last cap outcome (retry pause outcome last) ↔
      ∀ n, 1 ≤ n → n < last → FailsUntil outcome 1 (n+1) → pause n ≤ cap := by
  obtain ⟨n, hn, hle, hfail, hend, hretry⟩ := retry_eq pause outcome h
  rw [hretry]
  constructor
  · intro hb m hm hlt hm'
    -- an attempt that failed before the last one was slept on
    have hmn : m < n := by
      by_contra hge
      obtain ⟨e, he⟩ := hm' n hn (by omega)
      rcases hend with rfl | ⟨s, hs⟩
      · omega
      · cases he.symm.trans hs
    apply hb.capped
    rw [sleeps_timeline]
    apply List.mem_map_of_mem
    rw [List.mem_range'_1]
    omega
  · intro hcap
    refine ⟨⟨_, rfl⟩, ?_, ?_, ?_, timeline_sleepsBetween pause _ _, ?_, ?_⟩
    · rw [attempts_timeline, List.length_range']
      omega
    · intro n' s hn' hle' hfail' hs
      obtain rfl := ends_at hn hfail hend hn' hle' hfail' hs
      rw [attempts_timeline, Nat.sub_add_cancel hn]
      exact ⟨congrArg Except.ok hs, rfl⟩
    · intro e hall he
      have hlast : n = last := by
        rcases hend with heq | ⟨s, hs⟩
        · exact heq
        · obtain ⟨e', he'⟩ := hall n hn (by omega)
          cases he'.symm.trans hs
      rw [hlast]
      exact congrArg Except.ok he
    · intro ms hms
      rw [sleeps_timeline] at hms
      obtain ⟨m, hm, rfl⟩ := List.mem_map.mp hms
      rw [List.mem_range'_1] at hm
      apply hcap m (by omega) (by omega)
      exact fun i hi hi' => hfail i hi (by omega)
    · rw [sleeps_timeline, List.pairwise_map]
      apply List.Pairwise.imp_of_mem _ (List.pairwise_lt_range' 1 Nat.one_pos)
      intro a b ha hb hab
      rw [List.mem_range'_1] at hb
      exact hmono a b (le_of_lt hab) (by omega)

end Bounds

theorem pauses_mono (last : UInt32) (m n : ℕ) (h : m ≤ n) (hn : n ≤ last.toNat) :
    backoffDelay (UInt32.ofNat m) ≤ backoffDelay (UInt32.ofNat n) := by
  have hlast := last.toNat_lt
  apply backoffDelay_mono
  rw [UInt32.le_iff_toNat_le, UInt32.toNat_ofNat', UInt32.toNat_ofNat',
    Nat.mod_eq_of_lt (by omega), Nat.mod_eq_of_lt (by omega)]
  exact h

theorem backoffDelay_eq {n : UInt32} (h : 1 ≤ n.toNat) :
    backoffDelay n = min (250*2^(n.toNat-1)) 30000 := by
  rw [backoffDelay, delay_eq (by decide) (by decide), max_eq_left h]

/-- A call is total and bounded exactly if it may make an attempt and the configured bound is not
below `min (250*2^(n-1)) 30000` for any `n` such that the first `n` attempts fail and another one
follows. -/
theorem connectWithRetry_bounded_iff {σ : Type}
    (connect : ClientConfig → AddrSpec → UInt16 → ℕ → Except SocksError σ) (config : ClientConfig)
    (target : AddrSpec) (port : UInt16) (maxAttempts : UInt32) :
    Bounded maxAttempts.toNat config.maxBackoffMs.toNat (connect config target port)
        (connectWithRetry connect config target port maxAttempts) ↔
      1 ≤ maxAttempts ∧ ∀ n : UInt32, 1 ≤ n → n < maxAttempts →
        FailsUntil (connect config target port) 1 (n.toNat+1) →
        min (250*2^(n.toNat-1)) 30000 ≤ config.maxBackoffMs.toNat := by
  have hone : (1 : UInt32).toNat = 1 := rfl
  simp only [UInt32.le_iff_toNat_le, UInt32.lt_iff_toNat_lt, hone]
  rcases Nat.lt_or_ge maxAttempts.toNat 1 with hz | hpos
  · -- the loop has no turn, and the call panics
    rw [connectWithRetry, Nat.lt_one_iff.mp hz, retry_zero]
    refine iff_of_false (fun hb => ?_) (fun h => absurd h.1 (by decide))
    exact Exec.not_returns_error _ hb.returns
  · rw [and_iff_right hpos, connectWithRetry, retry_bounded_iff (pauses_mono maxAttempts) hpos]
    constructor
    · intro h n hn hlt hfail
      have hcap := h n.toNat hn hlt hfail
      rwa [UInt32.ofNat_toNat, backoffDelay_eq hn] at hcap
    · intro h n hn hlt hfail
      have hlast := maxAttempts.toNat_lt
      have hto : (UInt32.ofNat n).toNat = n := by
        rw [UInt32.toNat_ofNat', Nat.mod_eq_of_lt (by omega)]
      rw [backoffDelay_eq (by rwa [hto])]
      exact h (UInt32.ofNat n) (by rwa [hto]) (by rwa [hto]) (by rwa [hto])

def exampleConfig : ClientConfig := ⟨.v4 ⟨192, 168, 43, 1⟩ 1080, 1000⟩

/-- A proxy that refuses the first `n` connections. -/
def refusing (n : ℕ) (_ : ClientConfig) (_ : AddrSpec) (_ : UInt16) (attempt : ℕ) :
    Except SocksError Unit :=
  if attempt ≤ n then .error (.io .connectionRefused) else .ok ()

/-- With a bound of one second, the fourth failure is slept on for two; and a call with no attempts
to make does not return. -/
theorem retry_unbounded :
    sleeps (connectWithRetry (refusing 4) exampleConfig (.ipv4 ⟨1, 1, 1, 1⟩) 443 5).log =
      [250, 500, 1000, 2000] ∧
    ¬Bounded 5 1000 (refusing 4 exampleConfig (.ipv4 ⟨1, 1, 1, 1⟩) 443)
      (connectWithRetry (refusing 4) exampleConfig (.ipv4 ⟨1, 1, 1, 1⟩) 443 5) ∧
    ¬Bounded 0 1000 (refusing 0 exampleConfig (.ipv4 ⟨1, 1, 1, 1⟩) 443)
      (connectWithRetry (refusing 0) exampleConfig (.ipv4 ⟨1, 1, 1, 1⟩) 443 0) := by
  have hsleeps : sleeps (connectWithRetry (refusing 4) exampleConfig
      (.ipv4 ⟨1, 1, 1, 1⟩) 443 5).log = [250, 500, 1000, 2000] := by
    decide
  refine ⟨hsleeps, fun hb => ?_, fun hb => Exec.not_returns_error _ hb.returns⟩
  have hcap := hb.capped 2000 (by rw [hsleeps]; decide)
  omega

end GravitalShare.Socks
