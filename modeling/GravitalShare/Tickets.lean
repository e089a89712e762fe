import GravitalShare.FiniteTable
import Mathlib.Data.Nat.ModEq
import Mathlib.Data.List.Nodup
import Mathlib.Data.Finset.Dedup

/-! Tickets numbered without a bound whose numbers are cut down to finitely many codes, and
the table of the tickets in use, by their codes. -/
namespace GravitalShare

/-- The tickets that have been issued for a value and not been returned. -/
structure Ledger (V : Type) where
  next : ℕ
  live : List (ℕ × V)

namespace Ledger

variable {K V : Type} [DecidableEq K] {code : ℕ → K} {l : Ledger V} {t : Table K V}

def empty : Ledger V := ⟨0, []⟩

def issue (l : Ledger V) (v : V) : Ledger V := ⟨l.next+1, (l.next, v) :: l.live⟩

/-- Returns all tickets with a code. -/
def retire (code : ℕ → K) (l : Ledger V) (k : K) : Ledger V :=
  { l with live := l.live.filter fun e => code e.1 ≠ k }

theorem mem_retire {k : K} {e : ℕ × V} :
    e ∈ (l.retire code k).live ↔ e ∈ l.live ∧ code e.1 ≠ k := by
  simp only [retire, List.mem_filter, decide_eq_true_eq]

/-- The table has an entry exactly for the codes in use. -/
def Covers (code : ℕ → K) (l : Ledger V) (t : Table K V) : Prop :=
  ∀ k, k ∈ t ↔ ∃ e ∈ l.live, code e.1 = k

namespace Covers

omit [DecidableEq K] in
theorem empty : (Ledger.empty : Ledger V).Covers code (∅ : Table K V) := by
  intro k
  simp only [Ledger.empty, Finmap.notMem_empty, List.not_mem_nil, false_and, exists_false]

theorem issue (h : l.Covers code t) (v : V) :
    (l.issue v).Covers code (t.insert (code l.next) v) := by
  intro k
  rw [Finmap.mem_insert, h k, Ledger.issue, List.exists_mem_cons_iff, eq_comm]

theorem retire (h : l.Covers code t) (k : K) : (l.retire code k).Covers code (t.erase k) := by
  intro k'
  rw [Finmap.mem_erase, h k']
  constructor
  · rintro ⟨hne, e, he, rfl⟩
    exact ⟨e, mem_retire.mpr ⟨he, hne⟩, rfl⟩
  · rintro ⟨e, he, rfl⟩
    have hmem := mem_retire.mp he
    exact ⟨hmem.2, e, hmem.1, rfl⟩

end Covers

/-- No two tickets in use have the same code, and the table gives the value of each. -/
structure Shown (code : ℕ → K) (l : Ledger V) (t : Table K V) : Prop where
  covers : l.Covers code t
  nodup : (l.live.map fun e => code e.1).Nodup
  lookup : ∀ e ∈ l.live, t.lookup (code e.1) = some e.2

namespace Shown

theorem empty : (Ledger.empty : Ledger V).Shown code (∅ : Table K V) := by
  refine ⟨Covers.empty, List.nodup_nil, ?_⟩
  intro e he
  cases he

theorem card_keys (h : l.Shown code t) : t.keys.card = l.live.length := by
  have hkeys : t.keys = (l.live.map fun e => code e.1).toFinset := by
    ext k
    rw [Finmap.mem_keys, h.covers k, List.mem_toFinset, List.mem_map]
  rw [hkeys, List.toFinset_card_of_nodup h.nodup, List.length_map]

theorem issue (h : l.Shown code t) (hnew : code l.next ∉ t) (v : V) :
    (l.issue v).Shown code (t.insert (code l.next) v) := by
  have hfresh : ∀ e ∈ l.live, code e.1 ≠ code l.next := by
    intro e he heq
    exact hnew ((h.covers _).mpr ⟨e, he, heq⟩)
  refine ⟨h.covers.issue v, ?_, ?_⟩
  · apply List.nodup_cons.mpr
    refine ⟨?_, h.nodup⟩
    intro hmem
    obtain ⟨e, he, heq⟩ := List.mem_map.mp hmem
    exact hfresh e he heq
  · intro e he
    rcases List.mem_cons.mp he with rfl | he
    · exact Finmap.lookup_insert t
    · rw [Finmap.lookup_insert_of_ne t (hfresh e he)]
      exact h.lookup e he

theorem retire (h : l.Shown code t) (k : K) : (l.retire code k).Shown code (t.erase k) := by
  refine ⟨h.covers.retire k, ?_, ?_⟩
  · exact h.nodup.sublist (List.filter_sublist.map _)
  · intro e he
    have hmem := mem_retire.mp he
    rw [Finmap.lookup_erase_ne hmem.2]
    exact h.lookup e hmem.1

end Shown

/-- Every ticket in use is one of the last `N` that have been issued. -/
def Recent (N : ℕ) (l : Ledger V) : Prop := ∀ e ∈ l.live, e.1 < l.next ∧ l.next ≤ e.1+N

namespace Recent

variable {N : ℕ}

theorem empty : (Ledger.empty : Ledger V).Recent N := by
  intro e he
  cases he

theorem issue (h : l.Recent N) (hN : 0 < N) (hold : ∀ e ∈ l.live, e.1+N ≠ l.next) (v : V) :
    (l.issue v).Recent N := by
  intro e he
  simp only [Ledger.issue] at he ⊢
  rcases List.mem_cons.mp he with rfl | he
  · omega
  · have hbound := h e he
    have hne := hold e he
    omega

theorem retire (h : l.Recent N) (k : K) : (l.retire code k).Recent N :=
  fun e he => h e (mem_retire.mp he).1

omit [DecidableEq K] in
/-- With `N` codes used in turn the next one is free if the ticket `N` before is. -/
theorem code_free (h : l.Recent N) (hcode : ∀ m n, code m = code n ↔ m ≡ n [MOD N])
    (hold : ∀ e ∈ l.live, e.1+N ≠ l.next) (hcov : l.Covers code t) : code l.next ∉ t := by
  intro hmem
  obtain ⟨e, he, heq⟩ := (hcov _).mp hmem
  have hbound := h e he
  have hne := hold e he
  have hdvd : N ∣ l.next-e.1 := (Nat.modEq_iff_dvd' hbound.1.le).mp ((hcode _ _).mp heq)
  have hle := Nat.le_of_dvd (by omega) hdvd
  omega

end Recent

end Ledger

end GravitalShare
