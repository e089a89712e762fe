import Mathlib.Data.Finmap
import Mathlib.Data.Finset.Card
import Mathlib.Tactic.Common

/-! Hash maps as finite maps without an order, and pairs of them that are kept as
inverses of each other. -/
namespace GravitalShare

abbrev Table (K V : Type) := Finmap (fun _ : K => V)

namespace Table

variable {K V : Type} [DecidableEq K]

/-- `map.values().any(p)` -/
def anyValue (p : V → Bool) (m : Table K V) : Bool :=
  decide (∃ k ∈ m.keys, (m.lookup k).any p = true)

theorem anyValue_iff {p : V → Bool} {m : Table K V} :
    m.anyValue p = true ↔ ∃ k v, m.lookup k = some v ∧ p v = true := by
  simp only [anyValue, decide_eq_true_eq]
  constructor
  · rintro ⟨k, _, hk⟩
    obtain ⟨v, hv, hp⟩ := Option.any_eq_true _ _ |>.mp hk
    exact ⟨k, v, hv, hp⟩
  · rintro ⟨k, v, hv, hp⟩
    refine ⟨k, Finmap.mem_keys.mpr (Finmap.mem_of_lookup_eq_some hv), ?_⟩
    rw [hv]
    exact hp

theorem lookup_insert_eq (m : Table K V) (k k' : K) (v : V) :
    (m.insert k v).lookup k' = if k' = k then some v else m.lookup k' := by
  split_ifs with h
  · rw [h, Finmap.lookup_insert]
  · rw [Finmap.lookup_insert_of_ne _ h]

theorem lookup_erase_eq (m : Table K V) (k k' : K) :
    (m.erase k).lookup k' = if k' = k then none else m.lookup k' := by
  split_ifs with h
  · rw [h, Finmap.lookup_erase]
  · rw [Finmap.lookup_erase_ne h]

end Table

section Inverse

variable {K V : Type} [DecidableEq K] [DecidableEq V]

def MutuallyInverse (f : Table K V) (r : Table V K) : Prop :=
  ∀ k v, f.lookup k = some v ↔ r.lookup v = some k

namespace MutuallyInverse

variable {f : Table K V} {r : Table V K}

theorem empty : MutuallyInverse (∅ : Table K V) (∅ : Table V K) := by
  intro k v
  simp only [Finmap.lookup_empty, reduceCtorEq]

/-- Adding a new key under a value that is not in use. -/
theorem insert (h : MutuallyInverse f r) {k : K} {v : V} (hk : f.lookup k = none)
    (hv : r.lookup v = none) : MutuallyInverse (f.insert k v) (r.insert v k) := by
  intro k' v'
  rw [Table.lookup_insert_eq, Table.lookup_insert_eq]
  by_cases hkk : k' = k
  · by_cases hvv : v' = v
    · simp only [hkk, hvv, ↓reduceIte]
    · have hn : r.lookup v' ≠ some k := fun hr => by
        rw [(h k v').mpr hr] at hk
        exact Option.some_ne_none _ hk
      simp only [hkk, hvv, ↓reduceIte, Option.some.injEq, hn, iff_false]
      exact fun he => hvv he.symm
  · by_cases hvv : v' = v
    · have hn : f.lookup k' ≠ some v := fun hf => by
        rw [(h k' v).mp hf] at hv
        exact Option.some_ne_none _ hv
      simp only [hkk, hvv, ↓reduceIte, Option.some.injEq, hn, false_iff]
      exact fun he => hkk he.symm
    · simp only [hkk, hvv, ↓reduceIte]
      exact h k' v'

/-- Removing a value together with the key that holds it. -/
theorem erase (h : MutuallyInverse f r) {k : K} {v : V} (hr : r.lookup v = some k) :
    MutuallyInverse (f.erase k) (r.erase v) := by
  have hf : f.lookup k = some v := (h k v).mpr hr
  intro k' v'
  rw [Table.lookup_erase_eq, Table.lookup_erase_eq]
  by_cases hkk : k' = k
  · by_cases hvv : v' = v
    · simp only [hkk, hvv, ↓reduceIte, reduceCtorEq]
    · simp only [hkk, hvv, ↓reduceIte, reduceCtorEq, false_iff]
      intro hr'
      rw [(h k v').mpr hr'] at hf
      exact hvv (Option.some.inj hf)
  · by_cases hvv : v' = v
    · simp only [hkk, hvv, ↓reduceIte, reduceCtorEq, iff_false]
      intro hf'
      rw [(h k' v).mp hf'] at hr
      exact hkk (Option.some.inj hr)
    · simp only [hkk, hvv, ↓reduceIte]
      exact h k' v'

theorem key_unique (h : MutuallyInverse f r) {k k' : K} {v : V} (hk : f.lookup k = some v)
    (hk' : f.lookup k' = some v) : k = k' := by
  rw [h k v] at hk
  rw [h k' v, hk] at hk'
  exact Option.some.inj hk'

end MutuallyInverse

end Inverse

end GravitalShare
