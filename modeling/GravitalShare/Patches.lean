import GravitalShare.Machine

/-! A buffer that is filled in field by field, by stores into windows that do not overlap. -/
namespace GravitalShare

-- an offset and the bytes to store there
abbrev Patch := ℕ × Bytes

/-- `buf[off..off + src.len()].copy_from_slice(src)` for one field after the other. -/
def copyAll (b : Bytes) : List Patch → Exec Bytes
  | [] => .ok b
  | (off, src) :: rest => do
    let b ← copyAt b off src
    copyAll b rest

def patched (b : Bytes) : List Patch → Bytes
  | [] => b
  | (off, src) :: rest => patched (writeAt b off src) rest

namespace Patch

def Fits (n : ℕ) (p : Patch) : Prop := p.1+p.2.length ≤ n

def Before (p q : Patch) : Prop := p.1+p.2.length ≤ q.1

end Patch

section

variable {ps : List Patch}

/-- A store does not change what fits. -/
theorem fits_after {b : Bytes} {p : Patch} (h : ∀ q ∈ p :: ps, Patch.Fits b.length q) :
    ∀ q ∈ ps, Patch.Fits (writeAt b p.1 p.2).length q := by
  have hp : p.1+p.2.length ≤ b.length := h p List.mem_cons_self
  rw [length_writeAt hp]
  exact fun q hq => h q (List.mem_cons_of_mem _ hq)

theorem copyAll_eq {b : Bytes} (h : ∀ p ∈ ps, Patch.Fits b.length p) :
    copyAll b ps = .ok (patched b ps) := by
  induction ps generalizing b with
  | nil => rfl
  | cons p rest ih =>
    have hp : p.1+p.2.length ≤ b.length := h p List.mem_cons_self
    rw [copyAll, copyAt_eq hp, Exec.ok_bind, ih (fits_after h)]
    rfl

theorem length_patched {b : Bytes} (h : ∀ p ∈ ps, Patch.Fits b.length p) :
    (patched b ps).length = b.length := by
  induction ps generalizing b with
  | nil => rfl
  | cons p rest ih =>
    have hp : p.1+p.2.length ≤ b.length := h p List.mem_cons_self
    exact (ih (fits_after h)).trans (length_writeAt hp)

/-- Stores that all go through leave a buffer of the same size. -/
theorem length_of_copyAll {b c : Bytes} (h : copyAll b ps = .ok c) : c.length = b.length := by
  induction ps generalizing b with
  | nil =>
    cases h
    rfl
  | cons p rest ih =>
    obtain ⟨b', hb', h⟩ := Exec.bind_eq_ok.mp h
    obtain ⟨hfit, rfl⟩ := copyAt_ok hb'
    exact (ih h).trans (length_writeAt hfit)

theorem patched_append (b : Bytes) (qs : List Patch) :
    patched b (ps ++ qs) = patched (patched b ps) qs := by
  induction ps generalizing b with
  | nil => rfl
  | cons p rest ih => exact ih _

theorem byteAt_patched_outside {b : Bytes} (h : ∀ p ∈ ps, Patch.Fits b.length p) {i : ℕ}
    (hi : ∀ p ∈ ps, i < p.1 ∨ p.1+p.2.length ≤ i) : byteAt (patched b ps) i = byteAt b i := by
  induction ps generalizing b with
  | nil => rfl
  | cons p rest ih =>
    have hp : p.1+p.2.length ≤ b.length := h p List.mem_cons_self
    have hrest (q : Patch) (hq : q ∈ rest) := hi q (List.mem_cons_of_mem _ hq)
    calc
      _ = byteAt (writeAt b p.1 p.2) i := ih (fits_after h) hrest
      _ = byteAt b i := byteAt_writeAt_outside hp (hi p List.mem_cons_self)

/-- Every field can be read back: no later store reaches into its window. -/
theorem byteAt_patched {b : Bytes} (h : ∀ p ∈ ps, Patch.Fits b.length p)
    (hd : ps.Pairwise Patch.Before) {p : Patch} (hp : p ∈ ps) {j : ℕ} (hj : j < p.2.length) :
    byteAt (patched b ps) (p.1+j) = byteAt p.2 j := by
  induction ps generalizing b with
  | nil => cases hp
  | cons q rest ih =>
    have hq : q.1+q.2.length ≤ b.length := h q List.mem_cons_self
    obtain ⟨hfirst, hlater⟩ := List.pairwise_cons.mp hd
    rcases List.mem_cons.mp hp with rfl | hmem
    · have hout : byteAt (patched (writeAt b p.1 p.2) rest) (p.1+j) =
          byteAt (writeAt b p.1 p.2) (p.1+j) := by
        apply byteAt_patched_outside (fits_after h)
        intro r hr
        have hbefore : p.1+p.2.length ≤ r.1 := hfirst r hr
        omega
      refine hout.trans ?_
      rw [byteAt_writeAt hq, if_pos (by omega), Nat.add_sub_cancel_left]
    · exact ih (fits_after h) hlater hmem

end

end GravitalShare
