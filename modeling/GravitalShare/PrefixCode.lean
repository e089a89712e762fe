import Mathlib.Data.List.Infix
import Mathlib.Tactic.Common

/-! Codes whose words can be told apart while they are being read: a decoder that finds the
first word of a stream, whatever follows it. -/
namespace GravitalShare.PrefixCode

variable {α β : Type} {enc : α → List β} {dec : List β → Option α} {S : α → Prop}

/-- The decoder finds every word of `S` at the front of a stream, and finds no others. -/
structure Reads (enc : α → List β) (dec : List β → Option α) (S : α → Prop) : Prop where
  front : ∀ a, S a → ∀ rest, dec (enc a ++ rest) = some a
  sound : ∀ b a, dec b = some a → S a ∧ (enc a).length ≤ b.length
  extend : ∀ b a, dec b = some a → ∀ rest, dec (b ++ rest) = some a

/-- No word is a strict part of another one's beginning. -/
theorem Reads.strict_prefix (h : Reads enc dec S) {a : α} (ha : S a) {p : List β}
    (hp : p <+: enc a) (hne : p ≠ enc a) : dec p = none := by
  obtain ⟨rest, hrest⟩ := hp
  cases hd : dec p with
  | none => rfl
  | some a' =>
    have hsame : a' = a := by
      have h1 := h.extend p a' hd rest
      have h2 := h.front a ha []
      rw [hrest] at h1
      rw [List.append_nil] at h2
      exact Option.some.inj (h1.symm.trans h2)
    have hlen := (h.sound p a' hd).2
    rw [hsame, ← hrest, List.length_append] at hlen
    have hnil : rest = [] := List.length_eq_zero_iff.mp (by omega)
    rw [hnil, List.append_nil] at hrest
    exact absurd hrest hne

/-- Take words off the front of a stream until it is empty, at most `fuel` of them. -/
def decodeAll (enc : α → List β) (dec : List β → Option α) : ℕ → List β → Option (List α)
  | _, [] => some []
  | 0, _ :: _ => none
  | fuel+1, x :: b => do
    let a ← dec (x :: b)
    let as ← decodeAll enc dec fuel ((x :: b).drop (enc a).length)
    return a :: as

theorem Reads.decodeAll_flatMap (h : Reads enc dec S) (hne : ∀ a, S a → enc a ≠ []) {fuel : ℕ}
    {as : List α} (hS : ∀ a ∈ as, S a) (hfuel : as.length ≤ fuel) :
    decodeAll enc dec fuel (as.flatMap enc) = some as := by
  induction as generalizing fuel with
  | nil => cases fuel <;> rfl
  | cons a as ih =>
    obtain ⟨fuel, rfl⟩ : ∃ n, fuel = n+1 := ⟨fuel-1, by rw [List.length_cons] at hfuel; omega⟩
    have ha : S a := hS a List.mem_cons_self
    rw [List.flatMap_cons]
    obtain ⟨x, b, hx⟩ : ∃ x b, enc a ++ as.flatMap enc = x :: b := by
      apply List.exists_cons_of_ne_nil
      intro hnil
      exact hne a ha (List.append_eq_nil_iff.mp hnil).1
    have hrest : (x :: b).drop (enc a).length = as.flatMap enc := by rw [← hx, List.drop_left]
    have htail := ih (fun a' h' => hS a' (List.mem_cons_of_mem _ h')) (Nat.le_of_succ_le_succ hfuel)
    have hfront := h.front a ha (as.flatMap enc)
    rw [hx] at hfront ⊢
    simp only [decodeAll, hfront, Option.bind_eq_bind, Option.bind_some, hrest, htail]
    rfl

end GravitalShare.PrefixCode
