import GravitalShare.FiniteTable
import Mathlib.Data.Finset.Dedup

/-! A limited number of seats, given to those who ask for one in the order in which they first
ask and never taken back, and a table with a value for each of the seated. -/
namespace GravitalShare

section Seats

variable {K : Type} [DecidableEq K]

/-- Whoever has a seat keeps it; a newcomer gets one while there are any. -/
def seat (n : ℕ) (seated : List K) (k : K) : List K :=
  if k ∈ seated ∨ n ≤ seated.length then seated else seated ++ [k]

/-- The first `n` different members of a list. -/
def seats (n : ℕ) (asked : List K) : List K := asked.foldl (seat n) []

variable {n : ℕ} {seated asked later : List K} {k k' : K}

theorem seats_snoc (n : ℕ) (asked : List K) (k : K) :
    seats n (asked ++ [k]) = seat n (seats n asked) k := by
  rw [seats, List.foldl_append]
  rfl

theorem seat_of_room (hk : k ∉ seated) (hn : seated.length < n) :
    seat n seated k = seated ++ [k] := if_neg fun h => h.elim hk (Nat.not_le.mpr hn)

theorem nodup_seat (h : seated.Nodup) (k : K) : (seat n seated k).Nodup := by
  unfold seat
  split_ifs with hk
  · exact h
  · apply List.nodup_append.mpr
    refine ⟨h, List.nodup_singleton k, ?_⟩
    intro a ha b hb
    rw [List.mem_singleton.mp hb]
    exact fun hab => hk (Or.inl (hab ▸ ha))

theorem nodup_seats (n : ℕ) (asked : List K) : (seats n asked).Nodup :=
  List.foldlRecOn asked (seat n) List.nodup_nil fun _ h k _ => nodup_seat h k

/-- When the last seat is taken nothing changes any more. -/
theorem seats_of_full (h : n ≤ (seats n asked).length) (later : List K) :
    seats n (asked ++ later) = seats n asked := by
  induction later using List.reverseRecOn with
  | nil => rw [List.append_nil]
  | append_singleton later k ih =>
    rw [← List.append_assoc, seats_snoc, ih]
    exact if_pos (Or.inr h)

end Seats

section Table

variable {K V : Type} [DecidableEq K] [DecidableEq V] {f : Table K V} {r : Table V K}

/-- The keys of the table are those with a seat. -/
def Seated (f : Table K V) (seated : List K) : Prop := ∀ k, f.lookup k ≠ none ↔ k ∈ seated

omit [DecidableEq V] in
theorem Seated.insert {seated : List K} (h : Seated f seated) (k : K) (v : V) :
    Seated (f.insert k v) (seated ++ [k]) := by
  intro k'
  rw [Table.lookup_insert_eq, List.mem_append, List.mem_singleton, ← h k']
  split_ifs with hk
  · exact iff_of_true (Option.some_ne_none v) (Or.inr hk)
  · exact (or_iff_left hk).symm

/-- The values are used up exactly if there are as many keys as values. -/
theorem MutuallyInverse.full_iff (h : MutuallyInverse f r) {values : Finset V} {seated : List K}
    (hv : ∀ v k, r.lookup v = some k → v ∈ values) (hnd : seated.Nodup) (hs : Seated f seated) :
    (∀ v ∈ values, r.lookup v ≠ none) ↔ values.card ≤ seated.length := by
  -- the values in use are as many as the keys
  have hcard : (values.filter fun v => r.lookup v ≠ none).card = seated.length := by
    have hval (k : K) (hk : k ∈ seated.toFinset) : ∃ v, f.lookup k = some v :=
      Option.ne_none_iff_exists'.mp ((hs k).mpr (List.mem_toFinset.mp hk))
    choose val hval using hval
    rw [← List.toFinset_card_of_nodup hnd]
    refine (Finset.card_bij val ?_ ?_ ?_).symm
    · intro k hk
      have hr := (h k _).mp (hval k hk)
      exact Finset.mem_filter.mpr ⟨hv _ k hr, hr ▸ Option.some_ne_none k⟩
    · intro k hk k' hk' heq
      exact h.key_unique (hval k hk) (heq ▸ hval k' hk')
    · intro v hmem
      obtain ⟨k, hk⟩ := Option.ne_none_iff_exists'.mp (Finset.mem_filter.mp hmem).2
      have hf := (h k v).mpr hk
      have hmem := List.mem_toFinset.mpr ((hs k).mp (hf ▸ Option.some_ne_none v))
      exact ⟨k, hmem, Option.some.inj ((hval k hmem).symm.trans hf)⟩
  rw [← hcard]
  constructor
  · intro hall
    rw [Finset.filter_true_of_mem hall]
  · intro hle v hmem
    have heq := Finset.eq_of_subset_of_card_le (Finset.filter_subset _ values) hle
    rw [← heq] at hmem
    exact (Finset.mem_filter.mp hmem).2

end Table

end GravitalShare
