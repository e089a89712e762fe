import Mathlib.Order.Lattice
import Mathlib.Tactic.Common

/-! Association lists that are kept in the order of their keys. -/
namespace GravitalShare.SortedAssoc

variable {K V : Type}

theorem lookup_cons [BEq K] [LawfulBEq K] [DecidableEq K] (key : K) (f : K × V)
    (l : List (K × V)) :
    (f :: l).lookup key = if key = f.1 then some f.2 else l.lookup key := by
  rw [List.lookup_cons]
  split_ifs with h
  · rw [beq_iff_eq.mpr h]
  · rw [beq_eq_false_iff_ne.mpr h]

variable [LinearOrder K]

/-- The value takes the place of the one that the key had before. -/
def insert (key : K) (value : V) : List (K × V) → List (K × V)
  | [] => [(key, value)]
  | f :: rest =>
    if key = f.1 then (key, value) :: rest
    else if key < f.1 then (key, value) :: f :: rest
    else f :: insert key value rest

theorem lookup_insert [BEq K] [LawfulBEq K] (key key' : K) (value : V) (l : List (K × V)) :
    (insert key' value l).lookup key = if key = key' then some value else l.lookup key := by
  induction l with
  | nil => exact lookup_cons key (key', value) []
  | cons f rest ih =>
    rw [insert]
    by_cases hsame : key' = f.1
    · rw [if_pos hsame, lookup_cons, lookup_cons, hsame]
      split_ifs <;> rfl
    · by_cases hbefore : key' < f.1
      · rw [if_neg hsame, if_pos hbefore, lookup_cons]
      · rw [if_neg hsame, if_neg hbefore, lookup_cons, ih, lookup_cons]
        by_cases hkey : key = f.1
        · rw [if_pos hkey, if_neg (fun h => hsame (h.symm.trans hkey)), if_pos hkey]
        · rw [if_neg hkey, if_neg hkey]

theorem mem_insert {key : K} {value : V} {l : List (K × V)} {f : K × V}
    (h : f ∈ insert key value l) : f.1 = key ∨ f ∈ l := by
  induction l with
  | nil => exact Or.inl (congrArg Prod.fst (List.mem_singleton.mp h))
  | cons g rest ih =>
    rw [insert] at h
    split_ifs at h with hsame hbefore
    · rcases List.mem_cons.mp h with rfl | h
      · exact Or.inl rfl
      · exact Or.inr (List.mem_cons_of_mem _ h)
    · rcases List.mem_cons.mp h with rfl | h
      · exact Or.inl rfl
      · exact Or.inr h
    · rcases List.mem_cons.mp h with rfl | h
      · exact Or.inr List.mem_cons_self
      · exact (ih h).imp id (List.mem_cons_of_mem _)

/-- The keys are in order, and so there is one of each. -/
def Sorted (l : List (K × V)) : Prop := l.Pairwise fun f g => f.1 < g.1

theorem Sorted.insert {l : List (K × V)} (h : Sorted l) (key : K) (value : V) :
    Sorted (insert key value l) := by
  induction l with
  | nil => exact List.pairwise_singleton _ _
  | cons f rest ih =>
    obtain ⟨hfirst, hrest⟩ := List.pairwise_cons.mp h
    rw [SortedAssoc.insert]
    split_ifs with hsame hbefore
    · exact List.pairwise_cons.mpr ⟨fun g hg => hsame ▸ hfirst g hg, hrest⟩
    · refine List.pairwise_cons.mpr ⟨?_, h⟩
      intro g hg
      rcases List.mem_cons.mp hg with rfl | hg
      · exact hbefore
      · exact lt_trans hbefore (hfirst g hg)
    · refine List.pairwise_cons.mpr ⟨?_, ih hrest⟩
      intro g hg
      rcases mem_insert hg with hg | hg
      · rw [hg]
        exact lt_of_le_of_ne (not_lt.mp hbefore) (Ne.symm hsame)
      · exact hfirst g hg

end GravitalShare.SortedAssoc
