import GravitalShare.UdpGwMux
import GravitalShare.Transition
import Mathlib.Data.Int.ModEq
import Mathlib.Data.List.Perm.Basic

/-! The multiplexer of udpgw, shared by threads. An allocation takes its identifier and enters it
into the table in two steps, and other calls may come between the two. -/
namespace GravitalShare.UdpGw

open UdpGwMux (idOf idOf_eq_iff)

/-- A call of `allocate_id` from the time on at which it has its identifier. The number of those
before it is not a part of the program. -/
structure Allocation where
  number : ℕ
  id : UInt32
  clientAddr : SocketAddr

/-- The multiplexer, the allocations that are not in the table yet, and those that are and have
not been released. -/
structure SharedMux where
  mux : UdpGwMux
  issued : ℕ
  taken : List Allocation
  held : List Allocation

inductive SharedAct where
  | fetchAdd (clientAddr : SocketAddr)
  | insert
  | release

/-- An identifier is released by whoever has got it, and once. -/
inductive SharedStep (x : SharedMux) : SharedAct → SharedMux → Prop
  | fetchAdd (clientAddr : SocketAddr) : SharedStep x (.fetchAdd clientAddr)
      { x with
        mux := { x.mux with nextId := x.mux.nextId+1 }
        issued := x.issued+1
        taken := ⟨x.issued, x.mux.nextId, clientAddr⟩ :: x.taken }
  | insert {before behind : List Allocation} {a : Allocation}
      (h : x.taken = before ++ a :: behind) : SharedStep x .insert
      { x with
        mux := { x.mux with associations := x.mux.associations.insert a.id a.clientAddr }
        taken := before ++ behind
        held := a :: x.held }
  | release {before behind : List Allocation} {a : Allocation}
      (h : x.held = before ++ a :: behind) : SharedStep x .release
      { x with mux := x.mux.release a.id, held := before ++ behind }

namespace SharedMux

variable {x y : SharedMux} {act : SharedAct} {tr : List (SharedMux × SharedAct)}

def new : SharedMux := ⟨.new, 0, [], []⟩

/-- The allocations that have an identifier. -/
def out (x : SharedMux) : List Allocation := x.taken ++ x.held

def Distinct (x : SharedMux) : Prop := (x.out.map Allocation.id).Nodup

/-- A call of `allocate_id` that no other comes between. -/
theorem allocateId_run (x : SharedMux) (clientAddr : SocketAddr) :
    ∃ tr y, Run SharedStep x tr y ∧ y.mux = (x.mux.allocateId clientAddr).2 :=
  ⟨_, _, (Run.single (.fetchAdd clientAddr)).snoc (@SharedStep.insert _ [] _ _ rfl), rfl⟩

section Steps

variable {before behind : List Allocation} {a : Allocation}

theorem out_insert (h : x.taken = before ++ a :: behind) :
    ((before ++ behind) ++ a :: x.held).Perm x.out := by
  have hfront : (a :: ((before ++ behind) ++ x.held)).Perm ((before ++ a :: behind) ++ x.held) :=
    List.perm_middle.symm.append_right x.held
  rw [out, h]
  exact List.perm_middle.trans hfront

theorem out_release (h : x.held = before ++ a :: behind) :
    (x.taken ++ (before ++ behind)).Sublist x.out := by
  rw [out, h]
  exact ((List.sublist_cons_self a behind).append_left before).append_left x.taken

/-- The identifiers are the numbers of the allocations, cut down to 32 bits. -/
structure Numbered (x : SharedMux) : Prop where
  next : x.mux.nextId = idOf x.issued
  ids : ∀ a ∈ x.out, a.id = idOf a.number
  old : ∀ a ∈ x.out, a.number < x.issued
  nodup : (x.out.map Allocation.number).Nodup

theorem Numbered.new : Numbered new := by
  refine ⟨rfl, ?_, ?_, List.nodup_nil⟩ <;> exact fun a ha => absurd ha List.not_mem_nil

/-- What a step takes away from the allocations does no harm. -/
theorem Numbered.shrink (h : Numbered x) (hnext : y.mux.nextId = x.mux.nextId)
    (hissued : y.issued = x.issued) (hsub : y.out.Subperm x.out) : Numbered y := by
  refine ⟨?_, ?_, ?_, ?_⟩
  · rw [hnext, hissued]
    exact h.next
  · exact fun a ha => h.ids a (hsub.subset ha)
  · rw [hissued]
    exact fun a ha => h.old a (hsub.subset ha)
  · obtain ⟨l, hperm, hl⟩ := hsub
    exact (hperm.map _).nodup_iff.mp (h.nodup.sublist (hl.map _))

theorem Numbered.step (h : Numbered x) (hs : SharedStep x act y) : Numbered y := by
  cases hs with
  | fetchAdd clientAddr =>
    refine ⟨?_, ?_, ?_, ?_⟩
    · calc
        x.mux.nextId+1 = idOf x.issued+1 := by rw [h.next]
        _ = idOf (x.issued+1) := (UInt32.ofNat_add _ 1).symm
    · exact List.forall_mem_cons.mpr ⟨h.next, h.ids⟩
    · exact List.forall_mem_cons.mpr
        ⟨Nat.lt_succ_self _, fun a ha => Nat.lt_succ_of_lt (h.old a ha)⟩
    · apply List.nodup_cons.mpr
      refine ⟨?_, h.nodup⟩
      intro hmem
      obtain ⟨a, ha, hnumber⟩ := List.mem_map.mp hmem
      exact absurd hnumber (h.old a ha).ne
  | insert ht => exact h.shrink rfl rfl (out_insert ht).subperm
  | release ht => exact h.shrink rfl rfl (out_release ht).subperm

/-- No allocation is as old as an identifier is wide, and the table has what is held. -/
structure Shown (x : SharedMux) : Prop where
  recent : ∀ a ∈ x.out, x.issued ≤ a.number+2^32
  lookup : ∀ id clientAddr, x.mux.lookup id = some clientAddr ↔
    ∃ a ∈ x.held, a.id = id ∧ a.clientAddr = clientAddr

theorem Shown.new : Shown new := by
  refine ⟨fun a ha => absurd ha List.not_mem_nil, ?_⟩
  intro id clientAddr
  constructor
  · intro h
    cases h
  · rintro ⟨a, ha, -⟩
    exact absurd ha List.not_mem_nil

/-- Two numbers that are less than the number of identifiers apart have different ones. -/
theorem Numbered.distinct (h : Numbered x) (hrecent : ∀ a ∈ x.out, x.issued ≤ a.number+2^32) :
    x.Distinct := by
  apply List.Nodup.map_on ?_ h.nodup.of_map
  intro a ha b hb hid
  rw [h.ids a ha, h.ids b hb, idOf_eq_iff] at hid
  have hnumber : a.number = b.number := by
    apply hid.eq_of_abs_lt
    have hold := h.old a ha
    have hold' := h.old b hb
    have hrec := hrecent a ha
    have hrec' := hrecent b hb
    rw [abs_lt]
    constructor <;> push_cast <;> omega
  exact List.inj_on_of_nodup_map h.nodup ha hb hnumber

theorem ids_apart (h : ((before ++ a :: behind).map Allocation.id).Nodup) :
    ∀ b ∈ before ++ behind, b.id ≠ a.id := by
  have hperm : ((before ++ a :: behind).map Allocation.id).Perm
      ((a :: (before ++ behind)).map Allocation.id) := List.perm_middle.map _
  have hcons := (List.nodup_cons.mp (hperm.nodup_iff.mp h)).1
  intro b hb he
  exact hcons (List.mem_map.mpr ⟨b, hb, he⟩)

/-- An allocation that takes the identifier of another. -/
def Clashes (x : SharedMux) (act : SharedAct) : Prop :=
  (∃ clientAddr, act = .fetchAdd clientAddr) ∧ ∃ a ∈ x.out, a.number+2^32 = x.issued

/-- The first `2^32` allocations never clash. -/
theorem not_clashes_of_lt (h : x.issued < 2^32) : ¬Clashes x act := by
  rintro ⟨-, a, -, hround⟩
  omega

theorem Shown.step (hn : Numbered x) (h : Shown x) (hc : ¬Clashes x act)
    (hs : SharedStep x act y) : Shown y := by
  have hdistinct := hn.distinct h.recent
  cases hs with
  | fetchAdd clientAddr =>
    refine ⟨?_, h.lookup⟩
    intro a ha
    dsimp only
    rcases List.mem_cons.mp ha with rfl | ha
    · dsimp only
      omega
    · have hrec := h.recent a ha
      have hne : a.number+2^32 ≠ x.issued := fun he => hc ⟨⟨_, rfl⟩, a, ha, he⟩
      omega
  | @insert before behind a ht =>
    have hout : x.out = before ++ a :: (behind ++ x.held) := by
      rw [out, ht, List.append_assoc]
      rfl
    rw [Distinct, hout] at hdistinct
    have hapart (b : Allocation) (hb : b ∈ x.held) : b.id ≠ a.id :=
      ids_apart hdistinct b (List.mem_append_right _ (List.mem_append_right _ hb))
    refine ⟨fun b hb => h.recent b ((out_insert ht).subset hb), ?_⟩
    intro id clientAddr
    rw [List.exists_mem_cons_iff]
    by_cases hid : id = a.id
    · rw [UdpGwMux.lookup, hid, Finmap.lookup_insert]
      constructor
      · intro he
        exact Or.inl ⟨rfl, Option.some.inj he⟩
      · rintro (⟨-, rfl⟩ | ⟨b, hb, hsame, -⟩)
        · rfl
        · exact absurd hsame (hapart b hb)
    · have hne : a.id ≠ id := fun he => hid he.symm
      rw [UdpGwMux.lookup, Finmap.lookup_insert_of_ne _ hid, ← UdpGwMux.lookup, h.lookup]
      constructor
      · exact Or.inr
      · rintro (⟨hsame, -⟩ | hheld)
        · exact absurd hsame hne
        · exact hheld
  | @release before behind a ht =>
    have hout : x.out = (x.taken ++ before) ++ a :: behind := by
      rw [out, ht, List.append_assoc]
    rw [Distinct, hout] at hdistinct
    have hapart (b : Allocation) (hb : b ∈ before ++ behind) : b.id ≠ a.id := by
      apply ids_apart hdistinct b
      rw [List.append_assoc]
      exact List.mem_append_right _ hb
    refine ⟨fun b hb => h.recent b ((out_release ht).subset hb), ?_⟩
    intro id clientAddr
    by_cases hid : id = a.id
    · rw [UdpGwMux.lookup, UdpGwMux.release, hid, Finmap.lookup_erase]
      constructor
      · intro he
        cases he
      · rintro ⟨b, hb, hsame, -⟩
        exact absurd hsame (hapart b hb)
    · rw [UdpGwMux.lookup, UdpGwMux.release, Finmap.lookup_erase_ne hid, ← UdpGwMux.lookup,
        h.lookup, ht]
      constructor
      · rintro ⟨b, hb, hsame, haddr⟩
        rcases List.mem_cons.mp (List.perm_middle.subset hb) with rfl | hb
        · exact absurd hsame.symm hid
        · exact ⟨b, hb, hsame, haddr⟩
      · rintro ⟨b, hb, hfound⟩
        exact ⟨b, List.perm_middle.symm.subset (List.mem_cons_of_mem _ hb), hfound⟩

theorem not_distinct_of_clashes (hn : Numbered x) (hc : Clashes x act)
    (hs : SharedStep x act y) : ¬y.Distinct := by
  obtain ⟨⟨clientAddr, rfl⟩, a, ha, hround⟩ := hc
  cases hs
  intro hdistinct
  apply (List.nodup_cons.mp hdistinct).1
  apply List.mem_map.mpr
  refine ⟨a, ha, ?_⟩
  calc
    a.id = idOf a.number := hn.ids a ha
    _ = idOf x.issued := by
      rw [idOf_eq_iff, ← hround]
      exact (Nat.add_mod_right a.number (2^32)).symm
    _ = x.mux.nextId := hn.next.symm

end Steps

section Reads

theorem Shown.lookup_held (h : Shown x) {a : Allocation} (ha : a ∈ x.held) :
    x.mux.lookup a.id = some a.clientAddr := (h.lookup _ _).mpr ⟨a, ha, rfl, rfl⟩

theorem Shown.lookup_taken (h : Shown x) (hdistinct : x.Distinct) {a : Allocation}
    (ha : a ∈ x.taken) : x.mux.lookup a.id = none := by
  rw [Option.eq_none_iff_forall_ne_some]
  intro clientAddr hfound
  obtain ⟨b, hb, hsame, -⟩ := (h.lookup _ _).mp hfound
  rw [Distinct, out, List.map_append] at hdistinct
  exact List.disjoint_of_nodup_append hdistinct (List.mem_map_of_mem ha)
    (hsame ▸ List.mem_map_of_mem hb)

theorem Shown.activeCount (h : Shown x) (hdistinct : x.Distinct) :
    x.mux.activeCount = x.held.length := by
  have hkeys : x.mux.associations.keys = (x.held.map Allocation.id).toFinset := by
    ext id
    rw [Finmap.mem_keys, Finmap.mem_iff, List.mem_toFinset, List.mem_map]
    constructor
    · rintro ⟨clientAddr, hfound⟩
      obtain ⟨a, ha, hid, -⟩ := (h.lookup _ _).mp hfound
      exact ⟨a, ha, hid⟩
    · rintro ⟨a, ha, rfl⟩
      exact ⟨a.clientAddr, h.lookup_held ha⟩
  have hnodup : (x.held.map Allocation.id).Nodup :=
    hdistinct.sublist ((List.sublist_append_right _ _).map _)
  rw [UdpGwMux.activeCount, hkeys, List.toFinset_card_of_nodup hnodup, List.length_map]

end Reads

section Runs

theorem run_shown (hrun : Run SharedStep new tr x) (hc : ∀ p ∈ tr, ¬Clashes p.1 p.2) :
    (Numbered x ∧ Shown x) ∧ ∀ p ∈ tr, p.1.Distinct := by
  apply hrun.history_of (fun x act => ¬Clashes x act)
    (fun tr x => (Numbered x ∧ Shown x) ∧ ∀ p ∈ tr, p.1.Distinct) ?_ ?_ hc
  · exact ⟨⟨Numbered.new, Shown.new⟩, fun p hp => absurd hp List.not_mem_nil⟩
  · rintro tr t act u ⟨⟨hn, hshown⟩, hbefore⟩ hclash hs
    refine ⟨⟨hn.step hs, hshown.step hn hclash hs⟩, ?_⟩
    rw [List.forall_mem_append, List.forall_mem_singleton]
    exact ⟨hbefore, hn.distinct hshown.recent⟩

theorem run_clashes (hrun : Run SharedStep new tr x) (hd : ∀ p ∈ tr, p.1.Distinct)
    (hx : x.Distinct) : ∀ p ∈ tr, ¬Clashes p.1 p.2 := by
  have hall : Numbered x ∧ ((∀ p ∈ tr, p.1.Distinct) → x.Distinct →
      ∀ p ∈ tr, ¬Clashes p.1 p.2) := by
    apply hrun.history fun tr x => Numbered x ∧ ((∀ p ∈ tr, p.1.Distinct) → x.Distinct →
      ∀ p ∈ tr, ¬Clashes p.1 p.2)
    · exact ⟨Numbered.new, fun _ _ p hp => absurd hp List.not_mem_nil⟩
    · rintro tr t act u ⟨hn, hbefore⟩ hs
      refine ⟨hn.step hs, ?_⟩
      intro hd hu
      rw [List.forall_mem_append, List.forall_mem_singleton] at hd ⊢
      exact ⟨hbefore hd.1 hd.2, fun hclash => not_distinct_of_clashes hn hclash hs hu⟩
  exact hall.2 hd hx

/-- In every interleaving the identifiers that are out are distinct all along exactly if no
allocation is made `2^32` after one that is still out. Then each holder finds its address, an
identifier that is not entered yet is not found, and `active_count` counts the holders. -/
theorem shared_ids_unique_iff (hrun : Run SharedStep new tr x) :
    ((∀ p ∈ tr, p.1.Distinct) ∧ x.Distinct ↔ ∀ p ∈ tr, ¬Clashes p.1 p.2) ∧
      ((∀ p ∈ tr, ¬Clashes p.1 p.2) →
        (∀ a ∈ x.held, x.mux.lookup a.id = some a.clientAddr) ∧
        (∀ a ∈ x.taken, x.mux.lookup a.id = none) ∧
        x.mux.activeCount = x.held.length) := by
  refine ⟨⟨fun h => run_clashes hrun h.1 h.2, ?_⟩, ?_⟩
  · intro hc
    obtain ⟨⟨hn, hshown⟩, hbefore⟩ := run_shown hrun hc
    exact ⟨hbefore, hn.distinct hshown.recent⟩
  · intro hc
    obtain ⟨⟨hn, hshown⟩, -⟩ := run_shown hrun hc
    have hdistinct := hn.distinct hshown.recent
    exact ⟨fun a ha => hshown.lookup_held ha, fun a ha => hshown.lookup_taken hdistinct ha,
      hshown.activeCount hdistinct⟩

/-- Two threads take an identifier each, and the second is the first to enter its own. -/
theorem second_enters_first : ∃ tr x, Run SharedStep new tr x ∧
    x.mux.lookup 2 = some (.v4 ⟨10, 0, 0, 3⟩ 6000) ∧ x.mux.lookup 1 = none ∧
    x.mux.activeCount = 1 := by
  have hfirst : SharedStep new (.fetchAdd (.v4 ⟨10, 0, 0, 2⟩ 5000)) _ := .fetchAdd _
  have hrun := ((Run.single hfirst).snoc (.fetchAdd (.v4 ⟨10, 0, 0, 3⟩ 6000))).snoc
    (@SharedStep.insert _ [] _ _ rfl)
  obtain ⟨-, hreads⟩ := shared_ids_unique_iff hrun
  obtain ⟨hheld, htaken, hcount⟩ := hreads (by
    intro p hp
    apply not_clashes_of_lt
    simp only [List.mem_append, List.mem_singleton] at hp
    rcases hp with (rfl | rfl) | rfl <;> decide)
  exact ⟨_, _, hrun, hheld _ List.mem_cons_self, htaken _ List.mem_cons_self, hcount⟩

end Runs

end SharedMux

end GravitalShare.UdpGw
