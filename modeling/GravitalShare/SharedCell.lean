import GravitalShare.Transition

/-! Concurrent calls on a shared cell that read it, decide on a new value, write that value
and then tell an observer, with the cell unlocked in between. -/
namespace GravitalShare.SharedCell

/-- How far a call with event `e` has got. -/
inductive CallState (σ ε ρ : Type) where
  | idle
  | invoked (e : ε)
  | loaded (e : ε) (seen next : σ)
  | stored (e : ε) (next : σ)
  | done (e : ε) (result : Except ρ Unit)

/-- `written` and `delivered` record the values that went into the cell and to the
observer, each with the call it came from. -/
structure Cell (σ ε ρ : Type) where
  value : σ
  calls : ℕ → CallState σ ε ρ
  written : List (ℕ × σ)
  delivered : List (ℕ × σ)

inductive Act (ε : Type) where
  | invoke (i : ℕ) (e : ε)
  | read (i : ℕ)
  | write (i : ℕ)
  | notify (i : ℕ)

def Act.isInvoke {ε : Type} : Act ε → Bool
  | .invoke _ _ => true
  | _ => false

variable {σ ε ρ : Type}

def Cell.init (s : σ) : Cell σ ε ρ := ⟨s, fun _ => .idle, [], []⟩

def Cell.setCall (d : Cell σ ε ρ) (i : ℕ) (c : CallState σ ε ρ) : Cell σ ε ρ :=
  { d with calls := Function.update d.calls i c }

theorem calls_cases {d d' : Cell σ ε ρ} {i : ℕ} {c : CallState σ ε ρ}
    (h : d'.calls = Function.update d.calls i c) (j : ℕ) :
    j = i ∧ d'.calls j = c ∨ d'.calls j = d.calls j := by
  rcases eq_or_ne j i with rfl | hj
  · exact Or.inl ⟨rfl, by rw [h, Function.update_self]⟩
  · exact Or.inr (by rw [h, Function.update_of_ne hj])

variable (δ : σ → ε → Except ρ σ)

/-- A call that runs alone. -/
def alone (s : σ) (e : ε) : Except ρ Unit × σ :=
  match δ s e with
  | .error err => (.error err, s)
  | .ok next => (.ok (), next)

/-- The results of calls made one after the other, and the value they leave. -/
def sequential (s : σ) : List (ℕ × ε) → List (ℕ × ε × Except ρ Unit) × σ
  | [] => ([], s)
  | (i, e) :: rest =>
    let (results, s') := sequential (alone δ s e).2 rest
    ((i, e, (alone δ s e).1) :: results, s')

theorem sequential_snoc (s : σ) (calls : List (ℕ × ε)) (i : ℕ) (e : ε) :
    sequential δ s (calls ++ [(i, e)]) =
      ((sequential δ s calls).1 ++ [(i, e, (alone δ (sequential δ s calls).2 e).1)],
        (alone δ (sequential δ s calls).2 e).2) := by
  induction calls generalizing s with
  | nil => rfl
  | cons call rest ih => simp only [List.cons_append, sequential, ih]

theorem sequential_ids (s : σ) (calls : List (ℕ × ε)) :
    (sequential δ s calls).1.map Prod.fst = calls.map Prod.fst := by
  induction calls generalizing s with
  | nil => rfl
  | cons call rest ih => simp only [sequential, List.map_cons, ih]

/-- The calls of `order`, made one after the other, have the results of the calls in `d`
and leave its value. -/
structure Linearized (s : σ) (order : List (ℕ × ε)) (d : Cell σ ε ρ) : Prop where
  value : (sequential δ s order).2 = d.value
  nodup : (order.map Prod.fst).Nodup
  done : ∀ i e r, d.calls i = .done e r → (i, e, r) ∈ (sequential δ s order).1
  stored : ∀ i e next, d.calls i = .stored e next → (i, e, .ok ()) ∈ (sequential δ s order).1
  only : ∀ i e r, (i, e, r) ∈ (sequential δ s order).1 →
    d.calls i = .done e r ∨ r = .ok () ∧ ∃ next, d.calls i = .stored e next
  loaded : ∀ i e seen next, d.calls i = .loaded e seen next → δ seen e = .ok next

namespace Linearized

variable {δ} {s : σ} {order : List (ℕ × ε)} {d d' : Cell σ ε ρ} {i : ℕ} {e : ε}
  {c : CallState σ ε ρ}

theorem init (s : σ) : Linearized δ s [] (Cell.init s) where
  value := rfl
  nodup := List.nodup_nil
  done _ _ _ h := by cases h
  stored _ _ _ h := by cases h
  only _ _ _ h := absurd h List.not_mem_nil
  loaded _ _ _ _ h := by cases h

/-- A call moves on without taking effect. -/
theorem move (h : Linearized δ s order d) (hno : ∀ e r, (i, e, r) ∉ (sequential δ s order).1)
    (hcalls : d'.calls = Function.update d.calls i c) (hvalue : d'.value = d.value)
    (hc : (∃ e, c = .invoked e) ∨ ∃ e seen next, c = .loaded e seen next ∧ δ seen e = .ok next) :
    Linearized δ s order d' := by
  refine ⟨h.value.trans hvalue.symm, h.nodup, ?_, ?_, ?_, ?_⟩
  · intro j e r hj
    rcases calls_cases hcalls j with ⟨rfl, hj'⟩ | hj'
    · rw [hj'] at hj
      rcases hc with ⟨_, rfl⟩ | ⟨_, _, _, rfl, _⟩ <;> cases hj
    · exact h.done j e r (hj' ▸ hj)
  · intro j e next hj
    rcases calls_cases hcalls j with ⟨rfl, hj'⟩ | hj'
    · rw [hj'] at hj
      rcases hc with ⟨_, rfl⟩ | ⟨_, _, _, rfl, _⟩ <;> cases hj
    · exact h.stored j e next (hj' ▸ hj)
  · intro j e r hj
    rcases calls_cases hcalls j with ⟨rfl, -⟩ | hj'
    -- the call that moves has no entry yet
    · exact absurd hj (hno e r)
    · rw [hj']
      exact h.only j e r hj
  · intro j e seen next hj
    rcases calls_cases hcalls j with ⟨rfl, hj'⟩ | hj'
    · rw [hj'] at hj
      rcases hc with ⟨_, rfl⟩ | ⟨_, _, _, rfl, hδ⟩
      · cases hj
      · cases hj
        exact hδ
    · exact h.loaded j e seen next (hj' ▸ hj)

/-- A call that has written returns. -/
theorem finish (h : Linearized δ s order d) {next : σ} (hst : d.calls i = .stored e next)
    (hcalls : d'.calls = Function.update d.calls i (.done e (.ok ())))
    (hvalue : d'.value = d.value) : Linearized δ s order d' := by
  refine ⟨h.value.trans hvalue.symm, h.nodup, ?_, ?_, ?_, ?_⟩
  · intro j e' r hj
    rcases calls_cases hcalls j with ⟨rfl, hj'⟩ | hj'
    · cases hj'.symm.trans hj
      exact h.stored j e next hst
    · exact h.done j e' r (hj' ▸ hj)
  · intro j e' next' hj
    rcases calls_cases hcalls j with ⟨rfl, hj'⟩ | hj'
    · cases hj'.symm.trans hj
    · exact h.stored j e' next' (hj' ▸ hj)
  · intro j e' r hj
    rcases calls_cases hcalls j with ⟨rfl, hj'⟩ | hj'
    · rcases h.only j e' r hj with hd | ⟨rfl, next', hs⟩
      · cases hst.symm.trans hd
      · cases hst.symm.trans hs
        exact Or.inl hj'
    · rw [hj']
      exact h.only j e' r hj
  · intro j e' seen next' hj
    rcases calls_cases hcalls j with ⟨rfl, hj'⟩ | hj'
    · cases hj'.symm.trans hj
    · exact h.loaded j e' seen next' (hj' ▸ hj)

/-- The history continues with the result that a call running alone has on the value of
the cell. -/
theorem sequential_eq (h : Linearized δ s order d) (i : ℕ) (e : ε) :
    sequential δ s (order ++ [(i, e)]) =
      ((sequential δ s order).1 ++ [(i, e, (alone δ d.value e).1)], (alone δ d.value e).2) := by
  rw [sequential_snoc, h.value]

theorem nodup_snoc (h : Linearized δ s order d)
    (hno : ∀ e r, (i, e, r) ∉ (sequential δ s order).1) (e : ε) :
    ((order ++ [(i, e)]).map Prod.fst).Nodup := by
  rw [List.map_append, List.nodup_append]
  refine ⟨h.nodup, List.pairwise_singleton _ _, ?_⟩
  intro j hj k hk hjk
  rw [List.map_cons, List.map_nil, List.mem_singleton] at hk
  rw [← sequential_ids δ s, hjk, hk] at hj
  obtain ⟨⟨j', e', r⟩, hx, hj'⟩ := List.mem_map.mp hj
  rw [show j' = i from hj'] at hx
  exact hno e' r hx

/-- A call takes effect on the value the cell has. -/
theorem take (h : Linearized δ s order d) (hno : ∀ e r, (i, e, r) ∉ (sequential δ s order).1)
    (hcalls : d'.calls = Function.update d.calls i c)
    (hvalue : d'.value = (alone δ d.value e).2)
    (hc : c = .done e (alone δ d.value e).1 ∨
      (alone δ d.value e).1 = .ok () ∧ ∃ next, c = .stored e next) :
    Linearized δ s (order ++ [(i, e)]) d' := by
  have hseq := h.sequential_eq i e
  have hold {x : ℕ × ε × Except ρ Unit} (hx : x ∈ (sequential δ s order).1) :
      x ∈ (sequential δ s (order ++ [(i, e)])).1 := by
    rw [hseq]
    exact List.mem_append_left _ hx
  have hnew : (i, e, (alone δ d.value e).1) ∈ (sequential δ s (order ++ [(i, e)])).1 := by
    rw [hseq]
    exact List.mem_append_right _ (List.mem_singleton_self _)
  refine ⟨by rw [hseq, hvalue], h.nodup_snoc hno e, ?_, ?_, ?_, ?_⟩
  · intro j e' r hj
    rcases calls_cases hcalls j with ⟨rfl, hj'⟩ | hj'
    · rw [hj'] at hj
      rcases hc with rfl | ⟨_, _, rfl⟩
      · cases hj
        exact hnew
      · cases hj
    · exact hold (h.done j e' r (hj' ▸ hj))
  · intro j e' next hj
    rcases calls_cases hcalls j with ⟨rfl, hj'⟩ | hj'
    · rw [hj'] at hj
      rcases hc with rfl | ⟨hok, _, rfl⟩
      · cases hj
      · cases hj
        exact hok ▸ hnew
    · exact hold (h.stored j e' next (hj' ▸ hj))
  · -- an entry of the longer history is an old one or the new one
    intro j e' r hj
    rw [hseq] at hj
    rcases List.mem_append.mp hj with hj | hj
    · have hji : j ≠ i := fun hji => hno e' r (hji ▸ hj)
      rw [hcalls, Function.update_of_ne hji]
      exact h.only j e' r hj
    · obtain ⟨rfl, hrest⟩ := Prod.mk.inj (List.mem_singleton.mp hj)
      obtain ⟨rfl, rfl⟩ := Prod.mk.inj hrest
      rw [hcalls, Function.update_self]
      exact hc
  · intro j e' seen next hj
    rcases calls_cases hcalls j with ⟨rfl, hj'⟩ | hj'
    · rw [hj'] at hj
      rcases hc with rfl | ⟨_, _, rfl⟩ <;> cases hj
    · exact h.loaded j e' seen next (hj' ▸ hj)

end Linearized

/-- A write that finds the value its call has read. -/
def FreshWrite (d : Cell σ ε ρ) (a : Act ε) : Prop :=
  ∀ i e seen next, a = .write i → d.calls i = .loaded e seen next → d.value = seen

/-- The observer has seen the written values in order, and what it has not seen yet is
exactly what calls that have written are still to deliver. -/
structure Ordered (s : σ) (d : Cell σ ε ρ) : Prop where
  pending : ∃ rest, d.written = d.delivered ++ rest ∧
    (∀ p ∈ rest, ∃ e, d.calls p.1 = .stored e p.2) ∧
    ∀ i e next, d.calls i = .stored e next → (i, next) ∈ rest
  nodup : (d.written.map Prod.fst).Nodup
  wrote : ∀ p ∈ d.written, (∃ e next, d.calls p.1 = .stored e next) ∨ ∃ e r, d.calls p.1 = .done e r
  value : d.value = (d.written.map Prod.snd).getLastD s

/-- A notification that overtakes no other: the calls that have written and are still to
notify have all written later. -/
def NotifiesInOrder (d : Cell σ ε ρ) (a : Act ε) : Prop :=
  ∀ i, a = .notify i → ∀ j e next, j ≠ i → d.calls j = .stored e next →
    (d.written.map Prod.fst).idxOf i < (d.written.map Prod.fst).idxOf j

/-- No call is between its invocation and its return. -/
def Quiescent (d : Cell σ ε ρ) : Prop := ∀ i, d.calls i = .idle ∨ ∃ e r, d.calls i = .done e r

namespace Ordered

variable {s : σ} {d : Cell σ ε ρ} {i : ℕ} {e : ε} {c : CallState σ ε ρ}

theorem init (s : σ) : Ordered s (Cell.init s : Cell σ ε ρ) where
  pending := ⟨[], rfl, fun _ h => absurd h List.not_mem_nil, fun _ _ _ h => by cases h⟩
  nodup := List.nodup_nil
  wrote _ h := absurd h List.not_mem_nil
  value := rfl

theorem not_written (h : Ordered s d) (hs : ∀ e next, d.calls i ≠ .stored e next)
    (hd : ∀ e r, d.calls i ≠ .done e r) {p : ℕ × σ} (hp : p ∈ d.written) : p.1 ≠ i := by
  rintro rfl
  rcases h.wrote p hp with ⟨e, next, hst⟩ | ⟨e, r, hdone⟩
  · exact hs e next hst
  · exact hd e r hdone

/-- Calls that have not written yet may move on, short of writing. -/
theorem move (h : Ordered s d) (hs : ∀ e next, d.calls i ≠ .stored e next)
    (hd : ∀ e r, d.calls i ≠ .done e r) (hc : ∀ e next, c ≠ .stored e next) :
    Ordered s (d.setCall i c) := by
  have hcalls {p : ℕ × σ} (hp : p ∈ d.written) : (d.setCall i c).calls p.1 = d.calls p.1 :=
    Function.update_of_ne (h.not_written hs hd hp) _ _
  obtain ⟨rest, hsplit, hrest, hall⟩ := h.pending
  refine ⟨⟨rest, hsplit, ?_, ?_⟩, h.nodup, ?_, h.value⟩
  · intro p hp
    rw [hcalls (hsplit ▸ List.mem_append_right _ hp)]
    exact hrest p hp
  · intro j e next hj
    rcases eq_or_ne j i with rfl | hji
    · exact absurd ((Function.update_self _ _ _).symm.trans hj) (hc e next)
    · exact hall j e next ((Function.update_of_ne hji _ _).symm.trans hj)
  · intro p hp
    rw [hcalls hp]
    exact h.wrote p hp

theorem write {seen next : σ} (h : Ordered s d) (hl : d.calls i = .loaded e seen next) :
    Ordered s { d.setCall i (.stored e next) with
      value := next
      written := d.written ++ [(i, next)] } := by
  have hnot {p : ℕ × σ} (hp : p ∈ d.written) : p.1 ≠ i :=
    h.not_written (by simp [hl]) (by simp [hl]) hp
  have hcalls {p : ℕ × σ} (hp : p ∈ d.written) :
      Function.update d.calls i (.stored e next) p.1 = d.calls p.1 :=
    Function.update_of_ne (hnot hp) _ _
  obtain ⟨rest, hsplit, hrest, hall⟩ := h.pending
  refine ⟨⟨rest ++ [(i, next)], by simp [hsplit, Cell.setCall], ?_, ?_⟩, ?_, ?_, by simp⟩
  · intro p hp
    rcases List.mem_append.mp hp with hp | hp
    · have hcall := hcalls (hsplit ▸ List.mem_append_right _ hp)
      obtain ⟨e', he'⟩ := hrest p hp
      exact ⟨e', hcall.trans he'⟩
    · rw [List.mem_singleton.mp hp]
      exact ⟨e, Function.update_self _ _ _⟩
  · intro j e' next' hj
    rcases eq_or_ne j i with rfl | hji
    · cases (Function.update_self _ _ _).symm.trans hj
      exact List.mem_append_right _ (List.mem_singleton_self _)
    · have hold := hall j e' next' ((Function.update_of_ne hji _ _).symm.trans hj)
      exact List.mem_append_left _ hold
  · rw [List.map_append, List.nodup_append]
    refine ⟨h.nodup, List.pairwise_singleton _ _, fun j hj k hk hjk => ?_⟩
    rw [List.map_cons, List.map_nil, List.mem_singleton] at hk
    obtain ⟨p, hp, rfl⟩ := List.mem_map.mp hj
    exact hnot hp (hjk.trans hk)
  · intro p hp
    rcases List.mem_append.mp hp with hp | hp
    · have hcall := hcalls hp
      rcases h.wrote p hp with ⟨e', next', hst⟩ | ⟨e', r, hdone⟩
      · exact Or.inl ⟨e', next', hcall.trans hst⟩
      · exact Or.inr ⟨e', r, hcall.trans hdone⟩
    · rw [List.mem_singleton.mp hp]
      exact Or.inl ⟨e, next, Function.update_self _ _ _⟩

/-- A notification that overtakes no other delivers the oldest value still outstanding. -/
theorem oldest {next : σ} (h : Ordered s d) (hst : d.calls i = .stored e next)
    (ho : NotifiesInOrder d (.notify i)) :
    ∃ rest, d.written = d.delivered ++ (i, next) :: rest ∧
      (∀ p ∈ rest, p.1 ≠ i ∧ ∃ e, d.calls p.1 = .stored e p.2) ∧
      ∀ j e next, j ≠ i → d.calls j = .stored e next → (j, next) ∈ rest := by
  obtain ⟨rest, hsplit, hrest, hall⟩ := h.pending
  cases rest with
  | nil => exact absurd (hall i e next hst) List.not_mem_nil
  | cons p rest =>
    obtain ⟨e', he'⟩ := hrest p List.mem_cons_self
    have hn := h.nodup
    rw [hsplit, List.map_append, List.map_cons, List.nodup_append] at hn
    obtain ⟨-, htail, hdisj⟩ := hn
    rcases eq_or_ne p.1 i with rfl | hne
    · obtain ⟨-, rfl⟩ := CallState.stored.inj (hst.symm.trans he')
      refine ⟨rest, hsplit, fun q hq => ⟨?_, hrest q (List.mem_cons_of_mem _ hq)⟩, ?_⟩
      · intro hqi
        exact (List.nodup_cons.mp htail).1 (List.mem_map.mpr ⟨q, hq, hqi⟩)
      · intro j e'' next hj hjs
        rcases List.mem_cons.mp (hall j e'' next hjs) with hp | hp
        · exact absurd (congrArg Prod.fst hp) hj
        · exact hp
    · -- otherwise the call at the head has written before `i` and is still to notify
      have hlt := ho i rfl p.1 e' p.2 hne he'
      have hi : i ∈ p.1 :: rest.map Prod.fst :=
        List.mem_map.mpr ⟨(i, next), hall i e next hst, rfl⟩
      rw [hsplit, List.map_append, List.map_cons,
        List.idxOf_append_of_notMem fun hm => hdisj i hm i hi rfl,
        List.idxOf_append_of_notMem fun hm => hdisj p.1 hm p.1 List.mem_cons_self rfl,
        List.idxOf_cons_self] at hlt
      omega

theorem notify {next : σ} (h : Ordered s d) (hst : d.calls i = .stored e next)
    (ho : NotifiesInOrder d (.notify i)) :
    Ordered s { d.setCall i (.done e (.ok ())) with
      delivered := d.delivered ++ [(i, next)] } := by
  obtain ⟨rest, hsplit, hrest, hall⟩ := h.oldest hst ho
  refine ⟨⟨rest, by simp [hsplit, Cell.setCall], ?_, ?_⟩,
    h.nodup, ?_, h.value⟩
  · intro p hp
    obtain ⟨hne, e', he'⟩ := hrest p hp
    exact ⟨e', (Function.update_of_ne hne _ _).trans he'⟩
  · intro j e' next' hj
    rcases eq_or_ne j i with rfl | hji
    · cases (Function.update_self _ _ _).symm.trans hj
    · exact hall j e' next' hji ((Function.update_of_ne hji _ _).symm.trans hj)
  · intro p hp
    rcases eq_or_ne p.1 i with hpi | hpi
    · exact Or.inr ⟨e, .ok (), by rw [hpi]; exact Function.update_self _ _ _⟩
    · have hcall : Function.update d.calls i (.done e (.ok ())) p.1 = d.calls p.1 :=
        Function.update_of_ne hpi _ _
      rcases h.wrote p hp with ⟨e', next', hst⟩ | ⟨e', r, hdone⟩
      · exact Or.inl ⟨e', next', hcall.trans hst⟩
      · exact Or.inr ⟨e', r, hcall.trans hdone⟩

/-- When nothing is in progress the observer has seen everything. -/
theorem delivered_eq (h : Ordered s d) (hq : Quiescent d) : d.delivered = d.written := by
  obtain ⟨rest, hsplit, hrest, -⟩ := h.pending
  cases rest with
  | nil => rw [hsplit, List.append_nil]
  | cons p rest =>
    obtain ⟨e, he⟩ := hrest p List.mem_cons_self
    rcases hq p.1 with hi | ⟨e', r, hd⟩
    · cases he.symm.trans hi
    · cases he.symm.trans hd

end Ordered

variable [DecidableEq σ]

/-- A call that fails or changes nothing is over when it has read. -/
def afterRead (s : σ) (e : ε) : CallState σ ε ρ :=
  match δ s e with
  | .error err => .done e (.error err)
  | .ok next => if next = s then .done e (.ok ()) else .loaded e s next

/-- A call that is over has had the effect of a call running alone. -/
theorem afterRead_cases (s : σ) (e : ε) :
    (afterRead δ s e : CallState σ ε ρ) = .done e (alone δ s e).1 ∧ (alone δ s e).2 = s ∨
      ∃ next, δ s e = .ok next ∧ (afterRead δ s e : CallState σ ε ρ) = .loaded e s next := by
  cases hδ : δ s e with
  | error err => exact Or.inl ⟨by rw [afterRead, alone, hδ], by rw [alone, hδ]⟩
  | ok next =>
    by_cases hsame : next = s
    · refine Or.inl ⟨?_, by rw [alone, hδ, hsame]⟩
      rw [afterRead, alone, hδ]
      exact if_pos hsame
    · refine Or.inr ⟨next, rfl, ?_⟩
      rw [afterRead, hδ]
      exact if_neg hsame

theorem afterRead_ne_stored (s : σ) (e e' : ε) (next : σ) :
    (afterRead δ s e : CallState σ ε ρ) ≠ .stored e' next := by
  rcases afterRead_cases δ s e with ⟨h, -⟩ | ⟨next, -, h⟩
  · rw [h]
    exact nofun
  · rw [h]
    exact nofun

inductive Step : Cell σ ε ρ → Act ε → Cell σ ε ρ → Prop
  | invoke {d : Cell σ ε ρ} {i : ℕ} (e : ε) (h : d.calls i = .idle) :
      Step d (.invoke i e) (d.setCall i (.invoked e))
  -- under the read lock, which is released again
  | read {d : Cell σ ε ρ} {i : ℕ} {e : ε} (h : d.calls i = .invoked e) :
      Step d (.read i) (d.setCall i (afterRead δ d.value e))
  -- under the write lock, whatever the cell holds by now
  | write {d : Cell σ ε ρ} {i : ℕ} {e : ε} {seen next : σ} (h : d.calls i = .loaded e seen next) :
      Step d (.write i) { d.setCall i (.stored e next) with
        value := next
        written := d.written ++ [(i, next)] }
  -- with the value the call has written, not the one the cell holds
  | notify {d : Cell σ ε ρ} {i : ℕ} {e : ε} {next : σ} (h : d.calls i = .stored e next) :
      Step d (.notify i) { d.setCall i (.done e (.ok ())) with
        delivered := d.delivered ++ [(i, next)] }

/-- The call that takes effect in this step: one that ends without a write takes effect
when it reads, the others when they write. -/
def effect (d : Cell σ ε ρ) : Act ε → List (ℕ × ε)
  | .read i =>
    match d.calls i with
    | .invoked e =>
      match afterRead δ d.value e with
      | .done _ _ => [(i, e)]
      | _ => []
    | _ => []
  | .write i =>
    match d.calls i with
    | .loaded e _ _ => [(i, e)]
    | _ => []
  | .invoke _ _ | .notify _ => []

theorem Step.linearized {s : σ} {order : List (ℕ × ε)} {d d' : Cell σ ε ρ} {a : Act ε}
    (h : Step δ d a d') (hl : Linearized δ s order d) (hf : FreshWrite d a) :
    Linearized δ s (order ++ effect δ d a) d' := by
  -- a call that has not taken effect is not in the history
  have hno {i : ℕ} (hd : ∀ e r, d.calls i ≠ .done e r) (hs : ∀ e next, d.calls i ≠ .stored e next)
      (e : ε) (r : Except ρ Unit) : (i, e, r) ∉ (sequential δ s order).1 := by
    intro hm
    rcases hl.only i e r hm with hdone | ⟨-, next, hst⟩
    · exact hd e r hdone
    · exact hs e next hst
  cases h with
  | invoke e h =>
    rw [effect, List.append_nil]
    exact hl.move (hno (by simp [h]) (by simp [h])) rfl rfl (Or.inl ⟨e, rfl⟩)
  | @read i e h =>
    have hni := hno (i := i) (by simp [h]) (by simp [h])
    rcases afterRead_cases δ d.value e with ⟨hread, hsame⟩ | ⟨next, hδ, hread⟩
    · simp only [effect, h, hread]
      exact hl.take hni rfl hsame.symm (Or.inl rfl)
    · simp only [effect, h, hread, List.append_nil]
      exact hl.move hni rfl rfl (Or.inr ⟨e, d.value, next, rfl, hδ⟩)
  | @write i e seen next h =>
    have hni := hno (i := i) (by simp [h]) (by simp [h])
    -- the decision was made on the value that is overwritten
    obtain rfl : d.value = seen := hf i e seen next rfl h
    have halone : alone δ d.value e = (.ok (), next) := by
      rw [alone, hl.loaded i e _ next h]
    rw [effect, h]
    exact hl.take hni rfl (by rw [halone]) (Or.inr ⟨by rw [halone], next, rfl⟩)
  | @notify i e next h =>
    rw [effect, List.append_nil]
    exact hl.finish h rfl rfl

/-- Runs whose writes are all fresh are linearizable, each call at the step in which it
takes effect. -/
theorem linearized_of_fresh {s : σ} {tr : List (Cell σ ε ρ × Act ε)} {d : Cell σ ε ρ}
    (h : Run (Step δ) (Cell.init s) tr d) (hf : ∀ p ∈ tr, FreshWrite p.1 p.2) :
    Linearized δ s (gather (effect δ) tr) d := by
  refine h.history_of FreshWrite (fun tr d => Linearized δ s (gather (effect δ) tr) d)
    (Linearized.init s) (?_) hf
  intro tr t a u hl hfresh hstep
  rw [gather_snoc]
  exact hstep.linearized δ hl hfresh

theorem ordered_of_inOrder {s : σ} {tr : List (Cell σ ε ρ × Act ε)} {d : Cell σ ε ρ}
    (h : Run (Step δ) (Cell.init s) tr d) (ho : ∀ p ∈ tr, NotifiesInOrder p.1 p.2) :
    Ordered s d := by
  refine h.history_of NotifiesInOrder (fun _ d => Ordered s d) (Ordered.init s)
    (?_) ho
  intro tr t a u hord hin hstep
  cases hstep with
  | invoke e h => exact hord.move (by simp [h]) (by simp [h]) nofun
  | read h => exact hord.move (by simp [h]) (by simp [h]) (afterRead_ne_stored δ _ _)
  | write h => exact hord.write h
  | notify h => exact hord.notify h hin

end GravitalShare.SharedCell
