import GravitalShare.SharedCell

/-! A thread that makes calls on a shared cell. As long as what a thread has read still stands
when it writes, each of its calls acts as one step. -/
namespace GravitalShare.SharedCell

variable {π σ ε ρ : Type}

/-- A thread at `pc`, perhaps inside the call it makes there. -/
inductive Slot (π σ ε ρ : Type) where
  | ready (pc : π)
  | calling (pc : π) (c : CallState σ ε ρ)

/-- The call has been invoked and has not returned. -/
def CallState.inFlight : CallState σ ε ρ → Bool
  | .invoked _ | .loaded _ _ _ | .stored _ _ => true
  | .idle | .done _ _ => false

namespace Slot

/-- Where the thread stands once a call that has taken effect counts as returned. -/
def effective (resume : π → Except ρ Unit → π) : Slot π σ ε ρ → π
  | .ready pc | .calling pc .idle | .calling pc (.invoked _) | .calling pc (.loaded _ _ _) => pc
  | .calling pc (.stored _ _) => resume pc (.ok ())
  | .calling pc (.done _ result) => resume pc result

theorem effective_calling (resume : π → Except ρ Unit → π) (pc : π) (c : CallState σ ε ρ) :
    (calling pc c).effective resume = pc ∨
      ∃ result, (calling pc c).effective resume = resume pc result := by
  cases c with
  | stored _ _ => exact Or.inr ⟨_, rfl⟩
  | done _ result => exact Or.inr ⟨result, rfl⟩
  | _ => exact Or.inl rfl

/-- The call is the one the thread makes at `pc`, and `v` is still what it has read. -/
def Fresh (δ : σ → ε → Except ρ σ) (event : π → Option ε) (v : σ) : Slot π σ ε ρ → Prop
  | .ready _ => True
  | .calling pc c => ∃ e, event pc = some e ∧
      (c = .invoked e ∨ (∃ next, c = .loaded e v next ∧ δ v e = .ok next) ∨
        (∃ next, c = .stored e next) ∨ ∃ result, c = .done e result)

end Slot

/-- A step of a thread in its call, on a cell that holds `v`. -/
inductive SlotStep [DecidableEq σ] (δ : σ → ε → Except ρ σ) (event : π → Option ε)
    (resume : π → Except ρ Unit → π) (v : σ) : Slot π σ ε ρ → σ → Slot π σ ε ρ → Prop
  | invoke {pc e} (h : event pc = some e) :
      SlotStep δ event resume v (.ready pc) v (.calling pc (.invoked e))
  | read {pc e} :
      SlotStep δ event resume v (.calling pc (.invoked e)) v (.calling pc (afterRead δ v e))
  | write {pc e seen next} :
      SlotStep δ event resume v (.calling pc (.loaded e seen next)) next
        (.calling pc (.stored e next))
  | notify {pc e next} :
      SlotStep δ event resume v (.calling pc (.stored e next)) v (.calling pc (.done e (.ok ())))
  | ret {pc e result} :
      SlotStep δ event resume v (.calling pc (.done e result)) v (.ready (resume pc result))

variable {δ : σ → ε → Except ρ σ} {event : π → Option ε} {resume : π → Except ρ Unit → π}
  {v v' : σ} {s s' : Slot π σ ε ρ}

theorem alone_of_ok {e : ε} {next : σ} (h : δ v e = .ok next) : alone δ v e = (.ok (), next) := by
  rw [alone, h]

/-- A thread that would be refused has read nothing that a change of the cell could make
stale. -/
theorem Slot.Fresh.change (h : s.Fresh δ event v)
    (hno : ∀ e next, event (s.effective resume) = some e → δ v e ≠ .ok next) :
    s.Fresh δ event v' := by
  cases s with
  | ready pc => trivial
  | calling pc c =>
    obtain ⟨e, he, hc | ⟨next, hc, hδ⟩ | hc⟩ := h
    · exact ⟨e, he, Or.inl hc⟩
    · subst hc
      exact absurd hδ (hno e next he)
    · exact ⟨e, he, Or.inr (Or.inr hc)⟩

variable [DecidableEq σ]

/-- A step of a thread whose reading still stands is invisible, or it is the whole call. -/
theorem SlotStep.atomic (h : SlotStep δ event resume v s v' s') (hf : s.Fresh δ event v) :
    s'.Fresh δ event v' ∧
    (v' = v ∧ s'.effective resume = s.effective resume ∨
      ∃ e, event (s.effective resume) = some e ∧ v' = (alone δ v e).2 ∧
        s'.effective resume = resume (s.effective resume) (alone δ v e).1) := by
  cases h with
  | @invoke pc e he => exact ⟨⟨e, he, Or.inl rfl⟩, Or.inl ⟨rfl, rfl⟩⟩
  | @read pc e =>
    obtain ⟨e', he, hc⟩ := hf
    obtain rfl : e = e' := by
      rcases hc with hc | ⟨_, hc, _⟩ | ⟨_, hc⟩ | ⟨_, hc⟩ <;> cases hc
      rfl
    rcases afterRead_cases δ v e with ⟨hread, hsame⟩ | ⟨next, hδ, hread⟩
    · rw [hread]
      exact ⟨⟨e, he, Or.inr (Or.inr (Or.inr ⟨_, rfl⟩))⟩, Or.inr ⟨e, he, hsame.symm, rfl⟩⟩
    · rw [hread]
      exact ⟨⟨e, he, Or.inr (Or.inl ⟨next, rfl, hδ⟩)⟩, Or.inl ⟨rfl, rfl⟩⟩
  | @write pc e seen next =>
    obtain ⟨e', he, hc | ⟨next', hc, hδ⟩ | ⟨_, hc⟩ | ⟨_, hc⟩⟩ := hf <;> cases hc
    refine ⟨⟨e, he, Or.inr (Or.inr (Or.inl ⟨_, rfl⟩))⟩, Or.inr ⟨e, he, ?_, ?_⟩⟩
    · rw [alone_of_ok hδ]
    · rw [alone_of_ok hδ]
      rfl
  | @notify pc e next =>
    obtain ⟨e', he, hc⟩ := hf
    obtain rfl : e = e' := by
      rcases hc with hc | ⟨_, hc, _⟩ | ⟨_, hc⟩ | ⟨_, hc⟩ <;> cases hc
      rfl
    exact ⟨⟨e, he, Or.inr (Or.inr (Or.inr ⟨_, rfl⟩))⟩, Or.inl ⟨rfl, rfl⟩⟩
  | ret => exact ⟨trivial, Or.inl ⟨rfl, rfl⟩⟩

/-- What another thread has read stands as well, if it would be refused whenever this one
changes the cell. -/
theorem SlotStep.fresh_other {π' : Type} {event' : π' → Option ε}
    {other : Slot π' σ ε ρ} (resume' : π' → Except ρ Unit → π')
    (h : SlotStep δ event resume v s v' s') (hf : s.Fresh δ event v)
    (ho : other.Fresh δ event' v)
    (hex : ∀ e next, event (s.effective resume) = some e → δ v e = .ok next →
      ∀ e' next', event' (other.effective resume') = some e' → δ v e' ≠ .ok next') :
    other.Fresh δ event' v' := by
  obtain ⟨-, ⟨hv, -⟩ | ⟨e, he, hv, -⟩⟩ := h.atomic hf
  · rwa [hv]
  · cases hδ : δ v e with
    | error err =>
      rw [hv, alone, hδ]
      exact ho
    | ok next => exact ho.change (hex e next he hδ)

/-- A step of the cell, other than an invocation, is one of the thread whose call it moves,
and leaves all other calls alone. -/
theorem Step.slot_cases {d d' : Cell σ ε ρ} {a : Act ε} (h : Step δ d a d')
    (ha : a.isInvoke = false) :
    ∃ j, (d.calls j).inFlight = true ∧ (∀ j', j' ≠ j → d'.calls j' = d.calls j') ∧
      ∀ {π : Type} (event : π → Option ε) (resume : π → Except ρ Unit → π) (pc : π),
        SlotStep δ event resume d.value (.calling pc (d.calls j)) d'.value
          (.calling pc (d'.calls j)) := by
  have hothers {j : ℕ} {c : CallState σ ε ρ} (j' : ℕ) (hj : j' ≠ j) :
      Function.update d.calls j c j' = d.calls j' := Function.update_of_ne hj _ _
  cases h with
  | invoke => cases ha
  | @read j e hc =>
    refine ⟨j, by rw [hc]; rfl, hothers, fun _ _ _ => ?_⟩
    simp only [hc, Cell.setCall, Function.update_self]
    exact .read
  | @write j e seen next hc =>
    refine ⟨j, by rw [hc]; rfl, hothers, fun _ _ _ => ?_⟩
    simp only [hc, Cell.setCall, Function.update_self]
    exact .write
  | @notify j e next hc =>
    refine ⟨j, by rw [hc]; rfl, hothers, fun _ _ _ => ?_⟩
    simp only [hc, Cell.setCall, Function.update_self]
    exact .notify

end GravitalShare.SharedCell
