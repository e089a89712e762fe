import Mathlib.Data.List.Basic
import Mathlib.Tactic.Common

/-! A loop over a sequence of inputs whose body gives an output, gives nothing or fails. The first
failure ends the loop, so that what follows it is never seen. -/
namespace GravitalShare.FailFast

variable {α β ε : Type} (body : α → Except ε (Option β))

/-- The outputs, and how the loop ended. -/
def loop : List α → List β × Except ε Unit
  | [] => ([], .ok ())
  | a :: as =>
    match body a with
    | .error e => ([], .error e)
    | .ok out => (out.toList ++ (loop as).1, (loop as).2)

/-- The output for one input alone. -/
def keep (a : α) : Option β := (body a).toOption.join

def Fails (a : α) : Prop := ∃ e, body a = .error e

variable {body}

theorem loop_cons_error {a : α} {e : ε} (h : body a = .error e) (as : List α) :
    loop body (a :: as) = ([], .error e) := by
  rw [loop, h]

theorem loop_cons_ok {a : α} {out : Option β} (h : body a = .ok out) (as : List α) :
    loop body (a :: as) = (out.toList ++ (loop body as).1, (loop body as).2) := by
  rw [loop, h]

theorem filterMap_keep_error {a : α} {e : ε} (h : body a = .error e) (as : List α) :
    (a :: as).filterMap (keep body) = as.filterMap (keep body) := by
  rw [List.filterMap_cons, keep, h]
  rfl

theorem filterMap_keep_ok {a : α} {out : Option β} (h : body a = .ok out) (as : List α) :
    (a :: as).filterMap (keep body) = out.toList ++ as.filterMap (keep body) := by
  rw [List.filterMap_cons, keep, h]
  cases out <;> rfl

/-- The loop runs to the end of its inputs exactly if none of them fails. -/
theorem loop_ends_ok_iff (body : α → Except ε (Option β)) (as : List α) :
    (loop body as).2 = .ok () ↔ ∀ a ∈ as, ¬Fails body a := by
  induction as with
  | nil => exact iff_of_true rfl fun _ ha => absurd ha List.not_mem_nil
  | cons a as ih =>
    rw [List.forall_mem_cons]
    cases h : body a with
    | error e =>
      rw [loop_cons_error h]
      exact iff_of_false (fun hok => by cases hok) fun hall => hall.1 ⟨e, h⟩
    | ok out =>
      rw [loop_cons_ok h, ih]
      exact (and_iff_right fun ⟨e, he⟩ => by cases h.symm.trans he).symm

/-- Nothing would come after a failure. -/
def Quiet (body : α → Except ε (Option β)) (as : List α) : Prop :=
  ∀ pre a post, as = pre ++ a :: post → Fails body a → post.filterMap (keep body) = []

theorem quiet_of_nothing {as : List α} (h : as.filterMap (keep body) = []) : Quiet body as := by
  rintro pre a post rfl -
  rw [List.filterMap_append, List.append_eq_nil_iff] at h
  rw [← List.singleton_append, List.filterMap_append, List.append_eq_nil_iff] at h
  exact h.2.2

theorem quiet_cons_iff {x : α} {as : List α} :
    Quiet body (x :: as) ↔ (Fails body x → as.filterMap (keep body) = []) ∧ Quiet body as := by
  constructor
  · intro h
    refine ⟨h [] x as rfl, ?_⟩
    intro pre a post heq
    apply h (x :: pre)
    rw [heq, List.cons_append]
  · rintro ⟨hx, hall⟩ pre a post heq hfail
    cases pre with
    | nil =>
      cases heq
      exact hx hfail
    | cons y pre =>
      cases heq
      exact hall pre a post rfl hfail

/-- The loop gives what its inputs give one by one exactly if nothing would have come after a
failure. -/
theorem loop_outputs_iff (body : α → Except ε (Option β)) (as : List α) :
    (loop body as).1 = as.filterMap (keep body) ↔
      ∀ pre a post, as = pre ++ a :: post → Fails body a → post.filterMap (keep body) = [] := by
  change _ ↔ Quiet body as
  induction as with
  | nil =>
    apply iff_of_true rfl
    exact quiet_of_nothing rfl
  | cons x as ih =>
    rw [quiet_cons_iff]
    cases h : body x with
    | error e =>
      rw [loop_cons_error h, filterMap_keep_error h]
      constructor
      · intro hnil
        exact ⟨fun _ => hnil.symm, quiet_of_nothing hnil.symm⟩
      · intro hquiet
        exact (hquiet.1 ⟨e, h⟩).symm
    | ok out =>
      rw [loop_cons_ok h, filterMap_keep_ok h, List.append_cancel_left_eq, ih]
      exact (and_iff_right fun ⟨e, he⟩ => by cases h.symm.trans he).symm

end GravitalShare.FailFast
