import Mathlib.Algebra.Order.Ring.Nat
import Mathlib.Tactic.Linarith
import Mathlib.Tactic.Ring

/-! A chain of programs that pass a stream on: each takes elements from the outlet of the one
before it, holds them for a while and puts them into its own outlet, until it finds the stream at
its end or gives up. -/
namespace GravitalShare

/-- The source of a stream, or a program behind another one. `out` is what nobody has taken yet,
and `fin` tells that nothing will be added to it. -/
inductive Pipe (β : Type) where
  | source (out : List β) (fin : Bool)
  | stage (feed : Pipe β) (hand : List β) (out : List β) (fin : Bool)

namespace Pipe

variable {β : Type}

def out : Pipe β → List β
  | .source out _ | .stage _ _ out _ => out

def fin : Pipe β → Bool
  | .source _ fin | .stage _ _ _ fin => fin

/-- The source has ended the stream. -/
def closed : Pipe β → Bool
  | .source _ fin => fin
  | .stage feed _ _ _ => feed.closed

/-- Some program is over, and what is behind it will not pass. -/
def cut : Pipe β → Bool
  | .source _ _ => false
  | .stage feed _ _ fin => fin || feed.cut

def drain (n : ℕ) : Pipe β → Pipe β
  | .source out fin => .source (out.drop n) fin
  | .stage feed hand out fin => .stage feed hand (out.drop n) fin

inductive Act (β : Type) where
  | produce (bs : List β)
  | close
  | move
  | fail

/-- What an action adds to the stream. -/
def Act.given : Act β → List β
  | .produce bs => bs
  | _ => []

inductive Step : Pipe β → Act β → Pipe β → Prop
  | produce {out} (bs : List β) : Step (.source out false) (.produce bs) (.source (out ++ bs) false)
  | close {out} : Step (.source out false) .close (.source out true)
  | read {feed hand out} (n : ℕ) (h0 : 0 < n) (hn : n ≤ feed.out.length) :
      Step (.stage feed hand out false) .move
        (.stage (feed.drain n) (hand ++ feed.out.take n) out false)
  | write {feed hand out} (n : ℕ) (h0 : 0 < n) (hn : n ≤ hand.length) :
      Step (.stage feed hand out false) .move
        (.stage feed (hand.drop n) (out ++ hand.take n) false)
  | eof {feed out} (ho : feed.out = []) (hf : feed.fin = true) :
      Step (.stage feed [] out false) .move (.stage feed [] out true)
  -- what the program holds is lost, and anything may become of what is behind it
  | fail {feed feed' hand out fin} :
      Step (.stage feed hand out fin) .fail (.stage feed' [] out true)
  | feed {feed feed' hand out fin a} (h : Step feed a feed') :
      Step (.stage feed hand out fin) a (.stage feed' hand out fin)

/-- A step, or nothing that the chain would notice. -/
def StepOf (p : Pipe β) : Option (Act β) → Pipe β → Prop
  | some a, q => Step p a q
  | none, q => q = p

def Act.givenOf : Option (Act β) → List β
  | some a => a.given
  | none => []

theorem StepOf.feed {p q : Pipe β} {a : Option (Act β)} (h : StepOf p a q) (hand out : List β)
    (fin : Bool) : StepOf (.stage p hand out fin) a (.stage q hand out fin) := by
  cases a with
  | some a => exact Step.feed h
  | none => rw [show q = p from h]; rfl

/-- What has come out or can still come out, in order. -/
def flow : Pipe β → List β
  | .source out _ => out
  | .stage feed hand out fin => out ++ hand ++ if fin then [] else feed.flow

/-- All there is in the chain. -/
def total : Pipe β → List β
  | .source out _ => out
  | .stage feed hand out _ => out ++ hand ++ feed.total

/-- Every program that is over has found its feed empty and at its end. -/
def Clean : Pipe β → Prop
  | .source _ _ => True
  | .stage feed hand _ fin =>
    feed.Clean ∧ (fin = true → hand = [] ∧ feed.out = [] ∧ feed.fin = true)

/-- An upper bound for the moves left to do, if an element in the outlet needs `k` more. -/
def work (k : ℕ) : Pipe β → ℕ
  | .source out _ => k*out.length
  | .stage feed hand out fin =>
    k*out.length+(k+1)*hand.length+feed.work (k+2)+if fin then 0 else 1

section Drain

variable (p : Pipe β) (n : ℕ)

theorem closed_drain : (p.drain n).closed = p.closed := by cases p <;> rfl

theorem cut_drain : (p.drain n).cut = p.cut := by cases p <;> rfl

theorem clean_drain : (p.drain n).Clean ↔ p.Clean := by cases p <;> exact Iff.rfl

theorem flow_drain : p.out.take n ++ (p.drain n).flow = p.flow := by
  cases p with
  | source out fin => exact List.take_append_drop n out
  | stage feed hand out fin =>
    simp only [drain, flow, Pipe.out, List.append_assoc]
    rw [← List.append_assoc, List.take_append_drop]

theorem work_drain {k : ℕ} (hn : n ≤ p.out.length) :
    (p.drain n).work k+k*n = p.work k := by
  obtain ⟨m, hm⟩ := Nat.exists_eq_add_of_le hn
  cases p with
  | source out fin | stage feed hand out fin =>
    simp only [Pipe.out] at hm
    simp only [drain, work, List.length_drop, hm, Nat.add_sub_cancel_left]
    ring

end Drain

section Passing

variable (feed : Pipe β) (hand out : List β) (n : ℕ)

theorem flow_read : (stage (feed.drain n) (hand ++ feed.out.take n) out false).flow =
    (stage feed hand out false).flow := by
  simp only [flow, Bool.false_eq_true, ↓reduceIte]
  rw [← feed.flow_drain n]
  simp only [List.append_assoc]

theorem flow_write : (stage feed (hand.drop n) (out ++ hand.take n) false).flow =
    (stage feed hand out false).flow := by
  simp only [flow]
  rw [List.append_assoc out, List.take_append_drop]

end Passing

section Steps

variable {p q : Pipe β} {a : Act β} {given : List β}

/-- A step passes the whole stream on, or the chain is cut and what comes out ends earlier. -/
theorem Step.flow_cases (h : Step p a q) :
    (p.cut = false ∧ q.cut = false ∧ q.flow = p.flow ++ a.given) ∨
    (q.cut = true ∧ q.flow <+: p.flow) := by
  induction h with
  | produce bs => exact Or.inl ⟨rfl, rfl, rfl⟩
  | close => exact Or.inl ⟨rfl, rfl, (List.append_nil _).symm⟩
  | @read feed hand out n =>
    rw [flow_read]
    simp only [cut, cut_drain, Bool.false_or, Act.given, List.append_nil, List.prefix_refl,
      and_true]
    cases feed.cut with
    | true => exact Or.inr rfl
    | false => exact Or.inl ⟨rfl, rfl⟩
  | @write feed hand out n =>
    rw [flow_write]
    simp only [cut, Bool.false_or, Act.given, List.append_nil, List.prefix_refl, and_true]
    cases feed.cut with
    | true => exact Or.inr rfl
    | false => exact Or.inl ⟨rfl, rfl⟩
  | eof | fail =>
    right
    simp only [cut, Bool.true_or, flow, ↓reduceIte, List.append_nil, List.append_assoc, true_and]
    exact List.prefix_append _ _
  | @feed feed feed' hand out fin a h ih =>
    cases fin with
    | true =>
      right
      simp only [cut, Bool.true_or, flow, ↓reduceIte, List.prefix_refl, and_true]
    | false =>
      simp only [cut, Bool.false_or, flow, Bool.false_eq_true, ↓reduceIte, List.append_assoc,
        List.prefix_append_right_inj, List.append_cancel_left_eq]
      exact ih

/-- What comes out is a beginning of what went in, and all of it while no program is over. -/
structure Behind (given : List β) (p : Pipe β) : Prop where
  flow_begins : p.flow <+: given
  uncut : p.cut = false → p.flow = given

theorem Behind.step (hp : Behind given p) (h : Step p a q) : Behind (given ++ a.given) q := by
  rcases h.flow_cases with ⟨hcp, hcq, hflow⟩ | ⟨hcq, hflow⟩
  · have heq : q.flow = given ++ a.given := by rw [hflow, hp.uncut hcp]
    exact ⟨heq ▸ List.prefix_refl _, fun _ => heq⟩
  · refine ⟨(hflow.trans hp.flow_begins).trans (List.prefix_append _ _), ?_⟩
    intro hcut
    exact absurd (hcq.symm.trans hcut) Bool.noConfusion

theorem Behind.stepOf (hp : Behind given p) {a : Option (Act β)} (h : StepOf p a q) :
    Behind (given ++ Act.givenOf a) q := by
  cases a with
  | some a => exact hp.step h
  | none =>
    rw [show q = p from h, Act.givenOf, List.append_nil]
    exact hp

/-- A chain that came to its end properly is at rest. -/
theorem Clean.at_rest (hc : p.Clean) (hf : p.fin = true) (ha : a ≠ .fail) : ¬Step p a q := by
  intro h
  induction h with
  | produce | close | read | write | eof => cases hf
  | fail => exact ha rfl
  | feed h ih => exact ih hc.1 (hc.2 hf).2.2 ha

theorem Clean.step (hc : p.Clean) (h : Step p a q) (ha : a ≠ .fail) : q.Clean := by
  induction h with
  | produce | close => trivial
  | @read feed hand out n =>
    exact ⟨(feed.clean_drain n).mpr hc.1, fun hf => absurd hf Bool.false_ne_true⟩
  | write => exact ⟨hc.1, fun hf => absurd hf Bool.false_ne_true⟩
  | eof ho hf => exact ⟨hc.1, fun _ => ⟨rfl, ho, hf⟩⟩
  | fail => exact absurd rfl ha
  | @feed feed feed' hand out fin a h ih =>
    refine ⟨ih hc.1 ha, ?_⟩
    intro hf
    exact absurd h (hc.1.at_rest (hc.2 hf).2.2 ha)

theorem Clean.flow_end (hc : p.Clean) (hf : p.fin = true) : p.flow = p.out := by
  cases p with
  | source out fin => rfl
  | stage feed hand out fin =>
    cases hf
    simp only [flow, (hc.2 rfl).1, ↓reduceIte, List.append_nil, Pipe.out]

theorem Clean.flow_eq_total (hc : p.Clean) : p.flow = p.total := by
  induction p with
  | source out fin => rfl
  | stage feed hand out fin ih =>
    have hfeed := ih hc.1
    cases fin with
    | false => simp only [flow, total, Bool.false_eq_true, ↓reduceIte, hfeed]
    | true =>
      obtain ⟨-, ho, hf⟩ := hc.2 rfl
      have hnil : feed.total = [] := by rw [← hfeed, hc.1.flow_end hf, ho]
      simp only [flow, total, ↓reduceIte, hnil]

theorem Clean.closed_end (hc : p.Clean) (hf : p.fin = true) : p.closed = true := by
  induction p with
  | source out fin => exact hf
  | stage feed hand out fin ih => exact ih hc.1 (hc.2 hf).2.2

/-- Without a failure nothing is lost. -/
theorem Step.flow_eq (h : Step p a q) (hc : p.Clean) (ha : a ≠ .fail) :
    q.flow = p.flow ++ a.given := by
  induction h with
  | produce bs => rfl
  | close => exact (List.append_nil _).symm
  | read n => exact (flow_read _ _ _ n).trans (List.append_nil _).symm
  | write n => exact (flow_write _ _ _ n).trans (List.append_nil _).symm
  | @eof feed out ho hf =>
    simp only [flow, Act.given, Bool.false_eq_true, ↓reduceIte, List.append_nil,
      hc.1.flow_end hf, ho]
  | fail => exact absurd rfl ha
  | @feed feed feed' hand out fin a h ih =>
    cases fin with
    | true => exact absurd h (hc.1.at_rest (hc.2 rfl).2.2 ha)
    | false =>
      simp only [flow, Bool.false_eq_true, ↓reduceIte, ih hc.1 ha, List.append_assoc]

/-- All that went in has come out or is under way. -/
structure Exact (given : List β) (p : Pipe β) : Prop where
  clean : p.Clean
  flow_eq : p.flow = given

theorem Exact.step (hp : Exact given p) (h : Step p a q) (ha : a ≠ .fail) :
    Exact (given ++ a.given) q :=
  ⟨hp.clean.step h ha, (h.flow_eq hp.clean ha).trans (congrArg (· ++ a.given) hp.flow_eq)⟩

theorem Exact.stepOf (hp : Exact given p) {a : Option (Act β)} (h : StepOf p a q)
    (ha : a ≠ some .fail) : Exact (given ++ Act.givenOf a) q := by
  cases a with
  | some a => exact hp.step h fun he => ha (congrArg some he)
  | none =>
    rw [show q = p from h, Act.givenOf, List.append_nil]
    exact hp

/-- At the end of the chain everything has come out, and the source had been closed. -/
theorem Exact.end (hp : Exact given p) (hf : p.fin = true) : p.out = given ∧ p.closed = true :=
  ⟨(hp.clean.flow_end hf).symm.trans hp.flow_eq, hp.clean.closed_end hf⟩

theorem Step.of_closed (h : Step p a q) (hp : p.closed = true) (ha : a ≠ .fail) :
    a = .move ∧ q.closed = true := by
  induction h with
  | produce | close => cases hp
  | @read feed hand out n => exact ⟨rfl, (feed.closed_drain n).trans hp⟩
  | write | eof => exact ⟨rfl, hp⟩
  | fail => exact absurd rfl ha
  | feed h ih => exact ih hp ha

/-- A move brings an element nearer to the end of the chain, or a program to its own. -/
theorem Step.work_lt (h : Step p a q) (ha : a = .move) (k : ℕ) : q.work k < p.work k := by
  induction h generalizing k with
  | produce | close | fail => cases ha
  | @read feed hand out n h0 hn =>
    have hd := feed.work_drain n (k := k+2) hn
    simp only [work, List.length_append, List.length_take, Nat.min_eq_left hn]
    nlinarith
  | @write feed hand out n h0 hn =>
    obtain ⟨m, hm⟩ := Nat.exists_eq_add_of_le hn
    simp only [work, List.length_append, List.length_take, List.length_drop, hm,
      Nat.add_sub_cancel_left, Nat.min_eq_left (Nat.le_add_right n m)]
    nlinarith
  | eof => simp [work]
  | feed h ih =>
    have hlt := ih ha (k+2)
    simp only [work]
    omega

end Steps

end Pipe

end GravitalShare
