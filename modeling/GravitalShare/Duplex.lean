import Mathlib.Logic.Relation
import Mathlib.Tactic.Common

/-! Two parties that talk over a pair of reliable streams. A party is a process that takes
elements off one stream and puts elements on the other; a party that is done has closed its
stream. The parties run at their own pace, and what comes of it does not depend on the pace. -/
namespace GravitalShare.Duplex

/-- `get` is given `none` at the end of the stream. -/
inductive Proc (β α : Type) where
  | done (a : α)
  | get (k : Option β → Proc β α)
  | put (b : β) (k : Proc β α)

namespace Proc

variable {β α α' : Type}

def bind (f : α → Proc β α') : Proc β α → Proc β α'
  | .done a => f a
  | .get k => .get fun b => (k b).bind f
  | .put b k => .put b (k.bind f)

instance : Monad (Proc β) where
  pure := .done
  bind p f := p.bind f

/-- The process on a whole stream: its result, what it has put and what it has not taken. -/
def run : Proc β α → List β → α × List β × List β
  | .done a, s => (a, [], s)
  | .get k, [] => (k none).run []
  | .get k, b :: s => (k (some b)).run s
  | .put b k, s => ((k.run s).1, b :: (k.run s).2.1, (k.run s).2.2)

def putAll : List β → Proc β α → Proc β α
  | [], k => k
  | b :: bs, k => .put b (putAll bs k)

/-- Take `n` elements, or `none` if the stream ends before. -/
def getExact : (n : ℕ) → Proc β (Option {bs : List β // bs.length = n})
  | 0 => .done (some ⟨[], rfl⟩)
  | n+1 => .get fun
    | none => .done none
    | some b => getExact n >>= fun bs =>
      .done (bs.map fun bs => ⟨b :: bs.1, congrArg (·+1) bs.2⟩)

theorem run_bind (p : Proc β α) (f : α → Proc β α') (s : List β) :
    (p >>= f).run s =
      (((f (p.run s).1).run (p.run s).2.2).1,
        (p.run s).2.1 ++ ((f (p.run s).1).run (p.run s).2.2).2.1,
        ((f (p.run s).1).run (p.run s).2.2).2.2) := by
  induction p generalizing s with
  | done a => rfl
  | get k ih =>
    cases s with
    | nil => exact ih none []
    | cons b s => exact ih (some b) s
  | put b k ih => exact congrArg (fun r => (r.1, b :: r.2.1, r.2.2)) (ih s)

/-- A stream that is too short is read to its end. -/
theorem run_getExact_short {n : ℕ} {s : List β} (h : s.length < n) :
    (getExact n).run s = (none, [], []) := by
  induction n generalizing s with
  | zero => exact absurd h (Nat.not_lt_zero _)
  | succ n ih =>
    cases s with
    | nil => rfl
    | cons b s =>
      have htail := ih (Nat.lt_of_succ_lt_succ h)
      rw [getExact, run, run_bind, htail]
      rfl

end Proc

/-- The process takes exactly `xs`, puts `ys` and goes on as `q`. -/
inductive Says {β α : Type} : Proc β α → List β → List β → Proc β α → Prop
  | nil (p) : Says p [] [] p
  | get {k b xs ys q} (h : Says (k (some b)) xs ys q) : Says (.get k) (b :: xs) ys q
  | put {k b xs ys q} (h : Says k xs ys q) : Says (.put b k) xs (b :: ys) q

namespace Says

variable {β α α' : Type} {p q r : Proc β α} {xs xs' ys ys' : List β}

theorem trans (h : Says p xs ys q) (h' : Says q xs' ys' r) :
    Says p (xs ++ xs') (ys ++ ys') r := by
  induction h with
  | nil p => exact h'
  | get _ ih => exact .get (ih h')
  | put _ ih => exact .put (ih h')

theorem bind (h : Says p xs ys q) (f : α → Proc β α') : Says (p >>= f) xs ys (q >>= f) := by
  induction h with
  | nil p => exact .nil _
  | get _ ih => exact .get ih
  | put _ ih => exact .put ih

/-- A process whose first part comes to an end. -/
theorem bind_done {a : α} {f : α → Proc β α'} {q : Proc β α'} (h : Says p xs ys (.done a))
    (h' : Says (f a) xs' ys' q) : Says (p >>= f) (xs ++ xs') (ys ++ ys') q :=
  (h.bind f).trans h'

theorem putAll (bs : List β) (k : Proc β α) : Says (Proc.putAll bs k) [] bs k := by
  induction bs with
  | nil => exact .nil k
  | cons b bs ih => exact .put ih

theorem getExact {n : ℕ} (h : xs.length = n) :
    Says (Proc.getExact n) xs [] (.done (some ⟨xs, h⟩)) := by
  subst h
  induction xs with
  | nil => exact .nil _
  | cons x xs ih => exact .get (ih.bind _)

/-- On a stream that begins with what the process takes. -/
theorem run_eq (h : Says p xs ys q) (s : List β) :
    p.run (xs ++ s) = ((q.run s).1, ys ++ (q.run s).2.1, (q.run s).2.2) := by
  induction h with
  | nil p => rfl
  | get _ ih => exact ih
  | put _ ih =>
    rw [Proc.run, ih]
    rfl

end Says

section Talks

variable {β ε α γ : Type} {x : ExceptT ε (Proc β) α} {f : α → ExceptT ε (Proc β) γ} {a : α} {e : ε}
  {xs xs' ys ys' : List β} {r : Except ε γ}

/-- The same for code that may fail and comes to an end: it takes exactly `xs`, puts `ys` and has
this result. -/
def Talks (x : ExceptT ε (Proc β) α) (xs ys : List β) (r : Except ε α) : Prop :=
  Says x.run xs ys (.done r)

theorem Talks.throw (e : ε) : Talks (throw e : ExceptT ε (Proc β) α) [] [] (.error e) := Says.nil _

theorem Talks.lift (r : Except ε α) : Talks (liftM r : ExceptT ε (Proc β) α) [] [] r := Says.nil _

theorem Talks.bind (h : Talks x xs ys (.ok a)) (h' : Talks (f a) xs' ys' r) :
    Talks (x >>= f) (xs ++ xs') (ys ++ ys') r := Says.bind_done h h'

/-- A continuation that takes nothing more. -/
theorem Talks.bind_put (h : Talks x xs ys (.ok a)) (h' : Talks (f a) [] ys' r) :
    Talks (x >>= f) xs (ys ++ ys') r := by
  have hb := h.bind h'
  rwa [List.append_nil] at hb

/-- A last step that only computes. -/
theorem Talks.bind_pure (h : Talks x xs ys (.ok a)) (g : α → γ) :
    Talks (x >>= fun a => Pure.pure (g a)) xs ys (.ok (g a)) :=
  Says.bind h (ExceptT.bindCont fun a => Pure.pure (g a))

theorem Talks.bind_throw (h : Talks x xs ys (.ok a)) (e : ε) :
    Talks (x >>= fun _ => (MonadExcept.throw e : ExceptT ε (Proc β) γ)) xs ys (.error e) :=
  Says.bind h (ExceptT.bindCont fun _ => (MonadExcept.throw e : ExceptT ε (Proc β) γ))

theorem Talks.bind_error (h : Talks x xs ys (.error e)) : Talks (x >>= f) xs ys (.error e) :=
  Says.bind h (ExceptT.bindCont f)

/-- The code has come to an end, and something else goes on with its result. -/
theorem Talks.and_then {r : Except ε α} (h : Talks x xs ys r) (k : Except ε α → Proc β γ) :
    Says (x.run >>= k) xs ys (k r) := Says.bind h k

/-- A part of the code has come to an end. -/
theorem Talks.says_bind {δ : Type} (h : Talks x xs ys (.ok a)) (k : Except ε γ → Proc β δ) :
    Says ((x >>= f).run >>= k) xs ys ((f a).run >>= k) :=
  Says.bind (Says.bind h (ExceptT.bindCont f)) k

/-- What is left of the stream is for the continuation. -/
theorem Talks.run_bind (h : Talks x xs ys (.ok a)) (s : List β) :
    (x >>= f).run.run (xs ++ s) =
      (((f a).run.run s).1, ys ++ ((f a).run.run s).2.1, ((f a).run.run s).2.2) :=
  Says.run_eq (Says.bind h (ExceptT.bindCont f)) s

theorem run_bind_ok {s rest : List β} (h : x.run.run s = (.ok a, ys, rest)) :
    (x >>= f).run.run s =
      (((f a).run.run rest).1, ys ++ ((f a).run.run rest).2.1, ((f a).run.run rest).2.2) := by
  have hb := Proc.run_bind x.run (ExceptT.bindCont f) s
  rw [h] at hb
  exact hb

/-- Code that fails on a stream fails there with every continuation. -/
theorem run_bind_error {s rest : List β} (h : x.run.run s = (.error e, ys, rest)) :
    (x >>= f).run.run s = (.error e, ys, rest) := by
  have hb := Proc.run_bind x.run (ExceptT.bindCont f) s
  rw [h] at hb
  refine hb.trans (Prod.ext rfl (Prod.ext ?_ rfl))
  exact List.append_nil ys

theorem Talks.run_eq {r : Except ε α} (h : Talks x xs ys r) (s : List β) :
    x.run.run (xs ++ s) = (r, ys, s) := by
  have hrun := Says.run_eq h s
  rw [Proc.run, List.append_nil] at hrun
  exact hrun

end Talks

section Accepts

variable {β ε α γ : Type} {x : ExceptT ε (Proc β) α} {f : α → ExceptT ε (Proc β) γ} {a : α} {c : γ}
  {s rest : List β}

/-- The code succeeds on the stream `s` with the result `a`, and `rest` is left unread. -/
def Accepts (x : ExceptT ε (Proc β) α) (s : List β) (a : α) (rest : List β) : Prop :=
  ∃ ys, x.run.run s = (.ok a, ys, rest)

theorem Talks.accepts {xs ys : List β} (h : Talks x xs ys (.ok a)) (rest : List β) :
    Accepts x (xs ++ rest) a rest := ⟨ys, h.run_eq rest⟩

theorem accepts_bind_iff :
    Accepts (x >>= f) s c rest ↔ ∃ a mid, Accepts x s a mid ∧ Accepts (f a) mid c rest := by
  constructor
  · rintro ⟨ys, h⟩
    obtain ⟨⟨r, xs, mid⟩, hx⟩ : ∃ out, x.run.run s = out := ⟨_, rfl⟩
    cases r with
    | error e => cases (run_bind_error hx).symm.trans h
    | ok a =>
      have hrun := (run_bind_ok hx).symm.trans h
      simp only [Prod.mk.injEq] at hrun
      exact ⟨a, mid, ⟨xs, hx⟩, _, Prod.ext hrun.1 (Prod.ext rfl hrun.2.2)⟩
  · rintro ⟨a, mid, ⟨ys, hx⟩, zs, hf⟩
    refine ⟨ys ++ zs, ?_⟩
    rw [run_bind_ok hx, hf]

theorem accepts_pure_iff {a' : α} :
    Accepts (pure a' : ExceptT ε (Proc β) α) s a rest ↔ a' = a ∧ s = rest := by
  constructor
  · rintro ⟨ys, h⟩
    cases h
    exact ⟨rfl, rfl⟩
  · rintro ⟨rfl, rfl⟩
    exact ⟨[], rfl⟩

/-- An early return with an error, as `do` notation has it. -/
theorem accepts_guard_iff {p : Prop} [Decidable p] {e : ε}
    {k : PUnit → ExceptT ε (Proc β) α} :
    Accepts (if p then throw e >>= k else x) s a rest ↔ ¬p ∧ Accepts x s a rest := by
  by_cases hp : p
  · rw [if_pos hp]
    refine iff_of_false ?_ fun h => h.1 hp
    rintro ⟨ys, h⟩
    cases h
  · rw [if_neg hp, and_iff_right hp]

end Accepts

/-- Both parties, with what is under way to each of them. -/
structure Config (β α α' : Type) where
  left : Proc β α
  right : Proc β α'
  toRight : List β
  toLeft : List β

section Steps

variable {β α α' : Type}

/-- One step of one party. The end of a stream shows when the other party is done and nothing is
under way. -/
inductive Step : Config β α α' → Config β α α' → Prop
  | leftPut {b k q tr tl} : Step ⟨.put b k, q, tr, tl⟩ ⟨k, q, tr ++ [b], tl⟩
  | leftGet {k q tr b tl} : Step ⟨.get k, q, tr, b :: tl⟩ ⟨k (some b), q, tr, tl⟩
  | leftEof {k a tr} : Step ⟨.get k, .done a, tr, []⟩ ⟨k none, .done a, tr, []⟩
  | rightPut {p b k tr tl} : Step ⟨p, .put b k, tr, tl⟩ ⟨p, k, tr, tl ++ [b]⟩
  | rightGet {p k b tr tl} : Step ⟨p, .get k, b :: tr, tl⟩ ⟨p, k (some b), tr, tl⟩
  | rightEof {a k tl} : Step ⟨.done a, .get k, [], tl⟩ ⟨.done a, k none, [], tl⟩

variable {c c₁ c₂ f : Config β α α'}

/-- Each party is deterministic, and steps of different parties commute. -/
theorem Step.diamond (h₁ : Step c c₁) (h₂ : Step c c₂) : c₁ = c₂ ∨ ∃ d, Step c₁ d ∧ Step c₂ d := by
  cases h₁ with
  | leftPut =>
    cases h₂ with
    | leftPut => exact Or.inl rfl
    | rightPut => exact Or.inr ⟨_, .rightPut, .leftPut⟩
    | rightGet => exact Or.inr ⟨_, .rightGet, .leftPut⟩
  | leftGet =>
    cases h₂ with
    | leftGet => exact Or.inl rfl
    | rightPut => exact Or.inr ⟨_, .rightPut, .leftGet⟩
    | rightGet => exact Or.inr ⟨_, .rightGet, .leftGet⟩
  | leftEof =>
    cases h₂ with
    | leftEof => exact Or.inl rfl
  | rightPut =>
    cases h₂ with
    | leftPut => exact Or.inr ⟨_, .leftPut, .rightPut⟩
    | leftGet => exact Or.inr ⟨_, .leftGet, .rightPut⟩
    | rightPut => exact Or.inl rfl
  | rightGet =>
    cases h₂ with
    | leftPut => exact Or.inr ⟨_, .leftPut, .rightGet⟩
    | leftGet => exact Or.inr ⟨_, .leftGet, .rightGet⟩
    | rightGet => exact Or.inl rfl
  | rightEof =>
    cases h₂ with
    | rightEof => exact Or.inl rfl

/-- No run goes on for ever: every step uses up a part of one of the processes. -/
theorem Step.acc (p : Proc β α) (q : Proc β α') (tr tl : List β) :
    Acc (fun c' c => Step c c') (Config.mk p q tr tl) := by
  induction p generalizing q tr tl with
  | done a =>
    induction q generalizing tr tl with
    | done a' => exact ⟨_, nofun⟩
    | get k ih =>
      constructor
      rintro _ (_ | _ | _ | _ | _ | _)
      · exact ih _ _ _
      · exact ih _ _ _
    | put b k ih =>
      constructor
      rintro _ (_ | _ | _ | _ | _ | _)
      exact ih _ _
  | get k ih =>
    induction q generalizing tr tl with
    | done a' =>
      constructor
      rintro _ (_ | _ | _ | _ | _ | _)
      · exact ih _ _ _ _
      · exact ih _ _ _ _
    | get k' ih' =>
      constructor
      rintro _ (_ | _ | _ | _ | _ | _)
      · exact ih _ _ _ _
      · exact ih' _ _ _
    | put b k' ih' =>
      constructor
      rintro _ (_ | _ | _ | _ | _ | _)
      · exact ih _ _ _ _
      · exact ih' _ _
  | put b k ih =>
    induction q generalizing tr tl with
    | done a' =>
      constructor
      rintro _ (_ | _ | _ | _ | _ | _)
      exact ih _ _ _
    | get k' ih' =>
      constructor
      rintro _ (_ | _ | _ | _ | _ | _)
      · exact ih _ _ _
      · exact ih' _ _ _
    | put b' k' ih' =>
      constructor
      rintro _ (_ | _ | _ | _ | _ | _)
      · exact ih _ _ _
      · exact ih' _ _

theorem Step.not_done {a : α} {a' : α'} {tr tl : List β} (d : Config β α α') :
    ¬Step ⟨.done a, .done a', tr, tl⟩ d := by
  intro h
  cases h

/-- Every run is finite, and wherever it stops it stops in `f`. -/
structure EndsIn (c f : Config β α α') : Prop where
  finite : Acc (fun c' c => Step c c') c
  final : ∀ d, Relation.ReflTransGen Step c d → (∀ d', ¬Step d d') → d = f

/-- One run that comes to an end decides for all. -/
theorem EndsIn.of_run (h : Relation.ReflTransGen Step c f) (hf : ∀ d, ¬Step f d) :
    EndsIn c f := by
  refine ⟨Step.acc c.left c.right c.toRight c.toLeft, ?_⟩
  intro d hd hstuck
  obtain ⟨e, hde, hfe⟩ := Relation.church_rosser (fun a b c hb hc => by
    rcases hb.diamond hc with rfl | ⟨d, h₁, h₂⟩
    · exact ⟨_, .refl, .refl⟩
    · exact ⟨d, .single h₁, .single h₂⟩) hd h
  have hd' : d = e := by
    rcases hde.cases_head with h | ⟨d', h, -⟩
    · exact h
    · exact absurd h (hstuck d')
  have hf' : f = e := by
    rcases hfe.cases_head with h | ⟨d', h, -⟩
    · exact h
    · exact absurd h (hf d')
  rw [hd', hf']

variable {p p' : Proc β α} {q q' : Proc β α'} {xs ys : List β}

/-- What a party says it can say whenever the stream to it holds what it takes. -/
theorem Says.left (h : Says p xs ys p') (q : Proc β α') (tr tl : List β) :
    Relation.ReflTransGen Step (Config.mk p q tr (xs ++ tl)) (Config.mk p' q (tr ++ ys) tl) := by
  induction h generalizing tr with
  | nil p =>
    rw [List.append_nil]
    exact .refl
  | get _ ih => exact .head .leftGet (ih tr)
  | @put k b xs ys q' _ ih =>
    rw [List.append_cons]
    exact .head .leftPut (ih _)

theorem Says.right (h : Says q xs ys q') (p : Proc β α) (tr tl : List β) :
    Relation.ReflTransGen Step (Config.mk p q (xs ++ tr) tl) (Config.mk p q' tr (tl ++ ys)) := by
  induction h generalizing tl with
  | nil p =>
    rw [List.append_nil]
    exact .refl
  | get _ ih => exact .head .rightGet (ih tl)
  | @put k b xs ys q' _ ih =>
    rw [List.append_cons]
    exact .head .rightPut (ih _)

end Steps

end GravitalShare.Duplex
