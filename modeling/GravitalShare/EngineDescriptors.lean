import GravitalShare.EngineProcess
import GravitalShare.Slots

/-! Every session has its own device behind its descriptor, from the call that brings it to the last
task that holds it. -/
namespace GravitalShare.Engine

open Slots

namespace Process

/-- What the calls and the sessions rely on. -/
def claim (s : Process) : ℕ ⊕ ℕ → Option (ℤ × Owner)
  | .inl i => (s.engine.calls i).pc.tunFd.map fun fd => (fd, .tun i)
  | .inr k => if s.owns k then (s.tunFd k).map fun fd => (fd, .tun (s.caller k)) else none

/-- Nobody will close it any more: it is not a device, or `start_client` has failed. -/
def Loose (s : Process) (o : Owner) : Prop :=
  o = .other ∨ ∃ i err, o = .tun i ∧ s.engine.calls i = .ready (.returned (.error err))

structure Ok (s : Process) : Prop where
  caller : ∀ k, (s.engine.tasks k).isAbsent = false →
    s.engine.calls (s.caller k) = .ready (.returned (.ok ()))
  apart : ∀ k k', (s.engine.tasks k).isAbsent = false → (s.engine.tasks k').isAbsent = false →
    s.caller k = s.caller k' → k = k'
  kept : Kept s.files s.claim s.Loose
  opened : ∀ k, (s.engine.tasks k).thread.pc.isOpen = true ∨
    (s.engine.tasks k).plane.isSpawned = true → s.opened k = true
  spawned : ∀ k, (s.engine.tasks k).plane.isSpawned = true → s.tunFd k ≠ none

variable {s : Process} {k : ℕ}

theorem isAbsent_of_tunFd (h : s.tunFd k ≠ none) : (s.engine.tasks k).isAbsent = false := by
  unfold tunFd at h
  unfold Task.isAbsent
  cases hpc : (s.engine.tasks k).thread.pc with
  | absent => exact absurd (by rw [hpc]; rfl) h
  | _ => rfl

theorem claim_call {i : ℕ} {c : ℤ × Owner} (h : s.claim (.inl i) = some c) :
    (s.engine.calls i).pc.tunFd = some c.1 ∧ c.2 = .tun i := by
  obtain ⟨fd, hfd, rfl⟩ := Option.map_eq_some_iff.mp h
  exact ⟨hfd, rfl⟩

theorem claim_session {c : ℤ × Owner} (h : s.claim (.inr k) = some c) :
    s.owns k = true ∧ s.tunFd k = some c.1 ∧ c.2 = .tun (s.caller k) := by
  rw [claim] at h
  split_ifs at h with ho
  obtain ⟨fd, hfd, rfl⟩ := Option.map_eq_some_iff.mp h
  exact ⟨ho, hfd, rfl⟩

theorem claim_of_owns {fd : ℤ} (ho : s.owns k = true) (hfd : s.tunFd k = some fd) :
    s.claim (.inr k) = some (fd, .tun (s.caller k)) := by
  rw [claim, if_pos ho, hfd]
  rfl

/-- The call of a session has returned and has nothing to do with its descriptor any more. -/
theorem Ok.call_ne (h : s.Ok) {i : ℕ} {fd : ℤ} (hi : (s.engine.calls i).pc.tunFd = some fd)
    (hk : (s.engine.tasks k).isAbsent = false) : s.caller k ≠ i := by
  rintro rfl
  rw [h.caller k hk] at hi
  cases hi

theorem Ok.claims_apart (h : s.Ok) : Apart s.claim := by
  have hpresent {k : ℕ} {c : ℤ × Owner} (hc : s.claim (.inr k) = some c) :
      (s.engine.tasks k).isAbsent = false :=
    isAbsent_of_tunFd ((claim_session hc).2.1 ▸ Option.some_ne_none _)
  have hmixed {i k : ℕ} {n m : ℤ} {o : Owner} (hi : s.claim (.inl i) = some (n, o))
      (hk : s.claim (.inr k) = some (m, o)) : False := by
    obtain ⟨hfd, ho⟩ := claim_call hi
    obtain ⟨-, -, ho'⟩ := claim_session hk
    exact h.call_ne hfd (hpresent hk) (Owner.tun.inj (ho'.symm.trans ho))
  intro p q n m o hp hq
  cases p with
  | inl i =>
    cases q with
    | inl j =>
      have hcall := Owner.tun.inj ((claim_call hp).2.symm.trans (claim_call hq).2)
      exact congrArg Sum.inl hcall
    | inr k => exact (hmixed hp hq).elim
  | inr k =>
    cases q with
    | inl i => exact (hmixed hq hp).elim
    | inr k' =>
      have hcaller := Owner.tun.inj ((claim_session hp).2.2.symm.trans (claim_session hq).2.2)
      exact congrArg Sum.inr (h.apart k k' (hpresent hp) (hpresent hq) hcaller)

theorem ok_new : new.Ok where
  caller _ hk := by cases hk
  apart _ _ hk := by cases hk
  kept := by
    refine ⟨?_, nofun⟩
    intro p n o hp
    cases p with
    | inl i => cases hp
    | inr k => cases hp
  opened _ hk := by rcases hk with hk | hk <;> cases hk
  spawned _ hk := by cases hk

/-- What a call that goes on leaves as it was. -/
theorem Loose.goes {s' : Process} {i : ℕ} (hg : Goes s.engine s'.engine i) {o : Owner}
    (ho : s.Loose o) : s'.Loose o := by
  rcases ho with rfl | ⟨j, err, rfl, hj⟩
  · exact Or.inl rfl
  · have hne : j ≠ i := fun he => hg.1 _ (he ▸ hj)
    exact Or.inr ⟨j, err, rfl, (hg.2 j hne).trans hj⟩

theorem Ok.caller_goes (h : s.Ok) {e' : World} {i : ℕ} (hg : Goes s.engine e' i)
    (hk : (s.engine.tasks k).isAbsent = false) :
    e'.calls (s.caller k) = .ready (.returned (.ok ())) := by
  have hc := h.caller k hk
  have hne : s.caller k ≠ i := fun he => hg.1 _ (he ▸ hc)
  rw [hg.2 _ hne, hc]

/-- The sessions stay as they are, up to where their threads are in a `dispatch`. -/
structure SameTasks (e e' : World) : Prop where
  pc : ∀ k, (e'.tasks k).thread.pc = (e.tasks k).thread.pc
  plane : ∀ k, (e'.tasks k).plane = (e.tasks k).plane

theorem SameTasks.isAbsent {e e' : World} (h : SameTasks e e') (k : ℕ) :
    (e'.tasks k).isAbsent = (e.tasks k).isAbsent := by
  rw [Task.isAbsent, h.pc, Task.isAbsent]

theorem SameTasks.claim {e' : World} (h : SameTasks s.engine e') (files : ℤ → Option Owner)
    (k : ℕ) : claim { s with engine := e', files } (.inr k) = s.claim (.inr k) := by
  have ho : (e'.tasks k).ownsTun (s.opened k) = s.owns k := by
    rw [Task.ownsTun, h.pc, h.plane]
    rfl
  have hfd : (e'.tasks k).thread.pc.tunFd = s.tunFd k := congrArg TaskPc.tunFd (h.pc k)
  show (if (e'.tasks k).ownsTun (s.opened k) then (e'.tasks k).thread.pc.tunFd.map _ else none) = _
  rw [ho, hfd]
  rfl

/-- A step that leaves the sessions alone. -/
theorem Ok.of_sameTasks (h : s.Ok) {e' : World} {files : ℤ → Option Owner}
    (hsame : SameTasks s.engine e')
    (hcaller : ∀ k, (s.engine.tasks k).isAbsent = false →
      e'.calls (s.caller k) = .ready (.returned (.ok ())))
    (hkept : Kept files (claim { s with engine := e', files })
      (Loose { s with engine := e', files })) : Ok { s with engine := e', files } where
  caller k hk := hcaller k (hsame.isAbsent k ▸ hk)
  apart k k' hk hk' := h.apart k k' (hsame.isAbsent k ▸ hk) (hsame.isAbsent k' ▸ hk')
  kept := hkept
  opened k hk := h.opened k (by rwa [hsame.pc, hsame.plane] at hk)
  spawned k hk := by
    show (e'.tasks k).thread.pc.tunFd ≠ none
    rw [hsame.pc]
    exact h.spawned k (by rwa [hsame.plane] at hk)

/-- A step of one session, which keeps its descriptor or closes it. -/
theorem Ok.of_task (h : s.Ok) {e' : World} {opened : Bool} (hcalls : e'.calls = s.engine.calls)
    (htasks : ∀ k', k' ≠ k → e'.tasks k' = s.engine.tasks k')
    (hfd : (e'.tasks k).thread.pc.tunFd = s.tunFd k)
    (howns : (e'.tasks k).ownsTun opened = true → s.owns k = true)
    (habsent : (e'.tasks k).isAbsent = (s.engine.tasks k).isAbsent)
    (hopen : (e'.tasks k).thread.pc.isOpen = true ∨ (e'.tasks k).plane.isSpawned = true →
      opened = true)
    (hspawn : (e'.tasks k).plane.isSpawned = true → s.tunFd k ≠ none) :
    Ok { s with
      engine := e'
      files := s.filesAfter k (e'.tasks k) opened
      opened := Function.update s.opened k opened } := by
  have habs (k' : ℕ) : (e'.tasks k').isAbsent = (s.engine.tasks k').isAbsent := by
    rcases eq_or_ne k' k with rfl | hne
    · exact habsent
    · rw [htasks k' hne]
  set s' : Process := { s with
      engine := e'
      files := s.filesAfter k (e'.tasks k) opened
      opened := Function.update s.opened k opened } with hs'
  have howns' : s'.owns k = (e'.tasks k).ownsTun opened := by
    show (e'.tasks k).ownsTun (Function.update s.opened k opened k) = _
    rw [Function.update_self]
  have hother (k' : ℕ) (hne : k' ≠ k) : s'.owns k' = s.owns k' ∧ s'.tunFd k' = s.tunFd k' := by
    show (e'.tasks k').ownsTun (Function.update s.opened k opened k') = _ ∧
      (e'.tasks k').thread.pc.tunFd = _
    rw [htasks k' hne, Function.update_of_ne hne]
    exact ⟨rfl, rfl⟩
  have hsame (p : ℕ ⊕ ℕ) (hp : p ≠ .inr k) : s'.claim p = s.claim p := by
    cases p with
    | inl i =>
      show (e'.calls i).pc.tunFd.map _ = _
      rw [hcalls]
      rfl
    | inr k' =>
      obtain ⟨ho, hf⟩ := hother k' fun he => hp (he ▸ rfl)
      rw [claim, claim, ho, hf]
  have hloose (o : Owner) (ho : s.Loose o) : s'.Loose o := by
    unfold Loose at ho ⊢
    show _ ∨ ∃ i err, _ ∧ e'.calls i = _
    rwa [hcalls]
  refine ⟨?_, ?_, ?_, ?_, ?_⟩
  · intro k' hk'
    show e'.calls (s.caller k') = _
    rw [hcalls]
    exact h.caller k' (habs k' ▸ hk')
  · intro k₁ k₂ h₁ h₂
    exact h.apart k₁ k₂ (habs k₁ ▸ h₁) (habs k₂ ▸ h₂)
  · -- the session lets go of its descriptor, or nothing changes
    show Kept (s.filesAfter k (e'.tasks k) opened) s'.claim s'.Loose
    have hfd' : s'.tunFd k = s.tunFd k := hfd
    unfold filesAfter
    cases hk : s.tunFd k with
    | none =>
      refine h.kept.congr ?_ hloose
      intro p
      rcases eq_or_ne p (.inr k) with rfl | hne
      · rw [claim, claim, hfd', hk]
        split_ifs <;> rfl
      · exact hsame p hne
    | some fd =>
      by_cases hrel : s.owns k = true ∧ (e'.tasks k).ownsTun opened = false
      · have hcond : (s.owns k && !(e'.tasks k).ownsTun opened) = true := by
          rw [hrel.1, hrel.2]
          rfl
        simp only [hcond, if_true]
        refine (h.kept.congr (fun _ => rfl) hloose).release hsame h.claims_apart
          (claim_of_owns hrel.1 hk) ?_
        rw [claim, howns', hrel.2]
        rfl
      · have heq : s.owns k = (e'.tasks k).ownsTun opened := by
          cases ho : (e'.tasks k).ownsTun opened with
          | true => exact howns ho
          | false => exact Bool.eq_false_iff.mpr fun hs => hrel ⟨hs, ho⟩
        have hcond : (s.owns k && !(e'.tasks k).ownsTun opened) = false := by
          rw [heq, Bool.and_not_self]
        simp only [hcond]
        refine h.kept.congr ?_ hloose
        intro p
        rcases eq_or_ne p (.inr k) with rfl | hne
        · rw [claim, claim, hfd', howns', heq]
        · exact hsame p hne
  · intro k' hk'
    show Function.update s.opened k opened k' = true
    rcases eq_or_ne k' k with rfl | hne
    · rw [Function.update_self]
      exact hopen hk'
    · rw [Function.update_of_ne hne]
      exact h.opened k' (htasks k' hne ▸ hk')
  · intro k' hk'
    rcases eq_or_ne k' k with rfl | hne
    · exact fun hn => hspawn hk' (hfd.symm.trans hn)
    · rw [(hother k' hne).2]
      exact h.spawned k' (htasks k' hne ▸ hk')

/-- A call that goes on and keeps its descriptor, or has never had one. -/
theorem Ok.of_call (h : s.Ok) {e' : World} {i : ℕ} (hsame : SameTasks s.engine e')
    (hg : Goes s.engine e' i)
    (hfd : (e'.calls i).pc.tunFd = (s.engine.calls i).pc.tunFd) : Ok { s with engine := e' } := by
  refine h.of_sameTasks hsame (fun k hk => h.caller_goes hg hk) ?_
  refine h.kept.congr ?_ fun o ho => ho.goes hg
  intro p
  cases p with
  | inl j =>
    rcases eq_or_ne j i with rfl | hne
    · show (e'.calls j).pc.tunFd.map _ = _
      rw [hfd]
      rfl
    · show (e'.calls j).pc.tunFd.map _ = _
      rw [hg.2 j hne]
      rfl
  | inr k => exact hsame.claim s.files k

/-- A call that fails leaves the device open. -/
theorem Ok.of_failed (h : s.Ok) {e' : World} {i : ℕ} {err : EngineError}
    (hsame : SameTasks s.engine e') (hg : Goes s.engine e' i)
    (herr : e'.calls i = .ready (.returned (.error err))) : Ok { s with engine := e' } := by
  cases hfd : (s.engine.calls i).pc.tunFd with
  | none => exact h.of_call hsame hg (by rw [herr, hfd]; rfl)
  | some fd =>
    refine h.of_sameTasks hsame (fun k hk => h.caller_goes hg hk) ?_
    have hclaim : s.claim (.inl i) = some (fd, .tun i) := by
      rw [claim, hfd]
      rfl
    refine h.kept.abandon (p := .inl i) ?_ hclaim ?_ (fun o ho => ho.goes hg)
      (Or.inr ⟨i, err, rfl, herr⟩)
    · intro p hp
      cases p with
      | inl j =>
        show (e'.calls j).pc.tunFd.map _ = _
        rw [hg.2 j fun he => hp (he ▸ rfl)]
        rfl
      | inr k => exact hsame.claim s.files k
    · show (e'.calls i).pc.tunFd.map _ = none
      rw [herr]
      rfl

/-- A call that begins takes the device that it is given. -/
theorem Ok.of_startClient (h : s.Ok) {e' : World} {i : ℕ} {fd : ℤ} {cfg : ClientConfig}
    (hfd : 0 ≤ fd) (hfree : s.files fd = none)
    (hstep : EngineStep s.engine (.request i (.start (.client fd cfg))) e') :
    Ok { s with engine := e', files := Function.update s.files fd (some (.tun i)) } := by
  obtain ⟨hc, rfl⟩ := hstep.request_inv
  have hentry : Request.entry (.start (.client fd cfg)) = .checkState (.client fd cfg) :=
    if_neg (not_lt.mpr hfd)
  have hg := goes_setCall hc nofun (.ready (.checkState (.client fd cfg)))
  have hsame : SameTasks s.engine
      (s.engine.setCall i (.ready (.checkState (.client fd cfg)))) := ⟨fun _ => rfl, fun _ => rfl⟩
  rw [hentry]
  refine h.of_sameTasks hsame (fun k hk => h.caller_goes hg hk) ?_
  refine (h.kept.congr (fun _ => rfl) fun o ho => ?_).take (p := .inl i) ?_ hfree ?_ ?_
  · exact ho.goes hg
  · intro p hp
    cases p with
    | inl j =>
      show ((s.engine.setCall i _).calls j).pc.tunFd.map _ = _
      rw [hg.2 j fun he => hp (he ▸ rfl)]
      rfl
    | inr k => exact hsame.claim _ k
  · rw [claim, hc]
    rfl
  · show ((s.engine.setCall i _).calls i).pc.tunFd.map _ = _
    rw [World.calls_setCall_self]
    rfl

theorem claim_absent (hk : (s.engine.tasks k).isAbsent = true) : s.claim (.inr k) = none := by
  cases hc : s.claim (.inr k) with
  | none => rfl
  | some c =>
    have hfd : s.tunFd k ≠ none := (claim_session hc).2.1 ▸ Option.some_ne_none _
    cases (isAbsent_of_tunFd hfd).symm.trans hk

/-- Where a session stems from that is not there does not matter. -/
theorem Ok.of_caller (h : s.Ok) {caller : ℕ → ℕ}
    (hc : ∀ k, (s.engine.tasks k).isAbsent = false → caller k = s.caller k) :
    Ok { s with caller } where
  caller k hk := by
    show s.engine.calls (caller k) = _
    rw [hc k hk]
    exact h.caller k hk
  apart k k' hk hk' heq := h.apart k k' hk hk' (by rwa [← hc k hk, ← hc k' hk'])
  kept := by
    refine h.kept.congr ?_ fun _ ho => ho
    intro p
    cases p with
    | inl i => rfl
    | inr k =>
      cases hk : (s.engine.tasks k).isAbsent with
      | true => exact (@claim_absent { s with caller } k hk).trans (claim_absent hk).symm
      | false =>
        rw [claim, claim]
        simp only [hc k hk]
        rfl
  opened := h.opened
  spawned := h.spawned

/-- The descriptor goes from the call to the task that it spawns. -/
theorem Ok.of_spawn (h : s.Ok) {i : ℕ} {st : Start} {rx : ℕ}
    (hc : s.engine.calls i = .ready (.spawn st rx)) (hk : s.engine.tasks k = .absent)
    (hcaller : s.caller k = i) :
    Ok { s with engine :=
      (s.engine.setCall i (.ready (.returned (.ok ())))).setTask k (st.task rx) } := by
  set e' := (s.engine.setCall i (.ready (.returned (.ok ())))).setTask k (st.task rx) with he'
  have hg : Goes s.engine e' i := goes_setCall hc nofun _
  have hnew : e'.tasks k = st.task rx := World.tasks_setTask_self _ _ _
  have hold (k' : ℕ) (hne : k' ≠ k) : e'.tasks k' = s.engine.tasks k' :=
    Function.update_of_ne hne _ _
  have hret : e'.calls i = .ready (.returned (.ok ())) :=
    World.calls_setCall_self s.engine i (.ready (.returned (.ok ())))
  -- no other session stems from a call that is still on its way
  have hfresh (k' : ℕ) (hk' : (s.engine.tasks k').isAbsent = false) : s.caller k' ≠ i := by
    intro heq
    have hover := h.caller k' hk'
    rw [heq, hc] at hover
    cases hover
  have hcases (k' : ℕ) : k' = k ∨ k' ≠ k ∧ e'.tasks k' = s.engine.tasks k' := by
    rcases eq_or_ne k' k with heq | hne
    · exact Or.inl heq
    · exact Or.inr ⟨hne, hold k' hne⟩
  refine ⟨?_, ?_, ?_, ?_, ?_⟩
  · intro k' hk'
    rcases hcases k' with rfl | ⟨hne, ht⟩
    · show e'.calls (s.caller k') = _
      rw [hcaller, hret]
    · exact h.caller_goes hg (ht ▸ hk')
  · intro k₁ k₂ h₁ h₂ heq
    rcases hcases k₁ with rfl | ⟨hne₁, ht₁⟩
    · rcases hcases k₂ with rfl | ⟨hne₂, ht₂⟩
      · rfl
      · exact absurd (heq.symm.trans hcaller) (hfresh k₂ (ht₂ ▸ h₂))
    · rcases hcases k₂ with rfl | ⟨hne₂, ht₂⟩
      · exact absurd (heq.trans hcaller) (hfresh k₁ (ht₁ ▸ h₁))
      · exact h.apart k₁ k₂ (ht₁ ▸ h₁) (ht₂ ▸ h₂) heq
  · refine (h.kept.congr (fun _ => rfl) fun o ho => ?_).move (p := .inl i) (q := .inr k) ?_ ?_ ?_ ?_
    · exact ho.goes hg
    · intro p hp hq
      cases p with
      | inl j =>
        show (e'.calls j).pc.tunFd.map _ = _
        rw [hg.2 j fun he => hp (he ▸ rfl)]
        rfl
      | inr k' =>
        have ht := hold k' fun he => hq (he ▸ rfl)
        show (if (e'.tasks k').ownsTun (s.opened k') then (e'.tasks k').thread.pc.tunFd.map _
          else none) = _
        rw [ht]
        rfl
    · show (e'.calls i).pc.tunFd.map _ = none
      rw [hret]
      rfl
    · exact claim_absent (by rw [hk]; rfl)
    · show (if (e'.tasks k).ownsTun (s.opened k) then (e'.tasks k).thread.pc.tunFd.map _
        else none) = (s.engine.calls i).pc.tunFd.map _
      rw [hnew, hc, hcaller]
      cases st with
      | server cfg => split_ifs <;> rfl
      | client fd cfg => exact if_pos rfl
  · intro k' hk'
    rcases hcases k' with rfl | ⟨hne, ht⟩
    · rw [hnew] at hk'
      cases st <;> rcases hk' with hk' | hk' <;> cases hk'
    · exact h.opened k' (ht ▸ hk')
  · intro k' hk'
    rcases hcases k' with rfl | ⟨hne, ht⟩
    · rw [hnew] at hk'
      cases st <;> cases hk'
    · show (e'.tasks k').thread.pc.tunFd ≠ none
      rw [ht]
      exact h.spawned k' (ht ▸ hk')

theorem claim_owner {p : ℕ ⊕ ℕ} {n : ℤ} {o : Owner} (h : s.claim p = some (n, o)) :
    ∃ i, o = .tun i := by
  cases p with
  | inl i => exact ⟨i, (claim_call h).2⟩
  | inr k => exact ⟨_, (claim_session h).2.2⟩

theorem entry_tunFd {r : Request} (hr : ∀ fd, r.tunFd = some fd → fd < 0) :
    r.entry.tunFd = none := by
  cases r with
  | start st =>
    cases st with
    | server cfg => rfl
    | client fd cfg =>
      rw [Request.entry, if_pos (hr fd rfl)]
      rfl
  | stop | shutdown => rfl

/-- The end of a `dispatch` that a session has called. -/
theorem Ok.of_return (h : s.Ok) {pc : TaskPc} {j : ℕ}
    (hpc : (s.engine.tasks k).thread = .calling pc j) :
    let e' := s.engine.setTask k { s.engine.tasks k with thread := .ready pc.resume }
    Ok { s with
      engine := e'
      files := s.filesAfter k (e'.tasks k) (s.opened k)
      opened := Function.update s.opened k (s.opened k) } := by
  intro e'
  obtain ⟨hfd, hopen, habsent⟩ := pc.resume_same
  have hnew : e'.tasks k = ⟨.ready pc.resume, (s.engine.tasks k).plane⟩ :=
    World.tasks_setTask_self _ _ _
  have hold : s.engine.tasks k = ⟨.calling pc j, (s.engine.tasks k).plane⟩ := by rw [← hpc]
  have hold' : s.tunFd k = pc.tunFd := congrArg (·.thread.pc.tunFd) hold
  refine h.of_task rfl (fun k' hne => Function.update_of_ne hne _ _) ?_ ?_ ?_ ?_ ?_
  · rw [hnew, hold']
    exact hfd
  · rw [hnew, owns, hold]
    exact ownsTun_resume
  · rw [hnew, hold]
    exact habsent
  · rw [hnew]
    intro ho
    refine h.opened k (ho.imp_left fun ho => ?_)
    rw [hold]
    exact hopen.symm.trans ho
  · rw [hnew]
    exact h.spawned k

theorem Ok.step {a : ProcessAct} {s' : Process} (h : s.Ok) (hstep : ProcessStep s a s') :
    s'.Ok := by
  cases hstep with
  | openOther hn =>
    exact ⟨h.caller, h.apart, h.kept.put hn (Or.inl rfl), h.opened, h.spawned⟩
  | @closeOther n hn =>
    refine ⟨h.caller, h.apart, h.kept.drop ?_, h.opened, h.spawned⟩
    intro p o hp
    obtain ⟨i, rfl⟩ := claim_owner hp
    cases (h.kept.held p n _ hp).symm.trans hn
  | startClient hfd hfree hs => exact h.of_startClient hfd hfree hs
  | @request i r e' hr hs =>
    obtain ⟨hc, rfl⟩ := hs.request_inv
    refine h.of_call ⟨fun _ => rfl, fun _ => rfl⟩ (goes_setCall hc nofun _) ?_
    rw [World.calls_setCall_self, hc]
    exact entry_tunFd hr
  | @call i e' hs =>
    have hcaller (k : ℕ) (hk : (s.engine.tasks k).isAbsent = false) :
        (if (s.engine.tasks k).isAbsent then i else s.caller k) = s.caller k := by
      rw [hk]
      rfl
    rcases hs.call_inv with ⟨htasks, hg, hfd⟩ | ⟨st, rx, k, hc, hk, rfl⟩
    · have hsame : SameTasks s.engine e' := ⟨fun k => by rw [htasks], fun k => by rw [htasks]⟩
      exact (h.of_caller hcaller).of_call hsame hg hfd
    · have hi : (if (s.engine.tasks k).isAbsent then i else s.caller k) = i := by
        rw [hk]
        rfl
      exact (h.of_caller hcaller).of_spawn hc hk hi
  | @quiet a e' ha hs =>
    obtain ⟨hsame, hcalls | ⟨i, hg, hfd | ⟨err, herr⟩⟩⟩ := hs.quiet_inv ha
    · have hsame' : SameTasks s.engine e' := ⟨fun k => (hsame k).1, fun k => (hsame k).2⟩
      refine h.of_sameTasks hsame' (fun k hk => by rw [hcalls]; exact h.caller k hk) ?_
      refine h.kept.congr ?_ ?_
      · intro p
        cases p with
        | inl j =>
          show (e'.calls j).pc.tunFd.map _ = _
          rw [hcalls]
          rfl
        | inr k => exact hsame'.claim s.files k
      · intro o ho
        unfold Loose at ho ⊢
        show _ ∨ ∃ i err, _ ∧ e'.calls i = _
        rwa [hcalls]
    · exact h.of_call ⟨fun k => (hsame k).1, fun k => (hsame k).2⟩ hg hfd
    · exact h.of_failed ⟨fun k => (hsame k).1, fun k => (hsame k).2⟩ hg herr
  | @taskReturn k j e' hs =>
    cases hs with
    | @taskReturn _ _ pc ev result hpc hd =>
      have hok := h.of_return hpc
      rwa [Function.update_eq_self] at hok
  | @task k a e' hs =>
    cases hs with
    | @task _ _ t' ht =>
      have hnew := World.tasks_setTask_self s.engine k t'
      refine h.of_task rfl (fun k' hne => Function.update_of_ne hne _ _) ?_ ?_ ?_ ?_ ?_
      · rw [hnew]
        exact ht.tunFd_eq
      · rw [hnew]
        exact ht.ownsTun_of
      · rw [hnew]
        exact ht.isAbsent_eq
      · rw [hnew]
        intro ho
        rcases ht.isOpen_of ho with hop | ho
        · rw [hop, Bool.or_true]
        · rw [h.opened k ho, Bool.true_or]
      · rw [hnew]
        intro hsp
        exact (ht.tunFd_of_spawned hsp).elim (h.spawned k) id

variable {s' : Process} {a : ProcessAct} {tr tr' : List (Process × ProcessAct)}

theorem run_ok (h : Run ProcessStep new tr s) : s.Ok :=
  h.invariant Ok ok_new fun _ _ _ hok hstep => hok.step hstep

theorem engine_cases (h : ProcessStep s a s') :
    s'.engine = s.engine ∨ ∃ b, a = .engine b ∧ EngineStep s.engine b s'.engine := by
  cases h with
  | openOther | closeOther => exact Or.inl rfl
  | startClient _ _ h | request _ h | call h | quiet _ h | taskReturn h | task h =>
    exact Or.inr ⟨_, rfl, h⟩

theorem run_engine (h : Run ProcessStep new tr s) :
    ∃ tr', Run EngineStep World.new tr' s.engine := by
  refine h.invariant (fun s => ∃ tr', Run EngineStep World.new tr' s.engine) ⟨[], Run.nil⟩ ?_
  rintro s a s' ⟨tr', hrun⟩ hstep
  rcases engine_cases hstep with hsame | ⟨b, -, hs⟩
  · exact ⟨tr', hsame ▸ hrun⟩
  · exact ⟨_, hrun.snoc hs⟩

/-- The device of a session is open exactly as long as the session owns it. -/
theorem Ok.open_iff (h : s.Ok) (hk : s.tunFd k ≠ none) :
    (∃ n, s.files n = some (.tun (s.caller k))) ↔ s.owns k = true := by
  have hover := h.caller k (isAbsent_of_tunFd hk)
  constructor
  · rintro ⟨n, hn⟩
    rcases h.kept.covered n _ hn with ⟨i | k', hp⟩ | hother | ⟨i, err, hi, herr⟩
    · obtain ⟨hfd, hi⟩ := claim_call hp
      rw [← Owner.tun.inj hi, hover] at hfd
      cases hfd
    · obtain ⟨ho, hfd, hc⟩ := claim_session hp
      have hk' := isAbsent_of_tunFd (k := k') (hfd ▸ Option.some_ne_none _)
      rwa [h.apart k k' (isAbsent_of_tunFd hk) hk' (Owner.tun.inj hc)]
    · cases hother
    · rw [← Owner.tun.inj hi, hover] at herr
      cases herr
  · intro ho
    obtain ⟨fd, hfd⟩ := Option.ne_none_iff_exists'.mp hk
    exact ⟨fd, h.kept.held _ _ _ (claim_of_owns ho hfd)⟩

theorem Ok.owns_of_spawned (h : s.Ok) (hs : (s.engine.tasks k).plane.isSpawned = true)
    (hp : (s.engine.tasks k).plane.holdsTun = true) : s.owns k = true :=
  Task.ownsTun_iff.mpr (Or.inr ⟨h.opened k (Or.inr hs), Or.inr hp⟩)

theorem filesAfter_cases (h : s.Ok) (t : Task) (opened : Bool) {n : ℤ} {o : Owner}
    (hn : s.files n = some o) : s.filesAfter k t opened n = some o ∨
      o = .tun (s.caller k) ∧ s.tunFd k = some n ∧ s.owns k = true ∧ t.ownsTun opened = false := by
  unfold filesAfter
  cases hfd : s.tunFd k with
  | none => exact Or.inl hn
  | some fd =>
    dsimp only
    split_ifs with hrel
    · obtain ⟨ho, hno⟩ := (Bool.and_eq_true _ _).mp hrel
      rcases eq_or_ne n fd with rfl | hne
      · have hmine := h.kept.held _ _ _ (claim_of_owns ho hfd)
        exact Or.inr ⟨Option.some.inj (hn.symm.trans hmine), rfl, ho, Bool.not_eq_true' _ ▸ hno⟩
      · rw [Function.update_of_ne hne]
        exact Or.inl hn
    · exact Or.inl hn

/-- The engine closes no descriptor but that of a session that has just given up its device. -/
theorem Ok.files_cases (h : s.Ok) {b : EngineAct} (hstep : ProcessStep s (.engine b) s') {n : ℤ}
    {o : Owner} (hn : s.files n = some o) : s'.files n = some o ∨
      ∃ k, o = .tun (s.caller k) ∧ s.tunFd k = some n ∧ s.owns k = true ∧ s'.owns k = false := by
  cases hstep with
  | @startClient i fd cfg e' hfd hfree hs =>
    have hne : n ≠ fd := fun he => Option.some_ne_none o (hn.symm.trans (he ▸ hfree))
    exact Or.inl ((Function.update_of_ne hne _ _).trans hn)
  | request | call | quiet => exact Or.inl hn
  | @taskReturn k j e' hs =>
    exact (filesAfter_cases h _ _ hn).imp_right fun hc => ⟨k, hc⟩
  | @task k a e' hs =>
    refine (filesAfter_cases h _ _ hn).imp_right ?_
    rintro ⟨ho, hfd, howns, hno⟩
    refine ⟨k, ho, hfd, howns, ?_⟩
    show (e'.tasks k).ownsTun (Function.update s.opened k _ k) = false
    rwa [Function.update_self]

/-- Once its loop has been polled, a session keeps its device. -/
theorem spawned_stays (h : Run ProcessStep new tr s) (hrun : Run ProcessStep s tr' s')
    (hs : (s.engine.tasks k).plane.isSpawned = true) :
    ∃ n, s'.files n = some (.tun (s.caller k)) := by
  have hkey : (s'.engine.tasks k).plane.isSpawned = true ∧ s'.Ok ∧ s'.caller k = s.caller k := by
    refine hrun.invariant (fun u => (u.engine.tasks k).plane.isSpawned = true ∧ u.Ok ∧
      u.caller k = s.caller k) ⟨hs, run_ok h, rfl⟩ ?_
    rintro u a u' ⟨hu, hok, hcaller⟩ hstep
    refine ⟨?_, hok.step hstep, ?_⟩
    · rcases engine_cases hstep with hsame | ⟨b, -, he⟩
      · rwa [hsame]
      · exact he.isSpawned_of hu
    · cases hstep with
      | @call i e' =>
        have hk := isAbsent_of_tunFd (hok.spawned k hu)
        show (if (u.engine.tasks k).isAbsent then i else u.caller k) = _
        rw [hk, ← hcaller]
        rfl
      | _ => exact hcaller
  obtain ⟨hs', hok, hcaller⟩ := hkey
  obtain ⟨tr₀, hengine⟩ := run_engine (h.append hrun)
  have hholds := Plane.holdsTun_of_spawned hs' (select_ends_by_shutdown hengine k).1
  rw [← hcaller]
  exact (hok.open_iff (hok.spawned k hs')).mpr (hok.owns_of_spawned hs' hholds)

/-- The device of a call that has failed is never closed. -/
theorem failed_stays (h : Run ProcessStep new tr s) (hrun : Run ProcessStep s tr' s') {i : ℕ}
    {err : EngineError} {n : ℤ} (herr : s.engine.calls i = .ready (.returned (.error err)))
    (hn : s.files n = some (.tun i)) : s'.files n = some (.tun i) := by
  have hkey : s'.Ok ∧ s'.engine.calls i = .ready (.returned (.error err)) ∧
      s'.files n = some (.tun i) := by
    refine hrun.invariant (fun u => u.Ok ∧ u.engine.calls i = .ready (.returned (.error err)) ∧
      u.files n = some (.tun i)) ⟨run_ok h, herr, hn⟩ ?_
    rintro u a u' ⟨hok, hu, hfile⟩ hstep
    refine ⟨hok.step hstep, ?_, ?_⟩
    · rcases engine_cases hstep with hsame | ⟨b, -, he⟩
      · rwa [hsame]
      · exact he.returned_stays hu
    · cases a with
      | engine b =>
        rcases hok.files_cases hstep hfile with hsame | ⟨k, ho, hfd, -, -⟩
        · exact hsame
        · -- the calls of the sessions have not failed
          have hover := hok.caller k (isAbsent_of_tunFd (hfd ▸ Option.some_ne_none _))
          rw [← Owner.tun.inj ho, hu] at hover
          cases hover
      | openOther m =>
        cases hstep with
        | openOther hm =>
          have hne : n ≠ m := fun he => Option.some_ne_none _ (hfile.symm.trans (he ▸ hm))
          exact (Function.update_of_ne hne _ _).trans hfile
      | closeOther m =>
        cases hstep with
        | closeOther hm =>
          have hne : n ≠ m := by
            rintro rfl
            cases hfile.symm.trans hm
          exact (Function.update_of_ne hne _ _).trans hfile
  exact hkey.2.2

end Process

def EngineAct.isRequest : EngineAct → Bool
  | .request _ _ => true
  | _ => false

/-- A step of the engine that is not a new call is a step of the process. -/
theorem Process.lift {s : Process} {tr : List (World × EngineAct)} {e : World}
    (h : Run (fun e a e' => EngineStep e a e' ∧ a.isRequest = false) s.engine tr e) :
    ∃ tr' s', Run ProcessStep s tr' s' ∧ s'.engine = e := by
  induction h with
  | nil => exact ⟨[], s, Run.nil, rfl⟩
  | @snoc tr e a e' _ hstep ih =>
    obtain ⟨tr', s', hrun, rfl⟩ := ih
    obtain ⟨hs, ha⟩ := hstep
    cases a with
    | request => cases ha
    | call => exact ⟨_, _, hrun.snoc (.call hs), rfl⟩
    | taskReturn => exact ⟨_, _, hrun.snoc (.taskReturn hs), rfl⟩
    | task => exact ⟨_, _, hrun.snoc (.task hs), rfl⟩
    | _ => exact ⟨_, _, hrun.snoc (.quiet rfl hs), rfl⟩

/-- `start_client` from its first step on, up to the first poll of the loop. -/
theorem client_polled : ∃ tr e,
    Run (fun e a e' => EngineStep e a e' ∧ a.isRequest = false)
      (World.new.setCall 0 (.ready (.checkState (.client 3 exampleConfig)))) tr e ∧
    e.LoopPolled 0 := by
  have hin (e : World) (a : SharedCell.Act SessionEvent) (e' : World)
      (h : EngineStep e (.session a) e') : EngineStep e (.session a) e' ∧
        EngineAct.isRequest (.session a) = false := ⟨h, rfl⟩
  have h1 : EngineStep (World.new.setCall 0 (.ready (.checkState (.client 3 exampleConfig))))
      (.call 0) _ := .checkState (i := 0) rfl
  have hfirst : Run (fun e a e' => EngineStep e a e' ∧ a.isRequest = false) _ _ _ :=
    Run.single ⟨h1, rfl⟩
  obtain ⟨_, h2⟩ := dispatch_completes_in hin 0 (hfirst.snoc
    ⟨.callDispatch (i := 0) (j := 0) rfl rfl (.invoke _ rfl), rfl⟩) rfl rfl
  obtain ⟨_, h3⟩ := dispatch_completes_in hin 1 ((h2.snoc ⟨.callReturn (i := 0) rfl rfl, rfl⟩).snoc
    ⟨.callDispatch (i := 0) (j := 1) rfl rfl (.invoke _ rfl), rfl⟩) rfl rfl
  have h4 := ((h3.snoc ⟨.callReturn (i := 0) rfl rfl, rfl⟩).snoc
    ⟨.subscribe (i := 0) rfl, rfl⟩).snoc ⟨.spawn (i := 0) (k := 0) rfl rfl, rfl⟩
  obtain ⟨_, h5⟩ := dispatch_completes_in hin 2 (((h4.snoc
    ⟨.task (k := 0) (.tunOpened rfl), rfl⟩).snoc ⟨.task (k := 0) (.stackNew rfl), rfl⟩).snoc
    ⟨.taskDispatch (k := 0) (j := 2) rfl rfl (.invoke _ rfl), rfl⟩) rfl rfl
  exact ⟨_, _, (h5.snoc ⟨.taskReturn (k := 0) rfl rfl, rfl⟩).snoc
    ⟨.task (k := 0) (.firstPoll rfl rfl), rfl⟩, rfl⟩

/-- Over every run of the engine in a process that opens and closes other files as it likes: a task
reads from and writes to no file but the device that its session was started with; the engine closes
no descriptor but that of a session whose last holder is gone; the device of a session is open
exactly as long as it has a holder. But a session whose loop was polled keeps its device open for
good, also after it was stopped, and so does a call of `start_client` that fails. -/
theorem tun_descriptors_kept {tr : List (Process × ProcessAct)} {s : Process}
    (h : Run ProcessStep Process.new tr s) :
    (∀ k a s', ProcessStep s (.engine (.task k a)) s' → a.usesTun = true →
      ∃ fd, s.tunFd k = some fd ∧ s.files fd = some (.tun (s.caller k))) ∧
    (∀ b s', ProcessStep s (.engine b) s' → ∀ n o, s.files n = some o → s'.files n = some o ∨
      ∃ k, o = .tun (s.caller k) ∧ s.tunFd k = some n ∧ s.owns k = true ∧ s'.owns k = false) ∧
    (∀ k, s.tunFd k ≠ none →
      ((∃ n, s.files n = some (.tun (s.caller k))) ↔ s.owns k = true)) ∧
    (∀ k, s.engine.LoopPolled k → ∀ tr' s', Run ProcessStep s tr' s' →
      ∃ n, s'.files n = some (.tun (s.caller k))) ∧
    ∀ i err n, s.engine.calls i = .ready (.returned (.error err)) → s.files n = some (.tun i) →
      ∀ tr' s', Run ProcessStep s tr' s' → s'.files n = some (.tun i) := by
  have hok := Process.run_ok h
  refine ⟨?_, ?_, ?_, ?_, ?_⟩
  · intro k a s' hstep hu
    cases hstep with
    | task hs =>
      cases hs with
      | task ht =>
        obtain ⟨hspawned, hholds⟩ := ht.holdsTun_of_usesTun hu
        obtain ⟨fd, hfd⟩ := Option.ne_none_iff_exists'.mp (hok.spawned k hspawned)
        have ho := hok.owns_of_spawned hspawned hholds
        exact ⟨fd, hfd, hok.kept.held _ _ _ (Process.claim_of_owns ho hfd)⟩
    | quiet ha => cases ha
  · intro b s' hstep n o hn
    exact hok.files_cases hstep hn
  · intro k hk
    exact hok.open_iff hk
  · intro k hs tr' s' hrun
    exact Process.spawned_stays h hrun hs
  · intro i err n herr hn tr' s' hrun
    exact Process.failed_stays h hrun herr hn

/-- The device of the first client that is started stays open, whatever happens later. -/
theorem first_device_kept : ∃ tr s, Run ProcessStep Process.new tr s ∧ s.engine.LoopPolled 0 ∧
    ∀ tr' s', Run ProcessStep s tr' s' → ∃ n, s'.files n = some (.tun (s.caller 0)) := by
  have hrequest : EngineStep Process.new.engine (.request 0 (.start (.client 3 exampleConfig))) _ :=
    .request _ rfl
  have hstart : ProcessStep Process.new
      (.engine (.request 0 (.start (.client 3 exampleConfig)))) _ :=
    .startClient (by decide) rfl hrequest
  obtain ⟨tr, e, hrun, hpolled⟩ := client_polled
  obtain ⟨tr', s, hlift, rfl⟩ := Process.lift (s := { Process.new with
    engine := World.new.setCall 0 (.ready (.checkState (.client 3 exampleConfig)))
    files := Function.update (fun _ => none) 3 (some (.tun 0)) }) hrun
  have hall := (Run.single hstart).append hlift
  exact ⟨_, s, hall, hpolled, (tun_descriptors_kept hall).2.2.2.1 0 hpolled⟩

end GravitalShare.Engine
