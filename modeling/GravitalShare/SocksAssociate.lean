import GravitalShare.SocksRelay
import GravitalShare.Transition

/-! The two tasks of a UDP association. The handler waits for one read of its control connection,
tells the relay to stop, and waits for its end. The relay waits for a datagram or for the word to
stop. -/
namespace GravitalShare.Socks

/-- Where `handle_udp_associate` is, once it has spawned the relay. -/
inductive Control where
  | reading
  | notifying
  | joining
  | done

/-- Where the task of `relay_udp` is. -/
inductive RelayPc where
  | selecting
  | handling (d : Arrival)
  | ended (res : Except SocksError Unit)

/-- The two tasks, and the permit that `stop` keeps for the next one to wait. -/
structure Assoc where
  control : Control
  relay : RelayPc
  permit : Bool
  st : Relay

inductive AssocAct where
  | controlRead
  | notify
  | woken (w : Wakeup)
  | handled
  | joined

/-- The read of the control connection ends with a byte, with none or with an error, and the
handler does not look which. -/
inductive AssocStep : Assoc → AssocAct → Assoc → Prop
  | controlRead {a : Assoc} (h : a.control = .reading) :
    AssocStep a .controlRead { a with control := .notifying }
  | notify {a : Assoc} (h : a.control = .notifying) :
    AssocStep a .notify { a with control := .joining, permit := true }
  | received {a : Assoc} {d : Arrival} (h : a.relay = .selecting) :
    AssocStep a (.woken (.recv (.ok d))) { a with relay := .handling d }
  | recvFailed {a : Assoc} {kind : ErrorKind} (h : a.relay = .selecting) :
    AssocStep a (.woken (.recv (.error kind))) { a with relay := .ended (.error (.io kind)) }
  | stopped {a : Assoc} (h : a.relay = .selecting) (hp : a.permit = true) :
    AssocStep a (.woken .stop) { a with relay := .ended (.ok ()), permit := false }
  | passedOn {a : Assoc} {d : Arrival} {st : Relay} (h : a.relay = .handling d)
      (hd : a.st.onDatagram d = .ok (.ok st)) :
    AssocStep a .handled { a with relay := .selecting, st }
  | broke {a : Assoc} {d : Arrival} {e : SocksError} (h : a.relay = .handling d)
      (hd : a.st.onDatagram d = .ok (.error e)) :
    AssocStep a .handled { a with relay := .ended (.error e) }
  | joined {a : Assoc} {res : Except SocksError Unit} (h : a.control = .joining)
      (hr : a.relay = .ended res) :
    AssocStep a .joined { a with control := .done }

namespace Assoc

def new : Assoc := ⟨.reading, .selecting, false, .new⟩

/-- What ended a wait of the relay. -/
def wokenAt (_ : Assoc) : AssocAct → List Wakeup
  | .woken w => [w]
  | .controlRead | .notify | .handled | .joined => []

/-- The datagrams that were taken from the socket. -/
def arrivedAt (_ : Assoc) : AssocAct → List Arrival
  | .woken (.recv (.ok d)) => [d]
  | _ => []

end Assoc

/-- A datagram never brings the relay down. -/
theorem Relay.onDatagram_returns (st : Relay) (d : Arrival) : (st.onDatagram d).Returns := by
  have htake : (readInto st.buf d.data).2.take (readInto st.buf d.data).1 = d.data := by
    rw [take_readInto, st.size, List.take_of_length_le d.fits]
  have hn : (readInto st.buf d.data).1 ≤ (readInto st.buf d.data).2.length := by
    rw [length_readInto]
    exact Nat.min_le_right _ _
  have hlen : d.data.length = (readInto st.buf d.data).1 := by
    rw [readInto, st.size]
    exact (Nat.min_eq_left d.fits).symm
  rw [onDatagram, slice_eq (Nat.zero_le _) hn, htake, List.drop_zero, Exec.ok_bind]
  rcases parseUdpDatagram_cases d.world.replace d.data with ⟨e, he⟩ | ⟨hdr, hok, hoff⟩
  · rw [he]
    exact Exec.returns_ok _
  · rw [hok, Exec.ok_bind]
    dsimp only
    split_ifs
    · exact Exec.returns_ok _
    · cases toSocketAddr d.world hdr.addr hdr.port with
      | error e => exact Exec.returns_ok _
      | ok target =>
        rw [slice_eq (hoff.trans_eq hlen) hn]
        exact Exec.returns_ok _

/-- A loop that has not ended goes on with the wakeups that follow. -/
theorem relayUdp_append {st st' : Relay} {ws : List Wakeup}
    (h : relayUdp st ws = .ok (st', none)) (ws' : List Wakeup) :
    relayUdp st (ws ++ ws') = relayUdp st' ws' := by
  induction ws generalizing st with
  | nil =>
    cases h
    rfl
  | cons w ws ih =>
    cases w with
    | stop => cases h
    | recv res =>
      cases res with
      | error kind => cases h
      | ok d =>
        rw [relayUdp] at h
        rw [List.cons_append, relayUdp]
        obtain ⟨out, hout, hrest⟩ := Exec.bind_eq_ok.mp h
        rw [hout, Exec.ok_bind]
        cases out with
        | error e => cases hrest
        | ok mid => exact ih hrest

namespace Assoc

variable {a b : Assoc} {act : AssocAct} {tr tr' : List (Assoc × AssocAct)}

/-- The relay is where `relay_udp` is after the wakeups so far; the datagram it is at, if any, is
the last of them. -/
def Follows (ws : List Wakeup) (a : Assoc) : Prop :=
  match a.relay with
  | .selecting => relayUdp .new ws = .ok (a.st, none)
  | .handling d => ∃ before, ws = before ++ [.recv (.ok d)] ∧
      relayUdp .new before = .ok (a.st, none)
  | .ended res => relayUdp .new ws = .ok (a.st, some res)

theorem Follows.congr {ws : List Wakeup} (h : Follows ws a) (hrelay : b.relay = a.relay)
    (hst : b.st = a.st) : Follows ws b := by
  rw [Follows, hrelay, hst]
  exact h

theorem Follows.selecting {ws : List Wakeup} (h : Follows ws a) (hr : a.relay = .selecting) :
    relayUdp .new ws = .ok (a.st, none) := by
  rw [Follows, hr] at h
  exact h

theorem Follows.handling {ws : List Wakeup} {d : Arrival} (h : Follows ws a)
    (hr : a.relay = .handling d) :
    ∃ before, ws = before ++ [.recv (.ok d)] ∧ relayUdp .new before = .ok (a.st, none) := by
  rw [Follows, hr] at h
  exact h

theorem Follows.step {ws : List Wakeup} (h : Follows ws a) (hs : AssocStep a act b) :
    Follows (ws ++ wokenAt a act) b := by
  cases hs with
  | controlRead _ | notify _ | joined _ _ =>
    rw [wokenAt, List.append_nil]
    exact h.congr rfl rfl
  | received hr => exact ⟨ws, rfl, h.selecting hr⟩
  | recvFailed hr | stopped hr _ => exact relayUdp_append (h.selecting hr) _
  | passedOn hr hd | broke hr hd =>
    obtain ⟨before, hws, hbefore⟩ := h.handling hr
    rw [wokenAt, List.append_nil, hws]
    refine (relayUdp_append hbefore _).trans ?_
    rw [relayUdp, hd]
    rfl

/-- The word to stop is on its way to a relay that still runs, and only that word ends it
without an error. -/
structure Ok (a : Assoc) : Prop where
  told : a.control = .joining → (∃ res, a.relay = .ended res) ∨ a.permit = true
  joined : a.control = .done → ∃ res, a.relay = .ended res
  permitted : a.permit = true → a.control = .joining ∨ a.control = .done
  stopped : a.relay = .ended (.ok ()) → a.control = .joining ∨ a.control = .done

theorem Ok.new : Ok new := by
  constructor <;> intro h <;> cases h

theorem Ok.step (h : Ok a) (hs : AssocStep a act b) : Ok b := by
  cases hs with
  | controlRead hc =>
    -- neither the permit nor a peaceful end can be there before the control connection has ended
    have hearly : ¬(a.control = .joining ∨ a.control = .done) := by simp [hc]
    constructor
    · simp
    · simp
    · exact fun hp => absurd (h.permitted hp) hearly
    · exact fun hr => absurd (h.stopped hr) hearly
  | notify hc =>
    constructor
    · exact fun _ => Or.inr rfl
    · simp
    · exact fun _ => Or.inl rfl
    · exact fun _ => Or.inl rfl
  | received hr | passedOn hr _ =>
    have hruns : ¬∃ res, a.relay = .ended res := by simp [hr]
    constructor
    · exact fun hc => Or.inr ((h.told hc).resolve_left hruns)
    · exact fun hc => absurd (h.joined hc) hruns
    · exact h.permitted
    · simp
  | recvFailed hr | broke hr _ =>
    constructor
    · exact fun _ => Or.inl ⟨_, rfl⟩
    · exact fun _ => ⟨_, rfl⟩
    · exact h.permitted
    · simp
  | stopped hr hp =>
    constructor
    · exact fun _ => Or.inl ⟨_, rfl⟩
    · exact fun _ => ⟨_, rfl⟩
    · simp
    · exact fun _ => h.permitted hp
  | joined hc hr =>
    constructor
    · simp
    · exact fun _ => ⟨_, hr⟩
    · exact fun _ => Or.inr rfl
    · exact fun _ => Or.inr rfl

/-- The steps that the two tasks have before them without a further datagram. -/
def ahead (a : Assoc) : ℕ :=
  (match a.control with
    | .reading => 3
    | .notifying => 2
    | .joining => 1
    | .done => 0)
  +match a.relay with
    | .handling _ => 2
    | .selecting => 1
    | .ended _ => 0

theorem ahead_le (a : Assoc) : a.ahead ≤ 5 := by
  rw [ahead]
  cases a.control <;> cases a.relay <;> simp only <;> omega

theorem ahead_step (hs : AssocStep a act b) :
    b.ahead+1 ≤ a.ahead+2*(arrivedAt a act).length := by
  cases hs <;> simp only [ahead, arrivedAt, *, List.length_cons, List.length_nil] <;> omega

theorem ahead_run (h : Run AssocStep a tr b) :
    tr.length+b.ahead ≤ a.ahead+2*(gather arrivedAt tr).length := by
  apply h.history fun tr b => tr.length+b.ahead ≤ a.ahead+2*(gather arrivedAt tr).length
  · exact (Nat.zero_add _).le
  · intro tr t act u ih hs
    have hstep := ahead_step hs
    rw [gather_snoc, List.length_append, List.length_append, List.length_singleton]
    omega

/-- A relay that has ended stays as it is. -/
theorem ended_step {res : Except SocksError Unit} (hr : a.relay = .ended res)
    (hs : AssocStep a act b) : b.relay = .ended res ∧ b.st = a.st := by
  cases hs with
  | controlRead _ | notify _ | joined _ _ => exact ⟨hr, rfl⟩
  | received h | recvFailed h | stopped h _ | passedOn h _ | broke h _ => cases h.symm.trans hr

theorem ended_run {res : Except SocksError Unit} (hr : a.relay = .ended res)
    (h : Run AssocStep a tr b) : b.relay = .ended res ∧ b.st = a.st := by
  apply h.invariant fun b => b.relay = .ended res ∧ b.st = a.st
  · exact ⟨hr, rfl⟩
  · intro t act u ih hs
    obtain ⟨hrelay, hst⟩ := ended_step ih.1 hs
    exact ⟨hrelay, hst.trans ih.2⟩

/-- From the end of the control connection on, no datagram is needed for a next step. -/
theorem Ok.goes_on (h : Ok a) (hread : a.control ≠ .reading) (hdone : a.control ≠ .done) :
    ∃ act b, AssocStep a act b ∧ arrivedAt a act = [] := by
  match hc : a.control with
  | .reading => exact absurd hc hread
  | .done => exact absurd hc hdone
  | .notifying => exact ⟨.notify, _, .notify hc, rfl⟩
  | .joining =>
    match hr : a.relay with
    | .ended res => exact ⟨.joined, _, .joined hc hr, rfl⟩
    | .handling d =>
      obtain ⟨out, hout⟩ := a.st.onDatagram_returns d
      cases out with
      | ok st => exact ⟨.handled, _, .passedOn hr hout, rfl⟩
      | error e => exact ⟨.handled, _, .broke hr hout, rfl⟩
    | .selecting =>
      have hp : a.permit = true := by
        rcases h.told hc with ⟨res, hres⟩ | hp
        · cases hr.symm.trans hres
        · exact hp
      exact ⟨.woken .stop, _, .stopped hr hp, rfl⟩

/-- In every order of the steps of the two tasks the relay does what its loop does on the wakeups
it saw, it stops in peace only after the handler's read of one byte has returned, be it with a byte,
with the end of the control connection or with an error, and it does not outlive the handler. The
word to stop is never lost: after that read the handler comes to its end but for datagrams that are
taken in between, two steps for each. -/
theorem association_ends (hrun : Run AssocStep new tr a) :
    Follows (gather wokenAt tr) a ∧
      (a.relay = .ended (.ok ()) → a.control = .joining ∨ a.control = .done) ∧
      (a.control = .done → ∃ res, a.relay = .ended res) ∧
      (a.control ≠ .reading → a.control ≠ .done →
        ∃ act b, AssocStep a act b ∧ arrivedAt a act = []) ∧
      ∀ tr' b, Run AssocStep a tr' b →
        tr'.length ≤ 5+2*(gather arrivedAt tr').length ∧
        ∀ res, a.relay = .ended res → b.relay = .ended res ∧ b.st = a.st := by
  have hfollows : Follows (gather wokenAt tr) a := by
    apply hrun.history fun tr a => Follows (gather wokenAt tr) a
    · rfl
    · intro tr t act u ih hs
      rw [gather_snoc]
      exact ih.step hs
  have hok : Ok a := hrun.invariant Ok Ok.new fun _ _ _ h hs => h.step hs
  refine ⟨hfollows, hok.stopped, hok.joined, hok.goes_on, ?_⟩
  intro tr' b hrest
  refine ⟨?_, fun res hr => ended_run hr hrest⟩
  calc
    tr'.length ≤ tr'.length+b.ahead := Nat.le_add_right _ _
    _ ≤ a.ahead+2*(gather arrivedAt tr').length := ahead_run hrest
    _ ≤ 5+2*(gather arrivedAt tr').length := Nat.add_le_add_right a.ahead_le _

/-- After one malformed datagram the control connection is still open, but nothing that comes
later is passed on. -/
theorem malformed_datagram_silences : ∃ tr a, Run AssocStep new tr a ∧ a.control = .reading ∧
    ∀ tr' b, Run AssocStep a tr' b → b.st.sent = [] := by
  have hbreaks : Relay.new.onDatagram (exampleArrival [0] (by decide)) =
      .ok (.error .prematureEof) := by
    rcases Relay.new.onDatagram_eq (exampleArrival [0] (by decide)) rfl with
      ⟨e, he, heq⟩ | ⟨out, st, hout, -⟩
    · cases he
      exact heq
    · cases hout
  have hrun := (Run.single (AssocStep.received (a := new)
    (d := exampleArrival [0] (by decide)) rfl)).snoc (.broke rfl hbreaks)
  refine ⟨_, _, hrun, rfl, ?_⟩
  intro tr' b hrest
  obtain ⟨-, -, -, -, hlater⟩ := association_ends hrun
  rw [((hlater tr' b hrest).2 _ rfl).2]
  rfl

end Assoc

end GravitalShare.Socks
