import GravitalShare.SocksDatagram
import GravitalShare.FailFast
import GravitalShare.FiniteTable

/-! The relay of a UDP association. It handles one datagram after the other in one buffer, and an
error in a datagram leaves the loop. -/
namespace GravitalShare.Socks

/-- A datagram from `peer`, and the world at the time it is handled. The length of a datagram is a
number of 16 bits. -/
structure Arrival where
  world : Env
  peer : SocketAddr
  data : Bytes
  fits : data.length ≤ 65535

/-- What ends one wait of the `select!`. -/
inductive Wakeup where
  | recv (res : Except ErrorKind Arrival)
  | stop

structure Relay where
  buf : Bytes
  size : buf.length = 65535
  assocs : Table SocketAddr SocketAddr
  sent : List (SocketAddr × Bytes)

namespace Relay

def new : Relay := ⟨List.replicate 65535 0, List.length_replicate, ∅, []⟩

theorem length_received (st : Relay) (d : Arrival) :
    (readInto st.buf d.data).2.length = 65535 := (length_readInto _ _).trans st.size

def onDatagram (st : Relay) (d : Arrival) : Exec (Except SocksError Relay) := do
  let n := (readInto st.buf d.data).1
  let buf := (readInto st.buf d.data).2
  match ← parseUdpDatagram d.world.replace (← slice buf 0 n) with
  | .error e => return .error e
  | .ok hdr =>
    if hdr.frag ≠ 0 then return .ok { st with buf, size := st.length_received d }
    match toSocketAddr d.world hdr.addr hdr.port with
    | .error e => return .error e
    | .ok target =>
      let payload ← slice buf hdr.payloadOffset n
      let sent := match d.world.bindUdp with
        | .ok () => st.sent ++ [(target, payload)]
        | .error _ => st.sent
      return .ok ⟨buf, st.length_received d, st.assocs.insert target d.peer, sent⟩

end Relay

/-- `relay_udp`: how it ends, if it does, and what it has done. -/
def relayUdp : Relay → List Wakeup → Exec (Relay × Option (Except SocksError Unit))
  | st, [] => .ok (st, none)
  | st, .stop :: _ => .ok (st, some (.ok ()))
  | st, .recv (.error kind) :: _ => .ok (st, some (.error (.io kind)))
  | st, .recv (.ok d) :: ws => do
    match ← st.onDatagram d with
    | .error e => return (st, some (.error e))
    | .ok st => relayUdp st ws

namespace Arrival

/-- What one datagram by itself comes to: a target with a payload, nothing if it is a fragment, or
an error. -/
def forward (d : Arrival) : Except SocksError (Option (SocketAddr × Bytes)) :=
  match parseUdpDatagram d.world.replace d.data with
  | .ok (.ok hdr) =>
    if hdr.frag ≠ 0 then .ok none
    else (toSocketAddr d.world hdr.addr hdr.port).map fun target =>
      some (target, d.data.drop hdr.payloadOffset)
  | .ok (.error e) => .error e
  | .error _ => .ok none

/-- The datagram as it is to be sent out, if it is well formed, whole, and has a target. -/
def accepted (d : Arrival) : Option (SocketAddr × Bytes) :=
  match parseUdpDatagram d.world.replace d.data with
  | .ok (.ok hdr) =>
    if hdr.frag = 0 then
      (toSocketAddr d.world hdr.addr hdr.port).toOption.map fun target =>
        (target, d.data.drop hdr.payloadOffset)
    else none
  | _ => none

/-- The datagram is malformed, or it is whole and its target has no address. -/
def Broken (d : Arrival) : Prop :=
  (∃ e, parseUdpDatagram d.world.replace d.data = .ok (.error e)) ∨
    ∃ hdr e, parseUdpDatagram d.world.replace d.data = .ok (.ok hdr) ∧ hdr.frag = 0 ∧
      toSocketAddr d.world hdr.addr hdr.port = .error e

theorem keep_forward (d : Arrival) : FailFast.keep forward d = d.accepted := by
  rw [FailFast.keep, forward, accepted]
  rcases parseUdpDatagram_cases d.world.replace d.data with ⟨e, he⟩ | ⟨hdr, hok, -⟩
  · rw [he]
    rfl
  · rw [hok]
    dsimp only
    by_cases hfrag : hdr.frag = 0
    · rw [if_neg (not_not.mpr hfrag), if_pos hfrag]
      cases toSocketAddr d.world hdr.addr hdr.port <;> rfl
    · rw [if_pos hfrag, if_neg hfrag]
      rfl

theorem fails_forward (d : Arrival) : FailFast.Fails forward d ↔ d.Broken := by
  rw [FailFast.Fails, Broken, forward]
  rcases parseUdpDatagram_cases d.world.replace d.data with ⟨e, he⟩ | ⟨hdr, hok, -⟩
  · rw [he]
    exact iff_of_true ⟨e, rfl⟩ (Or.inl ⟨e, rfl⟩)
  · rw [hok]
    dsimp only
    by_cases hfrag : hdr.frag = 0
    · rw [if_neg (not_not.mpr hfrag)]
      cases htarget : toSocketAddr d.world hdr.addr hdr.port with
      | error e => exact iff_of_true ⟨e, rfl⟩ (Or.inr ⟨hdr, e, rfl, hfrag, htarget⟩)
      | ok target =>
        refine iff_of_false (fun ⟨e, h⟩ => by cases h) ?_
        rintro (⟨e, h⟩ | ⟨hdr', e, h, -, herr⟩)
        · cases h
        · cases h
          cases htarget.symm.trans herr
    · rw [if_pos hfrag]
      refine iff_of_false (fun ⟨e, h⟩ => by cases h) ?_
      rintro (⟨e, h⟩ | ⟨hdr', e, h, hzero, -⟩)
      · cases h
      · cases h
        exact hfrag hzero

end Arrival

/-- What is in the buffer from before does not matter. -/
theorem Relay.onDatagram_eq (st : Relay) (d : Arrival) (hb : d.world.bindUdp = .ok ()) :
    (∃ e, d.forward = .error e ∧ st.onDatagram d = .ok (.error e)) ∨
      ∃ out st', d.forward = .ok out ∧ st.onDatagram d = .ok (.ok st') ∧
        st'.sent = st.sent ++ out.toList := by
  have htake : (readInto st.buf d.data).2.take (readInto st.buf d.data).1 = d.data := by
    rw [take_readInto, st.size, List.take_of_length_le d.fits]
  have hn : (readInto st.buf d.data).1 ≤ (readInto st.buf d.data).2.length := by
    rw [length_readInto]
    exact Nat.min_le_right _ _
  have hlen : d.data.length = (readInto st.buf d.data).1 := by
    rw [readInto, st.size]
    exact (Nat.min_eq_left d.fits).symm
  rw [onDatagram, Arrival.forward, slice_eq (Nat.zero_le _) hn, htake, List.drop_zero, Exec.ok_bind]
  rcases parseUdpDatagram_cases d.world.replace d.data with ⟨e, he⟩ | ⟨hdr, hok, hoff⟩
  · rw [he]
    exact Or.inl ⟨e, rfl, rfl⟩
  · rw [hok, Exec.ok_bind]
    dsimp only
    by_cases hfrag : hdr.frag = 0
    · rw [if_neg (not_not.mpr hfrag), if_neg (not_not.mpr hfrag)]
      cases toSocketAddr d.world hdr.addr hdr.port with
      | error e => exact Or.inl ⟨e, rfl, rfl⟩
      | ok target =>
        rw [hlen] at hoff
        rw [slice_eq hoff hn, htake, hb]
        exact Or.inr ⟨_, _, rfl, rfl, rfl⟩
    · rw [if_pos hfrag, if_pos hfrag]
      exact Or.inr ⟨_, _, rfl, rfl, (List.append_nil _).symm⟩

/-- The loop over datagrams, without its buffer. -/
theorem relayUdp_eq (st : Relay) (ds : List Arrival) (hb : ∀ d ∈ ds, d.world.bindUdp = .ok ()) :
    ∃ st', relayUdp st (ds.map fun d => .recv (.ok d)) =
        .ok (st', match (FailFast.loop Arrival.forward ds).2 with
          | .ok () => none
          | .error e => some (.error e)) ∧
      st'.sent = st.sent ++ (FailFast.loop Arrival.forward ds).1 := by
  induction ds generalizing st with
  | nil => exact ⟨st, rfl, (List.append_nil _).symm⟩
  | cons d ds ih =>
    rw [List.forall_mem_cons] at hb
    rw [List.map_cons, relayUdp]
    rcases st.onDatagram_eq d hb.1 with ⟨e, herr, heq⟩ | ⟨out, st', hout, heq, hsent⟩
    · rw [FailFast.loop_cons_error herr, heq]
      exact ⟨st, rfl, (List.append_nil _).symm⟩
    · obtain ⟨last, hrun, hlast⟩ := ih st' hb.2
      rw [FailFast.loop_cons_ok hout, heq]
      refine ⟨last, hrun, ?_⟩
      rw [hlast, hsent, List.append_assoc]

/-- What goes out is what the datagrams ask for one by one exactly if none that asks for something
comes after a broken one; the first broken one ends the association. -/
theorem datagrams_independent_iff (ds : List Arrival) (hb : ∀ d ∈ ds, d.world.bindUdp = .ok ()) :
    ∃ st res, relayUdp .new (ds.map fun d => .recv (.ok d)) = .ok (st, res) ∧
      (st.sent = ds.filterMap Arrival.accepted ↔
        ∀ pre d post, ds = pre ++ d :: post → d.Broken → post.filterMap Arrival.accepted = []) ∧
      (res = none ↔ ∀ d ∈ ds, ¬d.Broken) := by
  obtain ⟨st, hrun, hsent⟩ := relayUdp_eq .new ds hb
  have hkeep : FailFast.keep Arrival.forward = Arrival.accepted := funext Arrival.keep_forward
  have hout := FailFast.loop_outputs_iff Arrival.forward ds
  have hend := FailFast.loop_ends_ok_iff Arrival.forward ds
  simp only [hkeep, Arrival.fails_forward] at hout hend
  refine ⟨st, _, hrun, ?_, ?_⟩
  · rw [hsent, ← hout]
    rfl
  · rw [← hend]
    cases (FailFast.loop Arrival.forward ds).2 with
    | error e => exact iff_of_false (fun h => by cases h) fun h => by cases h
    | ok _ => exact iff_of_true rfl rfl

def exampleArrival (data : Bytes) (fits : data.length ≤ 65535) : Arrival :=
  ⟨exampleEnv, .v4 ⟨192, 168, 43, 7⟩ 5353, data, fits⟩

/-- A datagram with one byte for 8.8.8.8:53. -/
def wholeArrival : Arrival := exampleArrival [0, 0, 0, 1, 8, 8, 8, 8, 0, 53, 7] (by decide)

/-- The first part of a fragmented datagram. -/
def fragmentArrival : Arrival := exampleArrival [0, 0, 1, 1, 8, 8, 8, 8, 0, 53, 7] (by decide)

theorem fragment_dropped :
    ∃ st res, relayUdp .new [.recv (.ok fragmentArrival), .recv (.ok wholeArrival)] =
        .ok (st, res) ∧ st.sent = [(.v4 ⟨8, 8, 8, 8⟩ 53, [7])] := by
  obtain ⟨st, res, hrun, hsent, -⟩ := datagrams_independent_iff [fragmentArrival, wholeArrival]
    (fun d hd => by rcases List.mem_pair.mp hd with rfl | rfl <;> rfl)
  refine ⟨st, res, hrun, hsent.mpr ?_⟩
  intro pre d post heq hbroken
  match pre with
  | [] =>
    cases heq
    obtain ⟨e, he⟩ := (Arrival.fails_forward fragmentArrival).mpr hbroken
    cases he
  | [_] =>
    cases heq
    rfl
  | _ :: _ :: pre => cases pre <;> cases heq

/-- One byte from anyone ends the association, and the datagram that follows goes nowhere. -/
theorem malformed_datagram_ends_relay :
    ∃ st, relayUdp .new [.recv (.ok (exampleArrival [0] (by decide))), .recv (.ok wholeArrival)] =
        .ok (st, some (.error .prematureEof)) ∧ st.sent = [] ∧
      [exampleArrival [0] (by decide), wholeArrival].filterMap Arrival.accepted =
        [(.v4 ⟨8, 8, 8, 8⟩ 53, [7])] := by
  obtain ⟨st, hrun, hsent⟩ := relayUdp_eq .new [exampleArrival [0] (by decide), wholeArrival]
    (fun d hd => by rcases List.mem_pair.mp hd with rfl | rfl <;> rfl)
  exact ⟨st, hrun, hsent, rfl⟩

end GravitalShare.Socks
