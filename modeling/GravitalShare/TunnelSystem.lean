import GravitalShare.EngineRelay
import GravitalShare.Pipeline

/-! A tunnel from one end to the other: the intercepted connection, its relay task, the proxy's two
copy tasks and the target, with every stream between them. -/
namespace GravitalShare.Tunnel

open Stack (Conn ConnAct ConnStep Link)
open Engine (Relay Desk DeskAct DeskStep)

/-- One call of `tokio::io::copy`. Its end drops the half that it writes to, which shuts that half
down. -/
inductive Copy where
  | copying (buf : Bytes)
  | ended

namespace Copy

def hand : Copy → Bytes
  | .copying buf => buf
  | .ended => []

def isOver : Copy → Bool
  | .copying _ => false
  | .ended => true

end Copy

/-- A copy task between the half it reads from and the half it writes to. -/
structure Lane where
  inp : Bytes
  copy : Copy
  out : Bytes

inductive CopyAct where
  | read (n : ℕ)
  | write (n : ℕ)
  | eof
  | err

-- the buffer of tokio::io::copy has 8 KiB; the streams have no bound of their own here
inductive CopyStep (done : Bool) : Lane → CopyAct → Lane → Prop
  | read {inp buf out : Bytes} (n : ℕ) (h0 : 0 < n) (hn : n ≤ inp.length)
      (hbuf : buf.length+n ≤ 8192) :
      CopyStep done ⟨inp, .copying buf, out⟩ (.read n)
        ⟨inp.drop n, .copying (buf ++ inp.take n), out⟩
  | write {inp buf out : Bytes} (n : ℕ) (h0 : 0 < n) (hn : n ≤ buf.length) :
      CopyStep done ⟨inp, .copying buf, out⟩ (.write n)
        ⟨inp, .copying (buf.drop n), out ++ buf.take n⟩
  | eof {out : Bytes} (hd : done = true) :
      CopyStep done ⟨[], .copying [], out⟩ .eof ⟨[], .ended, out⟩
  | err {inp buf out : Bytes} : CopyStep done ⟨inp, .copying buf, out⟩ .err ⟨inp, .ended, out⟩

/-- `to_b` and `to_a` are the tasks of `relay_bidirectional`, where `a` is the client's stream and
`b` the target's. -/
structure World where
  conn : Conn
  removed : Bool
  task : Relay
  toProxy : Bytes
  toClient : Bytes
  toB : Copy
  toA : Copy
  toTarget : Bytes
  answer : Bytes
  answered : Bool

namespace World

def fresh (ip : Ipv4Addr) (vport : UInt16) (remote : SocketAddr) : World where
  conn := Conn.fresh ip vport remote
  removed := false
  task := .connecting
  toProxy := []
  toClient := []
  toB := .copying []
  toA := .copying []
  toTarget := []
  answer := []
  answered := false

def desk (w : World) : Desk := ⟨w.conn.link, w.task, w.toProxy, w.toClient⟩

def setDesk (w : World) (d : Desk) : World :=
  { w with
    conn := { w.conn with link := d.link }
    task := d.task
    toProxy := d.toProxy
    toClient := d.toClient }

def setLink (w : World) (link : Link) : World := { w with conn := { w.conn with link } }

end World

inductive Act where
  | conn (a : ConnAct)
  | remove
  | task (a : DeskAct)
  | toB (a : CopyAct)
  | toA (a : CopyAct)
  | targetRead (n : ℕ)
  | targetWrite (bs : Bytes)
  | targetClose

inductive Step : World → Act → World → Prop
  -- the poll loop and smoltcp at work on the connection
  | smoltcp {w : World} (sock : Stack.TcpSocket) (hr : w.removed = false)
      (hp : w.conn.phase = .idle) :
      Step w (.conn (.smoltcp sock)) { w with conn := { w.conn with sock } }
  | poll {w : World} {a : Stack.ServiceAct} {c : Conn} (hr : w.removed = false)
      (h : Stack.ServiceStep w.conn a c) : Step w (.conn (.poll a)) { w with conn := c }
  -- a poll finds the socket gone and drops its ends of the channels
  | remove {w : World} (hr : w.removed = false) (hp : w.conn.phase = .idle)
      (hg : w.conn.sock.isGone = true) :
      Step w .remove { w.setLink w.conn.link.dropPeer with removed := true }
  | task {w : World} {a : DeskAct} {d : Desk} (h : DeskStep w.toA.isOver w.desk a d) :
      Step w (.task a) (w.setDesk d)
  | toB {w : World} {a : CopyAct} {l : Lane} (hc : w.task.connected = true)
      (h : CopyStep w.task.hasShutDown ⟨w.toProxy, w.toB, w.toTarget⟩ a l) :
      Step w (.toB a) { w with toProxy := l.inp, toB := l.copy, toTarget := l.out }
  | toA {w : World} {a : CopyAct} {l : Lane} (hc : w.task.connected = true)
      (h : CopyStep w.answered ⟨w.answer, w.toA, w.toClient⟩ a l) :
      Step w (.toA a) { w with answer := l.inp, toA := l.copy, toClient := l.out }
  | targetRead {w : World} (n : ℕ) (hn : n ≤ w.toTarget.length) :
      Step w (.targetRead n) { w with toTarget := w.toTarget.drop n }
  | targetWrite {w : World} (bs : Bytes) (hc : w.task.connected = true)
      (ha : w.answered = false) : Step w (.targetWrite bs) { w with answer := w.answer ++ bs }
  | targetClose {w : World} (hc : w.task.connected = true) (ha : w.answered = false) :
      Step w .targetClose { w with answered := true }

/-- What the poll loop puts into the channel to the relay task. -/
def accepted (c : Conn) : Stack.ServiceAct → Bytes
  | .drain contig =>
    if c.link.up.receiver = true ∧ c.link.up.queue.length < c.link.up.cap then
      c.sock.rx.take contig
    else []
  | _ => []

def acceptedAt (w : World) : Act → Bytes
  | .conn (.poll a) => accepted w.conn a
  | _ => []

/-- What the poll loop takes from the app's socket, and what it writes to it. -/
def dequeuedAt (w : World) : Act → Bytes
  | .conn a => Stack.dequeuedAt w.conn a
  | _ => []

def writtenAt (w : World) : Act → Bytes
  | .conn a => Stack.writtenAt w.conn a
  | _ => []

/-- What the relay task puts into the channel to the poll loop. -/
def sent (task : Relay) : DeskAct → Bytes
  | .send => task.upHand
  | _ => []

def sentAt (w : World) : Act → Bytes
  | .task a => sent w.task a
  | _ => []

def targetReadAt (w : World) : Act → Bytes
  | .targetRead n => w.toTarget.take n
  | _ => []

def targetWroteAt (_ : World) : Act → Bytes
  | .targetWrite bs => bs
  | _ => []

/-- Servicing a socket can append one chunk to the channel, which is not empty. -/
theorem service_up {c c' : Conn} {a : Stack.ServiceAct} (h : Stack.ServiceStep c a c') :
    c'.link.up.sender = c.link.up.sender ∧ c'.link.up.queue =
      c.link.up.queue ++ if accepted c a = [] then [] else [accepted c a] := by
  cases h with
  | @drain sock link contig =>
    simp only [Stack.drainRecv_eq, accepted]
    by_cases hdata : sock.rx.take contig = []
    · simp only [hdata, ne_eq, not_true, if_false, ite_self, if_true, List.append_nil, true_and]
    · rw [if_pos hdata, Chan.sender_trySend, Chan.queue_trySend]
      by_cases hroom : link.up.receiver = true ∧ link.up.queue.length < link.up.cap
      · simp only [if_pos hroom, if_neg hdata, and_self]
      · simp only [if_neg hroom, if_true, and_self]
  | _ => exact ⟨rfl, (List.append_nil _).symm⟩

/-- The poll loop holds its ends of the channels until it removes the socket, the relay task holds
the other ones, and no chunk is empty. -/
structure World.Inv (w : World) : Prop where
  upSender : w.conn.link.up.sender = !w.removed
  upCap : w.conn.link.up.cap = 256
  chunks : ∀ chunk ∈ w.conn.link.up.queue, chunk ≠ []
  owned : w.desk.Owned

section Invariant

variable {w w' : World} {a : Act}

theorem World.inv_fresh (ip : Ipv4Addr) (vport : UInt16) (remote : SocketAddr) :
    (World.fresh ip vport remote).Inv :=
  ⟨rfl, rfl, fun _ hc => absurd hc List.not_mem_nil, ⟨fun _ => rfl, fun _ => rfl, trivial⟩⟩

/-- The task leaves the poll loop's end alone, and only takes chunks away. -/
theorem task_up {done : Bool} {d d' : Desk} {a : DeskAct} (h : DeskStep done d a d') :
    d'.link.up.sender = d.link.up.sender ∧ d'.link.up.cap = d.link.up.cap ∧
      d'.link.up.queue <:+ d.link.up.queue := by
  cases h with
  | recv ht =>
    obtain ⟨hq, hcap, hs, -⟩ := Chan.tryRecv_eq_some ht
    exact ⟨hs, hcap, hq ▸ List.suffix_cons _ _⟩
  | refuse | hangUp | writeErr => exact ⟨rfl, rfl, List.nil_suffix⟩
  | _ => exact ⟨rfl, rfl, List.suffix_refl _⟩

theorem service_owned {c c' : Conn} {a : Stack.ServiceAct} (h : Stack.ServiceStep c a c')
    {task : Relay} {p q : Bytes} (ho : Desk.Owned ⟨c.link, task, p, q⟩) :
    Desk.Owned ⟨c'.link, task, p, q⟩ := by
  have hside := h.pollSide
  refine ⟨fun he => ?_, fun he => ?_, ho.fits⟩
  · exact hside.upReceiver.trans (ho.upReceiver he)
  · exact hside.downSender.trans (ho.downSender he)

theorem Step.inv (hw : w.Inv) (h : Step w a w') : w'.Inv := by
  obtain ⟨hsender, hcap, hchunks, howned⟩ := hw
  cases h with
  | smoltcp => exact ⟨hsender, hcap, hchunks, howned⟩
  | poll hr h =>
    have ho := service_owned h howned
    obtain ⟨hs, hq⟩ := service_up h
    refine ⟨hs.trans hsender, (ConnStep.poll h).up_frame.1.trans hcap, ?_, ho⟩
    intro chunk hc
    rw [hq] at hc
    rcases List.mem_append.mp hc with hc | hc
    · exact hchunks chunk hc
    · split_ifs at hc with hnone
      · exact absurd hc List.not_mem_nil
      · rw [List.mem_singleton.mp hc]
        exact hnone
  | remove =>
    exact ⟨rfl, hcap, hchunks, ⟨howned.upReceiver, howned.downSender, howned.fits⟩⟩
  | task h =>
    obtain ⟨hs, hc, hq⟩ := task_up h
    exact ⟨hs.trans hsender, hc.trans hcap, fun chunk hc => hchunks chunk (hq.subset hc),
      h.owned howned⟩
  | toB | toA | targetRead | targetWrite | targetClose =>
    exact ⟨hsender, hcap, hchunks, ⟨howned.upReceiver, howned.downSender, howned.fits⟩⟩

theorem relay_conn_run {c : Conn} {tr : List (Link × Stack.RelayAct)} {link : Link}
    (h : Run Stack.RelayStep c.link tr link) : ∃ tr, Run ConnStep c tr { c with link } := by
  induction h with
  | nil => exact ⟨[], Run.nil⟩
  | snoc _ hl ih =>
    obtain ⟨tr, hrun⟩ := ih
    exact ⟨_, hrun.snoc (.relay hl)⟩

/-- Until the socket is removed, the connection does only what a connection can do. -/
theorem Step.conn_run (hw : w.Inv) (h : Step w a w') (hr : w'.removed = false) :
    ∃ tr, Run ConnStep w.conn tr w'.conn := by
  cases h with
  | smoltcp sock _ hp =>
    have hidle : w.conn = ⟨w.conn.sock, w.conn.link, .idle⟩ := Stack.Conn.ext rfl rfl hp
    have hstep : ConnStep ⟨w.conn.sock, w.conn.link, .idle⟩ (.smoltcp sock) _ := .smoltcp sock
    refine ⟨[(w.conn, .smoltcp sock)], ?_⟩
    simp only [hp]
    rw [← hidle] at hstep
    exact Run.single hstep
  | poll _ h => exact ⟨_, Run.single (.poll h)⟩
  | remove => cases hr
  | task h =>
    obtain ⟨tr, hrun⟩ := h.relay_run hw.owned
    exact relay_conn_run hrun
  | toB | toA | targetRead | targetWrite | targetClose => exact ⟨[], Run.nil⟩

theorem Step.was_there (h : Step w a w') (hr : w'.removed = false) :
    w.removed = false ∧ a ≠ .remove := by
  cases h with
  | remove => cases hr
  | _ => exact ⟨hr, fun he => by cases he⟩

/-- Over a whole run, what the tunnel does with its connection is a run of that connection. -/
theorem run_conn {tr : List (World × Act)} {ip : Ipv4Addr} {vport : UInt16} {remote : SocketAddr}
    (h : Run Step (World.fresh ip vport remote) tr w) (hr : w.removed = false) :
    ∃ tr', Run ConnStep (World.fresh ip vport remote).conn tr' w.conn := by
  have hall : w.Inv ∧ (w.removed = false →
      ∃ tr', Run ConnStep (World.fresh ip vport remote).conn tr' w.conn) := by
    apply h.invariant fun w => w.Inv ∧ (w.removed = false →
      ∃ tr', Run ConnStep (World.fresh ip vport remote).conn tr' w.conn)
    · exact ⟨World.inv_fresh ip vport remote, fun _ => ⟨[], Run.nil⟩⟩
    · rintro t a u ⟨hinv, hconn⟩ hs
      refine ⟨hs.inv hinv, ?_⟩
      intro hu
      obtain ⟨tr', hrun⟩ := hconn (hs.was_there hu).1
      obtain ⟨tr'', hstep⟩ := hs.conn_run hinv hu
      exact ⟨tr' ++ tr'', hrun.append hstep⟩
  exact hall.2 hr

end Invariant

end GravitalShare.Tunnel
