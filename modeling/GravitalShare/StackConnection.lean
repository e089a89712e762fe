import GravitalShare.Channel
import GravitalShare.Net
import GravitalShare.Transition

/-! One intercepted connection: the smoltcp socket, the two channels to the relay task,
and the servicing of the socket by the poll loop. smoltcp enters through the documented
behaviour of its socket calls; between two polls it may do anything to the socket. -/
namespace GravitalShare.Stack

def sockBuf : ℕ := 65536

inductive TcpState where
  | closed | listen | synSent | synReceived | established | finWait1 | finWait2
  | closeWait | closing | lastAck | timeWait
  deriving DecidableEq, Repr

/-- A smoltcp socket, as far as the stack can observe it: `rx` holds the octets not yet
dequeued, `tx` those queued for transmission. -/
structure TcpSocket where
  state : TcpState
  listenEndpoint : Option (Ipv4Addr × UInt16)
  rx : Bytes
  tx : Bytes
  deriving DecidableEq, Repr

namespace TcpSocket

def new : TcpSocket := ⟨.closed, none, [], []⟩

-- Err(ListenError::Unaddressable) on port zero; a new socket is never already open
def listen (s : TcpSocket) (ip : Ipv4Addr) (port : UInt16) : Option TcpSocket :=
  if port = 0 then none else some { s with state := .listen, listenEndpoint := some (ip, port) }

-- the half of the connection towards the app is open
def maySend (s : TcpSocket) : Bool := s.state = .established ∨ s.state = .closeWait

def canSend (s : TcpSocket) : Bool := s.maySend ∧ s.tx.length < sockBuf

-- data may be read in every state in which some is left
def canRecv (s : TcpSocket) : Bool := s.rx ≠ []

def free (s : TcpSocket) : ℕ := sockBuf-s.tx.length

/-- Enqueues what fits into the transmit buffer. -/
def sendSlice (s : TcpSocket) (data : Bytes) : TcpSocket :=
  if s.maySend then { s with tx := s.tx ++ data.take s.free } else s

def close (s : TcpSocket) : TcpSocket :=
  match s.state with
  | .listen | .synSent => { s with state := .closed }
  | .synReceived | .established => { s with state := .finWait1 }
  | .closeWait => { s with state := .lastAck }
  | _ => s

theorem close_buffers (s : TcpSocket) : s.close.rx = s.rx ∧ s.close.tx = s.tx := by
  unfold close
  split <;> exact ⟨rfl, rfl⟩

/-- The poll loop takes a socket in one of these two states for gone. -/
def isGone (s : TcpSocket) : Bool := s.state = .closed ∨ s.state = .timeWait

end TcpSocket

/-- The channels made by one `VirtualConnection::pair`: `up` runs from the poll loop to
the relay task, `down` the other way. -/
structure Link where
  localAddr : SocketAddr
  remote : SocketAddr
  up : Chan Bytes
  down : Chan Bytes

namespace Link

def pair (localAddr remote : SocketAddr) : Link :=
  ⟨localAddr, remote, Chan.new Bytes 256, Chan.new Bytes 256⟩

-- drop(conn) and drop(peer): each closes one end of both channels

def dropConn (l : Link) : Link := { l with up := l.up.dropReceiver, down := l.down.dropSender }

def dropPeer (l : Link) : Link := { l with up := l.up.dropSender, down := l.down.dropReceiver }

end Link

-- smoltcp → relay task. `contig` is the length of the contiguous slice `recv` hands out;
-- the closure returns `data.len()`, so the slice is dequeued whatever `try_send` says.
def drainRecv (contig : ℕ) (sock : TcpSocket) (up : Chan Bytes) : TcpSocket × Chan Bytes :=
  if sock.canRecv then
    let data := sock.rx.take contig
    let up := if data ≠ [] then (up.trySend data).2 else up
    ({ sock with rx := sock.rx.drop data.length }, up)
  else (sock, up)

/-- Whatever becomes of the chunk, the contiguous slice has left the receive buffer. -/
theorem drainRecv_eq (contig : ℕ) (sock : TcpSocket) (up : Chan Bytes) :
    drainRecv contig sock up = ({ sock with rx := sock.rx.drop contig },
      if sock.rx.take contig ≠ [] then (up.trySend (sock.rx.take contig)).2 else up) := by
  by_cases hrx : sock.rx = []
  · have hsock : sock = { sock with rx := [] } := by rw [← hrx]
    simp only [drainRecv, TcpSocket.canRecv, hrx, ne_eq, not_true, decide_false, List.take_nil,
      List.drop_nil, if_false, Bool.false_eq_true]
    rw [← hsock]
  · have hdrop : sock.rx.drop (sock.rx.take contig).length = sock.rx.drop contig := by
      rw [List.length_take]
      rcases Nat.le_total contig sock.rx.length with hle | hle
      · rw [Nat.min_eq_left hle]
      · rw [Nat.min_eq_right hle, List.drop_length, List.drop_eq_nil_of_le hle]
    simp only [drainRecv, TcpSocket.canRecv, ne_eq, hrx, not_false_eq_true, decide_true, if_true,
      hdrop]

-- one turn of `while socket.can_send()`; `none` leaves the loop
def sendTurn (sock : TcpSocket) (down : Chan Bytes) : Option (TcpSocket × Chan Bytes) :=
  if sock.canSend then
    match down.tryRecv with
    | some (data, down) => some (sock.sendSlice data, down)
    | none => none
  else none

theorem sendTurn_eq_some {sock sock' : TcpSocket} {down down' : Chan Bytes}
    (h : sendTurn sock down = some (sock', down')) :
    ∃ data, sock.canSend = true ∧ down.tryRecv = some (data, down') ∧
      sock' = sock.sendSlice data := by
  unfold sendTurn at h
  split at h
  · rename_i hs
    cases hr : down.tryRecv with
    | none => simp [hr] at h
    | some p =>
      simp only [hr, Option.some.injEq, Prod.mk.injEq] at h
      exact ⟨p.1, hs, by rw [← h.2], h.1.symm⟩
  · cases h

-- relay task → smoltcp, run without interruption
def sendLoop : ℕ → TcpSocket → Chan Bytes → TcpSocket × Chan Bytes
  | 0, sock, down => (sock, down)
  | fuel+1, sock, down =>
    match sendTurn sock down with
    | some (sock, down) => sendLoop fuel sock down
    | none => (sock, down)

-- if there is room the loop has found the channel empty, but the relay task may have sent since
def halfClose (sock : TcpSocket) (down : Chan Bytes) : TcpSocket :=
  if sock.canSend ∧ down.isClosed then sock.close else sock

/-- `service_socket` on the socket and the link it found; every turn of the loop takes
one chunk, so the loop makes at most as many turns as there are chunks. -/
def serviceLink (contig : ℕ) (sock : TcpSocket) (link : Link) : TcpSocket × Link :=
  let (sock, up) := drainRecv contig sock link.up
  let (sock, down) := sendLoop link.down.queue.length sock link.down
  (halfClose sock down, { link with up, down })

/-- Where the poll loop stands in `service_socket`. -/
inductive Phase where
  | idle
  | sending
  | closing
  deriving DecidableEq, Repr

@[ext]
structure Conn where
  sock : TcpSocket
  link : Link
  phase : Phase

inductive ServiceAct where
  | drain (contig : ℕ)
  | sendTurn
  | leaveLoop
  | finish

/-- `service_socket`, cut where the relay task can get in between. -/
inductive ServiceStep : Conn → ServiceAct → Conn → Prop
  | drain {sock : TcpSocket} {link : Link} (contig : ℕ) (hg : sock.isGone = false) :
      ServiceStep ⟨sock, link, .idle⟩ (.drain contig)
        ⟨(drainRecv contig sock link.up).1,
          { link with up := (drainRecv contig sock link.up).2 }, .sending⟩
  | sendTurn {sock sock' : TcpSocket} {link : Link} {down : Chan Bytes}
      (ht : Stack.sendTurn sock link.down = some (sock', down)) :
      ServiceStep ⟨sock, link, .sending⟩ .sendTurn ⟨sock', { link with down }, .sending⟩
  | leaveLoop {sock : TcpSocket} {link : Link} (ht : Stack.sendTurn sock link.down = none) :
      ServiceStep ⟨sock, link, .sending⟩ .leaveLoop ⟨sock, link, .closing⟩
  | finish {sock : TcpSocket} {link : Link} :
      ServiceStep ⟨sock, link, .closing⟩ .finish ⟨halfClose sock link.down, link, .idle⟩

inductive RelayAct where
  | recv
  | send (chunk : Bytes)
  | dropRx
  | dropTx

/-- What the relay task does to the channels of its connection. -/
inductive RelayStep : Link → RelayAct → Link → Prop
  -- conn_rx.recv()
  | recv {link : Link} {chunk : Bytes} {up : Chan Bytes} (hr : link.up.receiver = true)
      (ht : link.up.tryRecv = some (chunk, up)) : RelayStep link .recv { link with up }
  -- conn_tx.send(chunk) with the bytes of one read into a buffer of 16384
  | send {link : Link} {chunk : Bytes} (hs : link.down.sender = true)
      (hr : link.down.receiver = true) (hroom : link.down.queue.length < link.down.cap)
      (h1 : 1 ≤ chunk.length) (h2 : chunk.length ≤ 16384) :
      RelayStep link (.send chunk) { link with down := link.down.push chunk hroom }
  -- the upstream refused the data, or the task is over
  | dropRx {link : Link} : RelayStep link .dropRx { link with up := link.up.dropReceiver }
  | dropTx {link : Link} : RelayStep link .dropTx { link with down := link.down.dropSender }

theorem ServiceStep.addrs {c c' : Conn} {a : ServiceAct} (h : ServiceStep c a c') :
    c'.link.localAddr = c.link.localAddr ∧ c'.link.remote = c.link.remote := by
  cases h <;> exact ⟨rfl, rfl⟩

theorem RelayStep.addrs {link link' : Link} {a : RelayAct} (h : RelayStep link a link') :
    link'.localAddr = link.localAddr ∧ link'.remote = link.remote := by
  cases h <;> exact ⟨rfl, rfl⟩

/-- Inside one call of `service_socket`. -/
def ServiceInside (c : Conn) (a : ServiceAct) (c' : Conn) : Prop :=
  ServiceStep c a c' ∧ c'.phase ≠ .idle

/-- The loop of `service_socket` is a run that ends behind the loop. -/
theorem sendLoop_run (fuel : ℕ) (sock : TcpSocket) (link : Link)
    (hf : link.down.queue.length ≤ fuel) :
    ∃ tr, Run ServiceInside ⟨sock, link, .sending⟩ tr ⟨(sendLoop fuel sock link.down).1,
      { link with down := (sendLoop fuel sock link.down).2 }, .closing⟩ := by
  -- a turn takes one chunk, so the fuel covers what is left in the channel
  induction fuel generalizing sock link with
  | zero =>
    have hq : link.down.queue = [] := List.length_eq_zero_iff.mp (Nat.le_zero.mp hf)
    have hturn : sendTurn sock link.down = none := by
      simp [sendTurn, Chan.tryRecv_eq_none.mpr hq]
    exact ⟨_, Run.single ⟨ServiceStep.leaveLoop hturn, Phase.noConfusion⟩⟩
  | succ fuel ih =>
    cases hturn : sendTurn sock link.down with
    | none =>
      simp only [sendLoop, hturn]
      exact ⟨_, Run.single ⟨ServiceStep.leaveLoop hturn, Phase.noConfusion⟩⟩
    | some p =>
      obtain ⟨data, -, hrecv, -⟩ := sendTurn_eq_some hturn
      have hq := (Chan.tryRecv_eq_some hrecv).1
      have hshort : p.2.queue.length ≤ fuel := by
        rw [hq, List.length_cons] at hf
        omega
      obtain ⟨tr, hrun⟩ := ih p.1 { link with down := p.2 } hshort
      simp only [sendLoop, hturn]
      exact ⟨_, (Run.single ⟨ServiceStep.sendTurn hturn, Phase.noConfusion⟩).append hrun⟩

/-- Servicing a socket in one piece is one of the interleavings. -/
theorem serviceLink_run (contig : ℕ) (sock : TcpSocket) (link : Link)
    (hg : sock.isGone = false) :
    ∃ tr c, Run ServiceInside ⟨sock, link, .idle⟩ tr c ∧ ServiceStep c .finish
      ⟨(serviceLink contig sock link).1, (serviceLink contig sock link).2, .idle⟩ := by
  have hdrain : ServiceStep ⟨sock, link, .idle⟩ _ _ := .drain contig hg
  obtain ⟨tr, hloop⟩ := sendLoop_run link.down.queue.length (drainRecv contig sock link.up).1
    { link with up := (drainRecv contig sock link.up).2 } (Nat.le_refl _)
  exact ⟨_, _, (Run.single ⟨hdrain, Phase.noConfusion⟩).append hloop, ServiceStep.finish⟩

end GravitalShare.Stack
