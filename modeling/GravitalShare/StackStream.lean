import GravitalShare.StackConnection

/-! Byte streams through one connection, for every interleaving of the poll loop, smoltcp
and the relay task. -/
namespace GravitalShare.Stack

inductive ConnAct where
  | smoltcp (sock : TcpSocket)
  | poll (a : ServiceAct)
  | relay (a : RelayAct)

inductive ConnStep : Conn → ConnAct → Conn → Prop
  -- smoltcp's own progress while the poll loop is elsewhere: segments, acks, timers, resets
  | smoltcp {sock : TcpSocket} {link : Link} (sock' : TcpSocket) :
      ConnStep ⟨sock, link, .idle⟩ (.smoltcp sock') ⟨sock', link, .idle⟩
  | poll {c c' : Conn} {a : ServiceAct} (h : ServiceStep c a c') : ConnStep c (.poll a) c'
  | relay {sock : TcpSocket} {link link' : Link} {phase : Phase} {a : RelayAct}
      (h : RelayStep link a link') : ConnStep ⟨sock, link, phase⟩ (.relay a) ⟨sock, link', phase⟩

theorem ConnStep.up_frame {c c' : Conn} {a : ConnAct} (h : ConnStep c a c') :
    c'.link.up.cap = c.link.up.cap ∧
      (c'.link.up.receiver = true → c.link.up.receiver = true) := by
  cases h with
  | smoltcp => exact ⟨rfl, id⟩
  | poll h =>
    cases h with
    | drain contig =>
      simp only [drainRecv_eq]
      split
      · unfold Chan.trySend
        split <;> exact ⟨rfl, id⟩
      · exact ⟨rfl, id⟩
    | _ => exact ⟨rfl, id⟩
  | relay h =>
    cases h with
    | recv hr ht => exact ⟨(Chan.tryRecv_eq_some ht).2.1, fun _ => hr⟩
    | dropRx => exact ⟨rfl, fun hf => absurd hf Bool.false_ne_true⟩
    | _ => exact ⟨rfl, id⟩

/-- The connection as `create_listener` leaves it. -/
def Conn.fresh (ip : Ipv4Addr) (vport : UInt16) (remote : SocketAddr) : Conn where
  sock := { TcpSocket.new with state := .listen, listenEndpoint := some (ip, vport) }
  link := Link.pair (.v4 ip vport) remote
  phase := .idle

-- What a step moves: out of the receive buffer, out of the up channel, into the down
-- channel, into the transmit buffer.

def dequeuedAt (c : Conn) : ConnAct → Bytes
  | .poll (.drain contig) => c.sock.rx.take contig
  | _ => []

def receivedAt (c : Conn) : ConnAct → Bytes
  | .relay .recv => c.link.up.queue.headD []
  | _ => []

def sentAt (_ : Conn) : ConnAct → Bytes
  | .relay (.send chunk) => chunk
  | _ => []

def takenAt (c : Conn) : ConnAct → Bytes
  | .poll .sendTurn => c.link.down.queue.headD []
  | _ => []

def writtenAt (c : Conn) (a : ConnAct) : Bytes := (takenAt c a).take c.sock.free

/-- The ledgers are truthful: outside smoltcp's own steps the receive buffer loses exactly
the bytes dequeued and the transmit buffer gains exactly those written. -/
theorem ConnStep.buffers {c c' : Conn} {a : ConnAct} (h : ConnStep c a c')
    (ha : ∀ sock, a ≠ .smoltcp sock) :
    c.sock.rx = dequeuedAt c a ++ c'.sock.rx ∧ c'.sock.tx = c.sock.tx ++ writtenAt c a := by
  cases h with
  | smoltcp sock => exact absurd rfl (ha sock)
  | relay h => simp [dequeuedAt, writtenAt, takenAt]
  | poll h =>
    cases h with
    | drain contig => simp [drainRecv_eq, dequeuedAt, writtenAt, takenAt]
    | @sendTurn sock _ _ _ ht =>
      obtain ⟨data, hcan, hrecv, rfl⟩ := sendTurn_eq_some ht
      have hmay : sock.maySend = true := by
        simp only [TcpSocket.canSend, Bool.decide_and, Bool.and_eq_true, decide_eq_true_eq] at hcan
        exact hcan.1
      simp [TcpSocket.sendSlice, hmay, dequeuedAt, writtenAt, takenAt,
        (Chan.tryRecv_eq_some hrecv).1]
    | leaveLoop => simp [dequeuedAt, writtenAt, takenAt]
    | @finish sock =>
      have hclose := sock.close_buffers
      simp only [halfClose, dequeuedAt, writtenAt, takenAt, List.take_nil, List.nil_append,
        List.append_nil]
      split
      · exact ⟨hclose.1.symm, hclose.2⟩
      · exact ⟨rfl, rfl⟩

/-- The step dequeues bytes for which the up channel has no slot. -/
def FindsUpFull (c : Conn) (a : ConnAct) : Prop :=
  dequeuedAt c a ≠ [] ∧ 256 ≤ c.link.up.queue.length

/-- The step takes a chunk that is longer than the free part of the transmit buffer. -/
def FindsTxShort (c : Conn) (a : ConnAct) : Prop := c.sock.free < (takenAt c a).length

instance (c : Conn) (a : ConnAct) : Decidable (FindsUpFull c a) :=
  inferInstanceAs (Decidable (_ ∧ _))

instance (c : Conn) (a : ConnAct) : Decidable (FindsTxShort c a) :=
  inferInstanceAs (Decidable (_ < _))

/-- On the way up the only loss is a slice dequeued into a full channel. -/
theorem ConnStep.up_flow {c c' : Conn} {a : ConnAct} (h : ConnStep c a c')
    (hr : c'.link.up.receiver = true) (hcap : c'.link.up.cap = 256) :
    (¬FindsUpFull c a ∧
      c.link.up.queue.flatten ++ dequeuedAt c a = receivedAt c a ++ c'.link.up.queue.flatten) ∨
    (FindsUpFull c a ∧ (receivedAt c a).length+c'.link.up.queue.flatten.length <
      c.link.up.queue.flatten.length+(dequeuedAt c a).length) := by
  have hrc := h.up_frame.2 hr
  have hcc : c.link.up.cap = 256 := h.up_frame.1.symm.trans hcap
  cases h with
  | smoltcp => exact Or.inl ⟨fun hf => hf.1 rfl, List.append_nil _⟩
  | poll h =>
    cases h with
    | @drain sock link contig =>
      simp only [drainRecv_eq, dequeuedAt, receivedAt, FindsUpFull]
      -- an empty slice is not sent at all
      by_cases hdata : sock.rx.take contig = []
      · simp [hdata]
      · rcases Nat.lt_or_ge link.up.queue.length 256 with hlt | hge
        · -- the slice becomes the last chunk of the queue
          left
          rw [if_pos hdata, Chan.trySend_of_room ⟨hrc, hcc.symm ▸ hlt⟩]
          simp [Chan.queue_push, hdata, hlt]
        · -- the slice is refused, and its bytes are gone
          right
          have hfull : ¬(link.up.receiver = true ∧ link.up.queue.length < link.up.cap) :=
            fun hroom => absurd (hcc ▸ hroom.2) (Nat.not_lt.mpr hge)
          have hpos := List.length_pos_iff.mpr hdata
          rw [if_pos hdata, Chan.trySend_of_full hfull]
          exact ⟨⟨hdata, hge⟩, by simpa using hpos⟩
    | _ => exact Or.inl ⟨fun hf => hf.1 rfl, List.append_nil _⟩
  | relay h =>
    cases h with
    | recv _ ht =>
      left
      simp [FindsUpFull, dequeuedAt, receivedAt, (Chan.tryRecv_eq_some ht).1]
    -- what is queued goes down with the receiver, but here it is alive afterwards
    | dropRx => exact absurd hr Bool.false_ne_true
    | _ => exact Or.inl ⟨fun hf => hf.1 rfl, List.append_nil _⟩

/-- On the way down the only loss is the part of a chunk that the transmit buffer cannot
take. -/
theorem ConnStep.down_flow {c c' : Conn} {a : ConnAct} (h : ConnStep c a c') :
    (¬FindsTxShort c a ∧
      c.link.down.queue.flatten ++ sentAt c a = writtenAt c a ++ c'.link.down.queue.flatten) ∨
    (FindsTxShort c a ∧ (writtenAt c a).length+c'.link.down.queue.flatten.length <
      c.link.down.queue.flatten.length+(sentAt c a).length) := by
  cases h with
  | smoltcp => simp [FindsTxShort, sentAt, writtenAt, takenAt]
  | poll h =>
    cases h with
    | @sendTurn sock _ _ _ ht =>
      obtain ⟨data, -, hrecv, -⟩ := sendTurn_eq_some ht
      simp only [FindsTxShort, sentAt, writtenAt, takenAt, (Chan.tryRecv_eq_some hrecv).1,
        List.headD_cons, List.flatten_cons, List.length_append, List.append_nil, List.length_nil,
        List.length_take]
      rcases Nat.lt_or_ge sock.free data.length with hlt | hge
      · exact Or.inr ⟨hlt, by omega⟩
      · exact Or.inl ⟨Nat.not_lt.mpr hge, by rw [List.take_of_length_le hge]⟩
    | _ => simp [FindsTxShort, sentAt, writtenAt, takenAt]
  | relay h =>
    cases h with
    | send => simp [FindsTxShort, sentAt, writtenAt, takenAt, Chan.queue_push]
    | _ => simp [FindsTxShort, sentAt, writtenAt, takenAt, Chan.dropSender]

/-- The bytes written to the relay are the bytes taken from the app exactly in the runs in
which no poll dequeues data while the channel holds 256 chunks. -/
theorem app_to_upstream_integrity_iff {ip : Ipv4Addr} {vport : UInt16} {remote : SocketAddr}
    {tr : List (Conn × ConnAct)} {c : Conn} (h : Run ConnStep (Conn.fresh ip vport remote) tr c)
    (hr : c.link.up.receiver = true) :
    gather receivedAt tr ++ c.link.up.queue.flatten = gather dequeuedAt tr ↔
      ∀ p ∈ tr, ¬FindsUpFull p.1 p.2 := by
  have hcap : c.link.up.cap = 256 :=
    h.invariant (fun c => c.link.up.cap = 256) rfl fun _ _ _ hc hs => hs.up_frame.1.trans hc
  -- a receiver that is alive at the end has been alive all along
  have hlive := h.restrict (A := fun c => c.link.up.receiver = true ∧ c.link.up.cap = 256)
    (fun _ _ _ hs hu => ⟨hs.up_frame.2 hu.1, hs.up_frame.1.symm.trans hu.2⟩) ⟨hr, hcap⟩
  exact hlive.conserved_iff (fun c => c.link.up.queue.flatten) dequeuedAt receivedAt FindsUpFull
    (fun _ _ _ hs => hs.1.up_flow hs.2.1 hs.2.2) rfl

theorem app_to_upstream_integrity_one_chunk :
    ∃ tr c, Run ConnStep (Conn.fresh ⟨10, 0, 2, 2⟩ 10000 (.v4 ⟨93, 184, 216, 34⟩ 443)) tr c ∧
      gather dequeuedAt tr = [7, 8] ∧
      gather receivedAt tr ++ c.link.up.queue.flatten = gather dequeuedAt tr := by
  have harrive : ConnStep (Conn.fresh ⟨10, 0, 2, 2⟩ 10000 (.v4 ⟨93, 184, 216, 34⟩ 443)) _ _ :=
    ConnStep.smoltcp ⟨.established, none, [7, 8, 9], []⟩
  have hrun := (Run.single harrive).snoc (ConnStep.poll (ServiceStep.drain 2 rfl))
  refine ⟨_, _, hrun, rfl, (app_to_upstream_integrity_iff hrun rfl).mpr ?_⟩
  decide

/-- One segment with one byte arrives and is serviced; the relay task does not run. -/
theorem one_byte_turn (c : Conn) (hp : c.phase = .idle) (hd : c.link.down.queue = []) :
    ∃ tr sock, Run ConnStep c tr ⟨sock, { c.link with up := (c.link.up.trySend [0]).2 }, .idle⟩ ∧
      gather receivedAt tr = [] ∧ gather dequeuedAt tr = [0] := by
  obtain ⟨sock, ⟨la, remote, up, down⟩, phase⟩ := c
  obtain rfl : phase = .idle := hp
  let got : TcpSocket := ⟨.established, none, [0], []⟩
  let drained : TcpSocket := ⟨.established, none, [], []⟩
  let link : Link := ⟨la, remote, (up.trySend [0]).2, down⟩
  have hturn : sendTurn drained down = none := by
    simp [sendTurn, Chan.tryRecv_eq_none.mpr hd]
  have harrive : ConnStep ⟨sock, ⟨la, remote, up, down⟩, .idle⟩ (.smoltcp got)
      ⟨got, ⟨la, remote, up, down⟩, .idle⟩ := ConnStep.smoltcp got
  have hdrain : ServiceStep ⟨got, ⟨la, remote, up, down⟩, .idle⟩ (.drain 1)
      ⟨drained, link, .sending⟩ := ServiceStep.drain 1 rfl
  have hleave : ServiceStep ⟨drained, link, .sending⟩ .leaveLoop ⟨drained, link, .closing⟩ :=
    ServiceStep.leaveLoop hturn
  have hfinish : ServiceStep ⟨drained, link, .closing⟩ .finish
      ⟨halfClose drained down, link, .idle⟩ := ServiceStep.finish
  exact ⟨_, _, (((Run.single harrive).snoc (.poll hdrain)).snoc (.poll hleave)).snoc
    (.poll hfinish), rfl, rfl⟩

theorem fill_up_channel (c : Conn) (hp : c.phase = .idle) (hd : c.link.down.queue = [])
    (hu : c.link.up = Chan.new Bytes 256) (n : ℕ) (hn : n ≤ 256) :
    ∃ tr c', Run ConnStep c tr c' ∧ c'.phase = .idle ∧ c'.link.down.queue = [] ∧
      c'.link.up.receiver = true ∧ c'.link.up.cap = 256 ∧
      c'.link.up.queue = List.replicate n [0] ∧
      gather receivedAt tr = [] ∧ gather dequeuedAt tr = List.replicate n 0 := by
  -- the relay task never reads, so the queue holds every chunk sent so far
  induction n with
  | zero => exact ⟨[], c, Run.nil, hp, hd, by rw [hu]; rfl, by rw [hu]; rfl, by rw [hu]; rfl,
      rfl, rfl⟩
  | succ n ih =>
    obtain ⟨tr, c', hrun, hp', hd', hr', hcap', hq', hrecv, hdeq⟩ := ih (by omega)
    have hroom : c'.link.up.receiver = true ∧ c'.link.up.queue.length < c'.link.up.cap :=
      ⟨hr', by rw [hq', hcap', List.length_replicate]; omega⟩
    obtain ⟨tr2, sock, hrun2, hrecv2, hdeq2⟩ := one_byte_turn c' hp' hd'
    rw [Chan.trySend_of_room hroom] at hrun2
    refine ⟨tr ++ tr2, _, hrun.append hrun2, rfl, hd', hr', hcap', ?_, ?_, ?_⟩
    · rw [List.replicate_succ', ← hq']
      rfl
    · rw [gather_append, hrecv, hrecv2, List.append_nil]
    · rw [gather_append, hdeq, hdeq2, List.replicate_succ']

/-- 257 one-byte segments arrive before the relay task reads: the last byte is gone. -/
theorem app_to_upstream_loses_byte :
    ∃ tr c, Run ConnStep (Conn.fresh ⟨10, 0, 2, 2⟩ 10000 (.v4 ⟨93, 184, 216, 34⟩ 443)) tr c ∧
      c.link.up.receiver = true ∧ gather dequeuedAt tr = List.replicate 257 0 ∧
      gather receivedAt tr ++ c.link.up.queue.flatten ≠ gather dequeuedAt tr := by
  obtain ⟨tr, c, hrun, hp, hd, hr, hcap, hq, hrecv, hdeq⟩ :=
    fill_up_channel (Conn.fresh ⟨10, 0, 2, 2⟩ 10000 (.v4 ⟨93, 184, 216, 34⟩ 443)) rfl rfl rfl
      256 (Nat.le_refl _)
  obtain ⟨tr2, sock, hrun2, hrecv2, hdeq2⟩ := one_byte_turn c hp hd
  have hfull : ¬(c.link.up.receiver = true ∧ c.link.up.queue.length < c.link.up.cap) := by
    rw [hq, hcap, List.length_replicate]
    exact fun h => absurd h.2 (Nat.lt_irrefl _)
  rw [Chan.trySend_of_full hfull] at hrun2
  have hall : gather dequeuedAt (tr ++ tr2) = List.replicate 257 0 := by
    rw [gather_append, hdeq, hdeq2, ← List.replicate_succ']
  refine ⟨tr ++ tr2, _, hrun.append hrun2, hr, hall, ?_⟩
  intro heq
  -- 256 bytes are queued, none was received, and 257 were taken
  have hlen := congrArg List.length heq
  rw [hall, gather_append, hrecv, hrecv2, List.length_replicate] at hlen
  have hqueued : c.link.up.queue.flatten.length = 256 := by
    rw [hq, List.flatten_replicate_singleton, List.length_replicate]
  exact absurd (hqueued.symm.trans hlen) (by decide)

theorem upstream_to_app_integrity_iff {ip : Ipv4Addr} {vport : UInt16} {remote : SocketAddr}
    {tr : List (Conn × ConnAct)} {c : Conn}
    (h : Run ConnStep (Conn.fresh ip vport remote) tr c) :
    gather writtenAt tr ++ c.link.down.queue.flatten = gather sentAt tr ↔
      ∀ p ∈ tr, ¬FindsTxShort p.1 p.2 :=
  h.conserved_iff (fun c => c.link.down.queue.flatten) sentAt writtenAt FindsTxShort
    (fun _ _ _ hs => hs.down_flow) rfl

theorem upstream_to_app_integrity_one_chunk :
    ∃ tr c, Run ConnStep (Conn.fresh ⟨10, 0, 2, 2⟩ 10000 (.v4 ⟨93, 184, 216, 34⟩ 443)) tr c ∧
      gather sentAt tr = [1, 2] ∧
      gather writtenAt tr ++ c.link.down.queue.flatten = gather sentAt tr := by
  have hsend : ConnStep (Conn.fresh ⟨10, 0, 2, 2⟩ 10000 (.v4 ⟨93, 184, 216, 34⟩ 443))
      (.relay (.send [1, 2])) _ :=
    .relay (.send rfl rfl (by decide) (by decide) (by decide))
  have hrun := ((Run.single hsend).snoc (.smoltcp ⟨.established, none, [], []⟩)).snoc
    (.poll (.drain 0 rfl))
  have hrun := hrun.snoc (.poll (.sendTurn rfl))
  refine ⟨_, _, hrun, rfl, (upstream_to_app_integrity_iff hrun).mpr ?_⟩
  decide

/-- A chunk of two bytes meets a transmit buffer with one free byte. -/
theorem upstream_to_app_loses_byte :
    ∃ tr c, Run ConnStep (Conn.fresh ⟨10, 0, 2, 2⟩ 10000 (.v4 ⟨93, 184, 216, 34⟩ 443)) tr c ∧
      gather sentAt tr = [1, 2] ∧
      gather writtenAt tr ++ c.link.down.queue.flatten ≠ gather sentAt tr := by
  let down : Chan Bytes := (Chan.new Bytes 256).push [1, 2] (by decide)
  let addr : SocketAddr := .v4 ⟨10, 0, 2, 2⟩ 10000
  let remote : SocketAddr := .v4 ⟨93, 184, 216, 34⟩ 443
  let link : Link := ⟨addr, remote, Chan.new Bytes 256, down⟩
  let listening : TcpSocket := ⟨.listen, some (⟨10, 0, 2, 2⟩, 10000), [], []⟩
  -- of what fills the buffer only the length matters
  obtain ⟨fill, hfill⟩ : ∃ fill : Bytes, fill.length = 65535 :=
    ⟨List.replicate 65535 0, List.length_replicate⟩
  let busy : TcpSocket := ⟨.established, none, [], fill⟩
  have hfree : busy.free = 1 := by
    show 65536-fill.length = 1
    rw [hfill]
  have hcan : busy.canSend = true := by
    simp [TcpSocket.canSend, TcpSocket.maySend, busy, sockBuf, hfill]
  have hsend : ConnStep (Conn.fresh ⟨10, 0, 2, 2⟩ 10000 remote) (.relay (.send [1, 2]))
      ⟨listening, link, .idle⟩ := .relay (.send rfl rfl (by decide) (by decide) (by decide))
  have hbusy : ConnStep ⟨listening, link, .idle⟩ (.smoltcp busy) ⟨busy, link, .idle⟩ :=
    .smoltcp busy
  have hdrain : ServiceStep ⟨busy, link, .idle⟩ (.drain 0) ⟨busy, link, .sending⟩ := .drain 0 rfl
  have hturn : ServiceStep ⟨busy, link, .sending⟩ .sendTurn
      ⟨busy.sendSlice [1, 2], ⟨addr, remote, Chan.new Bytes 256, Chan.new Bytes 256⟩, .sending⟩ :=
    .sendTurn (by simp only [sendTurn, hcan, if_true]; rfl)
  refine ⟨_, _, (((Run.single hsend).snoc hbusy).snoc (.poll hdrain)).snoc (.poll hturn), rfl, ?_⟩
  simp [gather, writtenAt, takenAt, sentAt, hfree, link, down, Chan.push, Chan.new]

end GravitalShare.Stack
