import GravitalShare.TunnelUp

/-! The way down: from the target through the proxy and the relay task to the app's socket. -/
namespace GravitalShare.Tunnel

open Engine (Relay Desk DeskAct DeskStep)
open scoped List

def taskDown : DeskAct → Option (Pipe.Act UInt8)
  | .read _ | .send | .readEof => some .move
  | .refuse | .readErr | .sendErr => some .fail
  | _ => none

/-- What an action is for the chain on the way down. -/
def downAct : Act → Option (Pipe.Act UInt8)
  | .task a => taskDown a
  | .toA a => some a.pipe
  | .targetWrite bs => some (.produce bs)
  | .targetClose => some .close
  | _ => none

theorem givenOf_downAct (w : World) (a : Act) :
    Pipe.Act.givenOf (downAct a) = targetWroteAt w a := by
  cases a with
  | task a => cases a <;> rfl
  | toA a => cases a <;> rfl
  | conn | remove | toB | targetRead | targetWrite | targetClose => rfl

/-- The chain on the way down, where the poll loop was already sent `log`. -/
def World.down (w : World) (log : Bytes) : Pipe UInt8 :=
  .stage (.stage (.source w.answer w.answered) w.toA.hand w.toClient w.toA.isOver) w.task.upHand log
    w.task.upOver

theorem task_down_step {done : Bool} {d d' : Desk} {a : DeskAct} (h : DeskStep done d a d')
    (hfits : d.task.Fits) (feed : Bytes → Pipe UInt8) (ho : ∀ b, (feed b).out = b)
    (hd : ∀ b n, (feed b).drain n = feed (b.drop n)) (hf : done = true → ∀ b, (feed b).fin = true)
    (log : Bytes) :
    Pipe.StepOf (.stage (feed d.toClient) d.task.upHand log d.task.upOver) (taskDown a)
      (.stage (feed d'.toClient) d'.task.upHand (log ++ sent d.task a) d'.task.upOver) := by
  cases h with
  | @read link p c app n h0 hbuf hn =>
    have hstep : Pipe.Step (.stage (feed c) [] log false) .move _ :=
      .read n h0 ((ho c).symm ▸ hn)
    rw [hd, ho, List.nil_append] at hstep
    simp only [sent, List.append_nil]
    exact hstep
  | @send link chunk p c app hr hroom =>
    have hpos : 0 < chunk.length := hfits.2.1
    have hstep : Pipe.Step (.stage (feed c) chunk log false) .move _ :=
      .write chunk.length hpos (Nat.le_refl _)
    rw [List.drop_length, List.take_length] at hstep
    exact hstep
  | readEof hdone =>
    simp only [sent, List.append_nil]
    exact Pipe.Step.eof (ho []) (hf hdone [])
  | refuse | readErr | sendErr =>
    simp only [sent, List.append_nil]
    exact Pipe.Step.fail
  | connect | recv | write | hangUp | writeErr =>
    simp only [sent, List.append_nil]
    rfl

section Simulation

variable {w w' : World} {a : Act}

theorem Step.down_step (hw : w.Inv) (h : Step w a w') (log : Bytes) :
    Pipe.StepOf (w.down log) (downAct a) (w'.down (log ++ sentAt w a)) := by
  have hsilent : log ++ [] = log := List.append_nil log
  cases h with
  | task h =>
    exact task_down_step h hw.owned.fits
      (fun b => .stage (.source w.answer w.answered) w.toA.hand b w.toA.isOver) (fun _ => rfl)
      (fun _ _ => rfl) (fun hd _ => hd) log
  | toA hc h =>
    simp only [sentAt, hsilent]
    exact Pipe.Step.feed (h.pipe_step (fun b => .source b w.answered) (fun _ => rfl)
      (fun _ _ => rfl) (fun hd _ => hd) [])
  | targetWrite bs hc ha =>
    simp only [sentAt, hsilent, World.down, ha]
    exact Pipe.Step.feed (.feed (.produce bs))
  | targetClose hc ha =>
    simp only [sentAt, hsilent, World.down, ha]
    exact Pipe.Step.feed (.feed .close)
  | smoltcp | poll | remove | toB | targetRead =>
    simp only [sentAt, hsilent]
    rfl

end Simulation

/-- The actions by which the way down comes to an end too early. -/
def Act.failsDown : Act → Bool
  | .task .refuse | .task .readErr | .task .sendErr | .toA .err => true
  | _ => false

theorem downAct_ne_fail {a : Act} (h : a.failsDown = false) : downAct a ≠ some .fail := by
  intro hf
  cases a with
  | task a =>
    cases a with
    | refuse | readErr | sendErr => cases h
    | _ => cases hf
  | toA a =>
    cases a with
    | err => cases h
    | _ => cases hf
  | conn | remove | toB | targetRead | targetWrite | targetClose => cases hf

/-- The poll loop takes a chunk that is longer than the free part of the transmit buffer. -/
def FindsTxShort (w : World) : Act → Prop
  | .conn a => Stack.FindsTxShort w.conn a
  | _ => False

instance (w : World) : (a : Act) → Decidable (FindsTxShort w a)
  | .conn a => inferInstanceAs (Decidable (Stack.FindsTxShort w.conn a))
  | .remove | .task _ | .toB _ | .toA _ | .targetRead _ | .targetWrite _ | .targetClose =>
    inferInstanceAs (Decidable False)

/-- What a step takes out of the channel to the poll loop. -/
def takenAt (w : World) : Act → Bytes
  | .conn a => Stack.takenAt w.conn a
  | _ => []

theorem writtenAt_sublist (w : World) (a : Act) : writtenAt w a <+ takenAt w a := by
  cases a with
  | conn a => exact List.take_sublist _ _
  | _ => exact List.Sublist.refl _

theorem writtenAt_eq {w : World} {a : Act} (h : ¬FindsTxShort w a) :
    writtenAt w a = takenAt w a := by
  cases a with
  | conn a => exact List.take_of_length_le (Nat.not_lt.mp h)
  | _ => rfl

theorem task_down {done : Bool} {d d' : Desk} {a : DeskAct} (h : DeskStep done d a d') :
    d'.link.down.queue.flatten = d.link.down.queue.flatten ++ sent d.task a := by
  cases h with
  | send hr hroom =>
    simp only [Chan.queue_push, List.flatten_append, List.flatten_singleton, sent, Relay.upHand,
      Engine.UpToApp.hand]
  | _ => exact (List.append_nil _).symm

theorem service_down {c c' : Stack.Conn} {a : Stack.ServiceAct} (h : Stack.ServiceStep c a c') :
    Stack.takenAt c (.poll a) ++ c'.link.down.queue.flatten = c.link.down.queue.flatten := by
  cases h with
  | sendTurn ht =>
    obtain ⟨data, -, hrecv, -⟩ := Stack.sendTurn_eq_some ht
    simp only [Stack.takenAt, (Chan.tryRecv_eq_some hrecv).1, List.headD_cons, List.flatten_cons]
  | _ => rfl

/-- The channel to the poll loop gives what it was given, until it goes down with the socket. -/
theorem Step.down_queue {w w' : World} {a : Act} (h : Step w a w') (ha : a ≠ .remove) :
    takenAt w a ++ w'.conn.link.down.queue.flatten =
      w.conn.link.down.queue.flatten ++ sentAt w a := by
  cases h with
  | poll hr h => exact (service_down h).trans (List.append_nil _).symm
  | remove => exact absurd rfl ha
  | task h => exact task_down h
  | _ => exact (List.append_nil _).symm

section Runs

variable {ip : Ipv4Addr} {vport : UInt16} {remote : SocketAddr} {tr : List (World × Act)}
  {w : World}

theorem run_down_behind (h : Run Step (World.fresh ip vport remote) tr w) :
    w.Inv ∧ Pipe.Behind (gather targetWroteAt tr) (w.down (gather sentAt tr)) := by
  refine h.history (fun tr w => w.Inv ∧
    Pipe.Behind (gather targetWroteAt tr) (w.down (gather sentAt tr))) ?_ ?_
  · exact ⟨World.inv_fresh ip vport remote, List.prefix_refl _, fun _ => rfl⟩
  · intro tr w a w' hw hs
    have hstep := hw.2.stepOf (hs.down_step hw.1 (gather sentAt tr))
    rw [givenOf_downAct w] at hstep
    rw [gather_snoc, gather_snoc]
    exact ⟨hs.inv hw.1, hstep⟩

theorem run_down_exact (h : Run Step (World.fresh ip vport remote) tr w)
    (hf : ∀ p ∈ tr, p.2.failsDown = false) :
    w.Inv ∧ Pipe.Exact (gather targetWroteAt tr) (w.down (gather sentAt tr)) := by
  refine h.history_of (fun _ a => a.failsDown = false) (fun tr w => w.Inv ∧
    Pipe.Exact (gather targetWroteAt tr) (w.down (gather sentAt tr))) ?_ ?_ hf
  · refine ⟨World.inv_fresh ip vport remote, ⟨⟨trivial, ?_⟩, ?_⟩, rfl⟩
    · exact fun hf => absurd hf Bool.false_ne_true
    · exact fun hf => absurd hf Bool.false_ne_true
  · intro tr w a w' hw ha hs
    have hstep := hw.2.stepOf (hs.down_step hw.1 (gather sentAt tr)) (downAct_ne_fail ha)
    rw [givenOf_downAct w] at hstep
    rw [gather_snoc, gather_snoc]
    exact ⟨hs.inv hw.1, hstep⟩

theorem run_written_sublist (h : Run Step (World.fresh ip vport remote) tr w) :
    gather writtenAt tr ++ w.conn.link.down.queue.flatten <+ gather sentAt tr := by
  refine h.history (fun tr w =>
    gather writtenAt tr ++ w.conn.link.down.queue.flatten <+ gather sentAt tr) ?_ ?_
  · exact List.Sublist.refl _
  · intro tr w a w' hw hs
    rw [gather_snoc, gather_snoc]
    by_cases ha : a = .remove
    · subst ha
      cases hs
      show gather writtenAt tr ++ [] ++ [] <+ gather sentAt tr ++ []
      simp only [List.append_nil]
      exact (List.sublist_append_left _ _).trans hw
    · have hq := hs.down_queue ha
      calc gather writtenAt tr ++ writtenAt w a ++ w'.conn.link.down.queue.flatten
          <+ gather writtenAt tr ++ takenAt w a ++ w'.conn.link.down.queue.flatten :=
            ((writtenAt_sublist w a).append_left _).append_right _
        _ = gather writtenAt tr ++ w.conn.link.down.queue.flatten ++ sentAt w a := by
            rw [List.append_assoc, hq, List.append_assoc]
        _ <+ gather sentAt tr ++ sentAt w a := hw.append_right _

theorem run_written (h : Run Step (World.fresh ip vport remote) tr w)
    (hf : ∀ p ∈ tr, ¬FindsTxShort p.1 p.2) (hr : w.removed = false) :
    gather writtenAt tr ++ w.conn.link.down.queue.flatten = gather sentAt tr := by
  have key : w.removed = false →
      gather writtenAt tr ++ w.conn.link.down.queue.flatten = gather sentAt tr := by
    refine h.history_of (fun w a => ¬FindsTxShort w a) (fun tr w => w.removed = false →
      gather writtenAt tr ++ w.conn.link.down.queue.flatten = gather sentAt tr) ?_ ?_ hf
    · exact fun _ => rfl
    · intro tr w a w' hw ha hs hr
      obtain ⟨hr', hne⟩ := hs.was_there hr
      rw [gather_snoc, gather_snoc, writtenAt_eq ha, ← hw hr', List.append_assoc,
        hs.down_queue hne, List.append_assoc]
  exact key hr

/-- What is on its way down to the poll loop, nearest to it first. -/
def World.downTransit (w : World) : Bytes :=
  w.conn.link.down.queue.flatten ++ w.task.upHand ++ w.toClient ++ w.toA.hand ++ w.answer

end Runs

/-- The target answers with two bytes and hangs up, and the relay task follows. -/
theorem two_bytes_down : ∃ tr w,
    Run Step (World.fresh ⟨10, 0, 2, 2⟩ 10000 (.v4 ⟨93, 184, 216, 34⟩ 443)) tr w ∧
    (∀ p ∈ tr, p.2.failsDown = false ∧ ¬FindsTxShort p.1 p.2) ∧ w.removed = false ∧
    w.task.upOver = true ∧ gather targetWroteAt tr = [7, 8] := by
  have hconnect : Step (World.fresh ⟨10, 0, 2, 2⟩ 10000 (.v4 ⟨93, 184, 216, 34⟩ 443)) _ _ :=
    .task .connect
  have hanswered := ((Run.single hconnect).snoc (.targetWrite [7, 8] rfl rfl)).snoc
    (.targetClose rfl rfl)
  have hcopied := ((hanswered.snoc (.toA rfl (.read 2 (by decide) (by decide) (by decide)))).snoc
    (.toA rfl (.write 2 (by decide) (by decide)))).snoc (.toA rfl (.eof rfl))
  have hsent := ((hcopied.snoc (.task (.read 2 (by decide) (by decide) (by decide)))).snoc
    (.task (.send rfl (by decide)))).snoc (.task (.readEof rfl))
  have hopen := (hsent.snoc (.smoltcp ⟨.established, none, [], []⟩ rfl rfl)).snoc
    (.poll rfl (.drain 0 rfl))
  have hrun := hopen.snoc (.poll rfl (.sendTurn rfl))
  exact ⟨_, _, hrun, by decide, rfl, rfl, rfl⟩

/-- Whatever fails, the app's socket gets bytes of the target in the order in which the target has
sent them. While the socket is there, nothing fails and every chunk fits into the transmit buffer,
it gets all of them, and the relay task hangs up only when the target has, with nothing but its
own channel left to empty. -/
theorem tunnel_delivers_down {ip : Ipv4Addr} {vport : UInt16} {remote : SocketAddr}
    {tr : List (World × Act)} {w : World} (h : Run Step (World.fresh ip vport remote) tr w) :
    gather writtenAt tr <+ gather targetWroteAt tr ∧
    ((∀ p ∈ tr, p.2.failsDown = false ∧ ¬FindsTxShort p.1 p.2) → w.removed = false →
      gather writtenAt tr ++ w.downTransit = gather targetWroteAt tr ∧
      (w.task.upOver = true →
        w.answered = true ∧ w.downTransit = w.conn.link.down.queue.flatten)) := by
  constructor
  · have hsent : gather sentAt tr <+: gather targetWroteAt tr := by
      have hflow := (run_down_behind h).2.flow_begins
      simp only [World.down, Pipe.flow, List.append_assoc] at hflow
      exact (List.prefix_append _ _).trans hflow
    exact ((List.sublist_append_left _ _).trans (run_written_sublist h)).trans hsent.sublist
  · intro hf hr
    obtain ⟨-, hexact⟩ := run_down_exact h fun p hp => (hf p hp).1
    have hwritten := run_written h (fun p hp => (hf p hp).2) hr
    have htotal : gather sentAt tr ++ (w.task.upHand ++ (w.toClient ++ (w.toA.hand ++ w.answer))) =
        gather targetWroteAt tr := by
      have hflow := hexact.clean.flow_eq_total.symm.trans hexact.flow_eq
      simpa only [World.down, Pipe.total, List.append_assoc] using hflow
    constructor
    · rw [← htotal, ← hwritten]
      simp only [World.downTransit, List.append_assoc]
    · intro hover
      obtain ⟨hout, hclosed⟩ := hexact.end hover
      refine ⟨hclosed, ?_⟩
      have hnone := List.append_right_eq_self.mp (htotal.trans hout.symm)
      simp only [World.downTransit, List.append_assoc, hnone, List.append_nil]

theorem two_bytes_delivered_down : ∃ tr w,
    Run Step (World.fresh ⟨10, 0, 2, 2⟩ 10000 (.v4 ⟨93, 184, 216, 34⟩ 443)) tr w ∧
    w.task.upOver = true ∧ gather writtenAt tr ++ w.conn.link.down.queue.flatten = [7, 8] := by
  obtain ⟨tr, w, hrun, hf, hr, hover, hwrote⟩ := two_bytes_down
  obtain ⟨hall, hend⟩ := (tunnel_delivers_down hrun).2 hf hr
  rw [(hend hover).2, hwrote] at hall
  exact ⟨tr, w, hrun, hover, hall⟩

end GravitalShare.Tunnel
