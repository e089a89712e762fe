import GravitalShare.TunnelSystem
import Mathlib.Data.List.Flatten

/-! The way up: from the app's socket through the relay task and the proxy to the target. -/
namespace GravitalShare.Tunnel

open Engine (Relay Desk DeskAct DeskStep)
open scoped List

def CopyAct.pipe : CopyAct → Pipe.Act UInt8
  | .err => .fail
  | _ => .move

/-- A copy task is a program in a chain, behind whatever it reads from. -/
theorem CopyStep.pipe_step {done : Bool} {l l' : Lane} {a : CopyAct} (h : CopyStep done l a l')
    (feed : Bytes → Pipe UInt8) (ho : ∀ b, (feed b).out = b)
    (hd : ∀ b n, (feed b).drain n = feed (b.drop n)) (hf : done = true → ∀ b, (feed b).fin = true)
    (log : Bytes) :
    Pipe.Step (.stage (feed l.inp) l.copy.hand (log ++ l.out) l.copy.isOver) a.pipe
      (.stage (feed l'.inp) l'.copy.hand (log ++ l'.out) l'.copy.isOver) := by
  cases h with
  | @read inp buf out n h0 hn =>
    have hstep : Pipe.Step (.stage (feed inp) buf (log ++ out) false) .move _ :=
      .read n h0 ((ho inp).symm ▸ hn)
    rw [hd, ho] at hstep
    exact hstep
  | @write inp buf out n h0 hn =>
    have hstep : Pipe.Step (.stage (feed inp) buf (log ++ out) false) .move _ := .write n h0 hn
    rw [List.append_assoc] at hstep
    exact hstep
  | eof hdone => exact .eof (ho []) (hf hdone [])
  | err => exact .fail

def taskUp : DeskAct → Option (Pipe.Act UInt8)
  | .recv | .write _ | .hangUp => some .move
  | .refuse | .writeErr => some .fail
  | _ => none

/-- What an action is for the chain on the way up. -/
def upAct (w : World) : Act → Option (Pipe.Act UInt8)
  | .conn (.poll a) => some (.produce (accepted w.conn a))
  | .remove => some .close
  | .task a => taskUp a
  | .toB a => some a.pipe
  | _ => none

theorem givenOf_upAct (w : World) (a : Act) : Pipe.Act.givenOf (upAct w a) = acceptedAt w a := by
  cases a with
  | conn a => cases a <;> rfl
  | task a => cases a <;> rfl
  | toB a => cases a <;> rfl
  | remove | toA | targetRead | targetWrite | targetClose => rfl

/-- The relay task as the chain sees it, behind the channel from the poll loop. -/
def relayUp (d : Desk) : Pipe UInt8 :=
  .stage (.source d.link.up.queue.flatten (!d.link.up.sender)) d.task.appHand d.toProxy
    d.task.appOver

/-- The chain on the way up, where the target has already got `log`. -/
def World.up (w : World) (log : Bytes) : Pipe UInt8 :=
  .stage (relayUp w.desk) w.toB.hand (log ++ w.toTarget) w.toB.isOver

theorem task_up_step {done : Bool} {d d' : Desk} {a : DeskAct} (h : DeskStep done d a d')
    (hne : ∀ chunk ∈ d.link.up.queue, chunk ≠ []) :
    Pipe.StepOf (relayUp d) (taskUp a) (relayUp d') := by
  cases h with
  | connect => rfl
  | refuse => exact Pipe.Step.fail
  | @recv link chunk p c chan up ht =>
    obtain ⟨hq, -, hs, -⟩ := Chan.tryRecv_eq_some ht
    have hpos : 0 < chunk.length :=
      List.length_pos_iff.mpr (hne chunk (by rw [hq]; exact List.mem_cons_self))
    have hlen : chunk.length ≤ link.up.queue.flatten.length := by
      rw [hq, List.flatten_cons, List.length_append]
      exact Nat.le_add_right _ _
    have hstep : Pipe.Step (.stage (.source link.up.queue.flatten (!link.up.sender)) [] p false)
        .move _ := .read chunk.length hpos hlen
    simp only [Pipe.drain, Pipe.out, hq, List.flatten_cons, List.take_left, List.drop_left,
      List.nil_append] at hstep
    simp only [relayUp, Relay.appHand, Relay.appOver, Engine.AppToUp.hand_writeAll,
      Engine.AppToUp.isOver_writeAll, hs, hq, List.flatten_cons]
    exact hstep
  | @write link rest p c up n h0 hn =>
    simp only [relayUp, Relay.appHand, Relay.appOver, Engine.AppToUp.hand_writeAll,
      Engine.AppToUp.isOver_writeAll]
    exact Pipe.Step.write n h0 hn
  | @hangUp link p c up hq hs =>
    simp only [relayUp, Chan.dropReceiver, hq, hs]
    exact Pipe.Step.eof rfl rfl
  | writeErr => exact Pipe.Step.fail
  | read | readEof | readErr | send | sendErr => rfl

section Simulation

variable {w w' : World} {a : Act}

/-- The poll loop feeds the chain while it has its end of the channel. -/
theorem service_up_step {c : Stack.Conn} {act : Stack.ServiceAct} (hw : w.Inv)
    (hr : w.removed = false) (h : Stack.ServiceStep w.conn act c) :
    Pipe.StepOf (relayUp w.desk) (upAct w (.conn (.poll act)))
      (relayUp { w.desk with link := c.link }) := by
  obtain ⟨hs, hq⟩ := service_up h
  have hopen : w.conn.link.up.sender = true := by rw [hw.upSender, hr]; rfl
  have hflat : c.link.up.queue.flatten = w.conn.link.up.queue.flatten ++ accepted w.conn act := by
    rw [hq, List.flatten_append]
    split_ifs with hnone
    · rw [hnone, List.flatten_nil]
    · rw [List.flatten_singleton]
  simp only [relayUp, World.desk, hs, hopen, hflat]
  exact Pipe.Step.feed (.produce _)

theorem Step.up_step (hw : w.Inv) (h : Step w a w') (log : Bytes) :
    Pipe.StepOf (w.up log) (upAct w a) (w'.up (log ++ targetReadAt w a)) := by
  have hsilent : log ++ [] = log := List.append_nil log
  cases h with
  | smoltcp sock =>
    simp only [targetReadAt, hsilent]
    rfl
  | poll hr h =>
    simp only [targetReadAt, hsilent]
    exact (service_up_step hw hr h).feed _ _ _
  | remove hr =>
    simp only [targetReadAt, hsilent, World.up, relayUp, World.desk, hw.upSender, hr]
    exact Pipe.Step.feed (.feed .close)
  | task h =>
    simp only [targetReadAt, hsilent]
    exact (task_up_step h hw.chunks).feed _ _ _
  | toB hc h =>
    simp only [targetReadAt, hsilent]
    refine h.pipe_step (fun b => relayUp { w.desk with toProxy := b }) (fun _ => rfl)
      (fun _ _ => rfl) ?_ log
    exact fun hd _ => Relay.appOver_of_hasShutDown hd
  | targetRead n hn =>
    simp only [World.up, targetReadAt, List.append_assoc, List.take_append_drop]
    rfl
  | toA | targetWrite | targetClose =>
    simp only [targetReadAt, hsilent]
    rfl

end Simulation

/-- The actions by which the way up comes to an end too early. -/
def Act.failsUp : Act → Bool
  | .task .refuse | .task .writeErr | .toB .err => true
  | _ => false

theorem upAct_ne_fail {w : World} {a : Act} (h : a.failsUp = false) : upAct w a ≠ some .fail := by
  intro hf
  cases a with
  | conn a => cases a <;> cases hf
  | task a =>
    cases a with
    | refuse | writeErr => cases h
    | _ => cases hf
  | toB a =>
    cases a with
    | err => cases h
    | _ => cases hf
  | remove | toA | targetRead | targetWrite | targetClose => cases hf

/-- The poll loop takes bytes from the app for which the channel has no slot. -/
def FindsUpFull (w : World) : Act → Prop
  | .conn a => Stack.FindsUpFull w.conn a
  | _ => False

instance (w : World) : (a : Act) → Decidable (FindsUpFull w a)
  | .conn a => inferInstanceAs (Decidable (Stack.FindsUpFull w.conn a))
  | .remove | .task _ | .toB _ | .toA _ | .targetRead _ | .targetWrite _ | .targetClose =>
    inferInstanceAs (Decidable False)

theorem acceptedAt_sublist (w : World) (a : Act) : acceptedAt w a <+ dequeuedAt w a := by
  cases a with
  | conn a =>
    cases a with
    | poll a =>
      cases a with
      | drain contig =>
        simp only [acceptedAt, accepted]
        split_ifs
        · exact List.Sublist.refl _
        · exact List.nil_sublist _
      | sendTurn | leaveLoop | finish => exact List.Sublist.refl _
    | smoltcp | relay => exact List.nil_sublist _
  | remove | task | toB | toA | targetRead | targetWrite | targetClose => exact List.Sublist.refl _

theorem task_admitted {done : Bool} {d d' : Desk} {a : DeskAct} (h : DeskStep done d a d')
    (ha : a ≠ .refuse) : d'.task ≠ .refused := by
  cases h with
  | refuse => exact absurd rfl ha
  | _ => exact Relay.noConfusion

section Runs

variable {ip : Ipv4Addr} {vport : UInt16} {remote : SocketAddr} {tr tr' : List (World × Act)}
  {w w' : World} {a : Act}

theorem run_up_behind (h : Run Step (World.fresh ip vport remote) tr w) :
    w.Inv ∧ Pipe.Behind (gather acceptedAt tr) (w.up (gather targetReadAt tr)) := by
  refine h.history (fun tr w => w.Inv ∧
    Pipe.Behind (gather acceptedAt tr) (w.up (gather targetReadAt tr))) ?_ ?_
  · exact ⟨World.inv_fresh ip vport remote, List.prefix_refl _, fun _ => rfl⟩
  · intro tr w a w' hw hs
    have hstep := hw.2.stepOf (hs.up_step hw.1 (gather targetReadAt tr))
    rw [givenOf_upAct] at hstep
    rw [gather_snoc, gather_snoc]
    exact ⟨hs.inv hw.1, hstep⟩

/-- Nothing was lost so far, and the relay task has its tunnel or may still get it. -/
structure Sound (tr : List (World × Act)) (w : World) : Prop where
  inv : w.Inv
  exact : Pipe.Exact (gather acceptedAt tr) (w.up (gather targetReadAt tr))
  admitted : w.task ≠ .refused

theorem Sound.fresh (ip : Ipv4Addr) (vport : UInt16) (remote : SocketAddr) :
    Sound [] (World.fresh ip vport remote) := by
  refine ⟨World.inv_fresh ip vport remote, ⟨⟨⟨trivial, ?_⟩, ?_⟩, rfl⟩, Relay.noConfusion⟩
  · exact fun hf => absurd hf Bool.false_ne_true
  · exact fun hf => absurd hf Bool.false_ne_true

theorem Step.admitted (h : Step w a w') (hw : w.task ≠ .refused) (ha : a.failsUp = false) :
    w'.task ≠ .refused := by
  cases h with
  | task h =>
    apply task_admitted h
    intro he
    rw [he] at ha
    cases ha
  | _ => exact hw

theorem Sound.step (hw : Sound tr w) (h : Step w a w') (ha : a.failsUp = false) :
    Sound (tr ++ [(w, a)]) w' := by
  have hstep := hw.exact.stepOf (h.up_step hw.inv (gather targetReadAt tr)) (upAct_ne_fail ha)
  rw [givenOf_upAct] at hstep
  refine ⟨h.inv hw.inv, ?_, h.admitted hw.admitted ha⟩
  rw [gather_snoc, gather_snoc]
  exact hstep

/-- While nothing fails, the relay task listens as long as the socket is there. -/
theorem Sound.listening (hw : Sound tr w) (hr : w.removed = false) :
    w.conn.link.up.receiver = true := by
  apply hw.inv.owned.upReceiver
  by_contra hover
  have hclosed : (!w.conn.link.up.sender) = true :=
    (hw.exact.clean.1.2 (Bool.of_not_eq_false hover)).2.2
  rw [hw.inv.upSender, hr] at hclosed
  cases hclosed

theorem Sound.acceptedAt_eq (hw : Sound tr w) (h : Step w a w') (hroom : ¬FindsUpFull w a) :
    acceptedAt w a = dequeuedAt w a := by
  cases h with
  | @poll act c hr h =>
    cases act with
    | drain contig =>
      have hcap := hw.inv.upCap
      simp only [acceptedAt, accepted, dequeuedAt, Stack.dequeuedAt]
      split_ifs with hslot
      · rfl
      · -- a full channel is no matter if there is nothing to put into it
        by_contra hne
        apply hroom
        refine ⟨Ne.symm hne, ?_⟩
        by_contra hlt
        exact hslot ⟨hw.listening hr, by omega⟩
    | sendTurn | leaveLoop | finish => rfl
  | _ => rfl

theorem Sound.run (hw : Sound tr w) (h : Run Step w tr' w')
    (hf : ∀ p ∈ tr', p.2.failsUp = false) : Sound (tr ++ tr') w' := by
  refine h.history_of (fun _ a => a.failsUp = false) (fun tr' w' => Sound (tr ++ tr') w') ?_ ?_ hf
  · rwa [List.append_nil]
  · intro tr' u a u' hu ha hs
    rw [← List.append_assoc]
    exact hu.step hs ha

theorem run_accepted (h : Run Step (World.fresh ip vport remote) tr w)
    (hf : ∀ p ∈ tr, p.2.failsUp = false ∧ ¬FindsUpFull p.1 p.2) :
    Sound tr w ∧ gather acceptedAt tr = gather dequeuedAt tr := by
  refine h.history_of (fun w a => a.failsUp = false ∧ ¬FindsUpFull w a)
    (fun tr w => Sound tr w ∧ gather acceptedAt tr = gather dequeuedAt tr) ?_ ?_ hf
  · exact ⟨Sound.fresh ip vport remote, rfl⟩
  · intro tr w a w' hw ha hs
    refine ⟨hw.1.step hs ha.1, ?_⟩
    rw [gather_snoc, gather_snoc, hw.2, hw.1.acceptedAt_eq hs ha.2]

/-- What is on its way up, nearest to the target first. -/
def World.upTransit (w : World) : Bytes :=
  w.toB.hand ++ w.toProxy ++ w.task.appHand ++ w.conn.link.up.queue.flatten

theorem World.total_up (w : World) (log : Bytes) :
    (w.up log).total = log ++ w.toTarget ++ w.upTransit := by
  simp only [World.up, relayUp, Pipe.total, World.upTransit, World.desk, List.append_assoc]

theorem Sound.transit (hw : Sound tr w) :
    gather targetReadAt tr ++ w.toTarget ++ w.upTransit = gather acceptedAt tr := by
  rw [← w.total_up, ← hw.exact.clean.flow_eq_total, hw.exact.flow_eq]

theorem Sound.end_up (hw : Sound tr w) (hover : w.toB.isOver = true) :
    gather targetReadAt tr ++ w.toTarget = gather acceptedAt tr ∧ w.removed = true := by
  obtain ⟨hout, hclosed⟩ := hw.exact.end hover
  have hsender : (!w.conn.link.up.sender) = true := hclosed
  rw [hw.inv.upSender, Bool.not_not] at hsender
  exact ⟨hout, hsender⟩

end Runs

/-- Two bytes go all the way up, the socket is removed, and the end of the stream follows. -/
theorem two_bytes_up : ∃ tr w,
    Run Step (World.fresh ⟨10, 0, 2, 2⟩ 10000 (.v4 ⟨93, 184, 216, 34⟩ 443)) tr w ∧
    (∀ p ∈ tr, p.2.failsUp = false ∧ ¬FindsUpFull p.1 p.2) ∧ gather dequeuedAt tr = [7, 8] ∧
    w.removed = true ∧ w.task.connected = true ∧ w.toB.isOver = true := by
  have harrive : Step (World.fresh ⟨10, 0, 2, 2⟩ 10000 (.v4 ⟨93, 184, 216, 34⟩ 443)) _ _ :=
    .smoltcp ⟨.established, none, [7, 8], []⟩ rfl rfl
  have hpolled := (((Run.single harrive).snoc (.poll rfl (.drain 2 rfl))).snoc
    (.poll rfl (.leaveLoop rfl))).snoc (.poll rfl .finish)
  have hwritten := ((hpolled.snoc (.task .connect)).snoc (.task (.recv rfl))).snoc
    (.task (.write 2 (by decide) (by decide)))
  have hcopied := (hwritten.snoc (.toB rfl (.read 2 (by decide) (by decide) (by decide)))).snoc
    (.toB rfl (.write 2 (by decide) (by decide)))
  have hremoved := (hcopied.snoc (.smoltcp ⟨.closed, none, [], []⟩ rfl rfl)).snoc
    (.remove rfl rfl rfl)
  have hrun := (hremoved.snoc (.task (.hangUp rfl rfl))).snoc (.toB rfl (.eof rfl))
  exact ⟨_, _, hrun, by decide, rfl, rfl, rfl, rfl⟩

/-- Whatever fails, the target gets bytes of the app in the order in which the app has sent them.
While nothing fails and the channel has a slot for every chunk, it gets all of them, and it sees
the end of the stream only behind the last one, after the socket was removed. -/
theorem tunnel_delivers_up {ip : Ipv4Addr} {vport : UInt16} {remote : SocketAddr}
    {tr : List (World × Act)} {w : World} (h : Run Step (World.fresh ip vport remote) tr w) :
    gather targetReadAt tr ++ w.toTarget <+ gather dequeuedAt tr ∧
    ((∀ p ∈ tr, p.2.failsUp = false ∧ ¬FindsUpFull p.1 p.2) →
      gather targetReadAt tr ++ w.toTarget ++ w.upTransit = gather dequeuedAt tr ∧
      (w.toB.isOver = true → w.removed = true ∧ w.upTransit = [])) := by
  constructor
  · have hprefix : gather targetReadAt tr ++ w.toTarget <+: gather acceptedAt tr := by
      have hflow := (run_up_behind h).2.flow_begins
      simp only [World.up, Pipe.flow, List.append_assoc] at hflow
      rw [← List.append_assoc] at hflow
      exact (List.prefix_append _ _).trans hflow
    exact hprefix.sublist.trans (List.Sublist.flatMap_right tr fun p _ => acceptedAt_sublist _ _)
  · intro hf
    obtain ⟨hw, haccepted⟩ := run_accepted h hf
    have htransit := hw.transit
    refine ⟨htransit.trans haccepted, ?_⟩
    intro hover
    obtain ⟨hall, hremoved⟩ := hw.end_up hover
    refine ⟨hremoved, ?_⟩
    rw [← hall] at htransit
    exact List.append_right_eq_self.mp htransit

theorem two_bytes_delivered_up : ∃ tr w,
    Run Step (World.fresh ⟨10, 0, 2, 2⟩ 10000 (.v4 ⟨93, 184, 216, 34⟩ 443)) tr w ∧
    gather targetReadAt tr ++ w.toTarget = [7, 8] ∧ w.toB.isOver = true := by
  obtain ⟨tr, w, hrun, hf, hall, -, -, hover⟩ := two_bytes_up
  obtain ⟨htransit, hend⟩ := (tunnel_delivers_up hrun).2 hf
  rw [(hend hover).2, List.append_nil, hall] at htransit
  exact ⟨tr, w, hrun, htransit, hover⟩

end GravitalShare.Tunnel
