import GravitalShare.TunnelUp

/-! How a tunnel comes to its end: once the poll loop has removed the socket, the way up runs dry
in a bounded number of moves, and until then it waits for nobody but a target that does not read. -/
namespace GravitalShare.Tunnel

open Engine (AppToUp UpToApp Relay Desk DeskAct DeskStep)
open Stack (Link)

def Act.movesUp : Act → Bool
  | .task .recv | .task (.write _) | .task .hangUp => true
  | .toB (.read _) | .toB (.write _) | .toB .eof => true
  | _ => false

/-- How many unread bytes the streams to the proxy and to the target can hold. -/
structure Room where
  toProxy : ℕ
  toTarget : ℕ
  toProxy_pos : 0 < toProxy
  toTarget_pos : 0 < toTarget

structure World.Within (room : Room) (w : World) : Prop where
  toProxy : w.toProxy.length ≤ room.toProxy
  toTarget : w.toTarget.length ≤ room.toTarget

/-- A step for which the streams have room: `write_all` and `copy` wait while a stream is full. -/
def RoomStep (room : Room) (w : World) (a : Act) (w' : World) : Prop :=
  Step w a w' ∧ w'.Within room

/-- A bound for the moves left on the way up and the bytes that the target has left to read. -/
def World.upWork (w : World) : ℕ := (w.up []).work 1

theorem World.work_up (w : World) (log : Bytes) :
    (w.up log).work 1 = log.length+w.upWork := by
  simp only [upWork, World.up, Pipe.work, List.length_append, List.nil_append, Nat.one_mul,
    Nat.add_assoc]

theorem upAct_movesUp {w : World} {a : Act} (h : a.movesUp = true) : upAct w a = some .move := by
  cases a with
  | task a => cases a <;> first | rfl | cases h
  | toB a => cases a <;> first | rfl | cases h
  | conn | remove | toA | targetRead | targetWrite | targetClose => cases h

theorem task_connected {done : Bool} {d d' : Desk} {a : DeskAct} (h : DeskStep done d a d')
    (hd : d.task.connected = true) : d'.task.connected = true := by
  cases h with
  | refuse => cases hd
  | _ => rfl

/-- A copy task that has something to pass on, or that has found the end, needs room for one byte
at most. -/
theorem copy_progress {done : Bool} {buf : Bytes} (inp out : Bytes)
    (h : buf ≠ [] ∨ inp ≠ [] ∨ done = true) : ∃ a l, (Act.toB a).movesUp = true ∧
      CopyStep done ⟨inp, .copying buf, out⟩ a l ∧ l.inp.length ≤ inp.length ∧
      l.out.length ≤ out.length+1 := by
  cases buf with
  | cons b buf =>
    refine ⟨_, _, rfl, .write 1 Nat.one_pos (Nat.le_add_left 1 _), le_rfl, ?_⟩
    rw [List.length_append]
    exact Nat.add_le_add_left (List.length_take_le 1 _) _
  | nil =>
    cases inp with
    | cons b inp =>
      refine ⟨_, _, rfl, .read 1 Nat.one_pos (Nat.le_add_left 1 _) (by decide), ?_, Nat.le_succ _⟩
      exact Nat.le_succ _
    | nil =>
      rcases h with h | h | h
      · exact absurd rfl h
      · exact absurd rfl h
      · exact ⟨_, _, rfl, .eof h, le_rfl, Nat.le_succ _⟩

/-- The relay task always has something to do until it has shut down its stream, and needs room
for one byte at most. -/
theorem task_progress (done : Bool) {link : Link} {app : AppToUp} (up : UpToApp) (p c : Bytes)
    (hs : link.up.sender = false) (hfits : app.Fits) (hover : app.isOver = false) :
    ∃ a d, (Act.task a).movesUp = true ∧ DeskStep done ⟨link, .relaying app up, p, c⟩ a d ∧
      d.toProxy.length ≤ p.length+1 := by
  cases app with
  | ended => cases hover
  | writing rest =>
    refine ⟨_, _, rfl, .write 1 Nat.one_pos (List.length_pos_iff.mpr hfits), ?_⟩
    rw [List.length_append]
    exact Nat.add_le_add_left (List.length_take_le 1 _) _
  | recv =>
    cases hrecv : link.up.tryRecv with
    | some r => exact ⟨_, _, rfl, .recv hrecv, Nat.le_succ _⟩
    | none => exact ⟨_, _, rfl, .hangUp (Chan.tryRecv_eq_none.mp hrecv) hs, Nat.le_succ _⟩

section Steps

variable {tr : List (World × Act)} {w w' : World} {a : Act}

theorem Step.removed (h : Step w a w') (hr : w.removed = true) : w'.removed = true := by
  cases h with
  | remove => rfl
  | _ => exact hr

theorem Step.connected (h : Step w a w') (hc : w.task.connected = true) :
    w'.task.connected = true := by
  cases h with
  | task h => exact task_connected h hc
  | _ => exact hc

/-- With the socket removed every step leaves the way up as it is or brings it nearer to its
end. -/
theorem Sound.work_step (hw : Sound tr w) (hr : w.removed = true) (h : Step w a w')
    (ha : a.failsUp = false) :
    (if a.movesUp then 1 else 0)+(targetReadAt w a).length+w'.upWork ≤ w.upWork := by
  have hclosed : (w.up []).closed = true := by
    show (!w.conn.link.up.sender) = true
    rw [hw.inv.upSender, hr]
    rfl
  have hstep := h.up_step hw.inv []
  have hbefore : (w.up []).work 1 = w.upWork := rfl
  have hbehind := w'.work_up ([] ++ targetReadAt w a)
  rw [List.nil_append] at hbehind hstep
  cases hact : upAct w a with
  | none =>
    have hstill : a.movesUp = false := by
      by_contra hm
      rw [upAct_movesUp (Bool.of_not_eq_false hm)] at hact
      cases hact
    rw [hact] at hstep
    rw [show w'.up (targetReadAt w a) = w.up [] from hstep, hbefore] at hbehind
    rw [hstill, hbehind, if_neg Bool.false_ne_true, Nat.zero_add]
  | some α =>
    rw [hact] at hstep
    have hpipe : Pipe.Step (w.up []) α (w'.up (targetReadAt w a)) := hstep
    have hnofail : α ≠ .fail := fun he => upAct_ne_fail ha (hact.trans (congrArg some he))
    have hlt := hpipe.work_lt (hpipe.of_closed hclosed hnofail).1 1
    rw [hbefore, hbehind] at hlt
    split_ifs <;> omega

/-- The way up is not stuck while the stream to the target has room: the copy task can move, or
it has nothing to do and the relay task can. -/
theorem Sound.progress {room : Room} (hw : Sound tr w) (hr : w.removed = true)
    (hc : w.task.connected = true) (hover : w.toB.isOver = false) (hin : w.Within room)
    (hroom : w.toTarget.length < room.toTarget) :
    ∃ a w', a.movesUp = true ∧ RoomStep room w a w' := by
  cases hcopy : w.toB with
  | ended =>
    rw [hcopy] at hover
    cases hover
  | copying buf =>
    by_cases hleft : buf ≠ [] ∨ w.toProxy ≠ [] ∨ w.task.hasShutDown = true
    · obtain ⟨a, l, hm, hstep, hinp, hout⟩ := copy_progress w.toProxy w.toTarget hleft
      rw [← hcopy] at hstep
      exact ⟨_, _, hm, .toB hc hstep, hinp.trans hin.toProxy, hout.trans hroom⟩
    · obtain ⟨-, hempty, hopen⟩ : buf = [] ∧ w.toProxy = [] ∧ w.task.hasShutDown = false := by
        simpa using hleft
      cases htask : w.task with
      | connecting | refused =>
        rw [htask] at hc
        cases hc
      | relaying app up =>
        have hsender : w.conn.link.up.sender = false := by rw [hw.inv.upSender, hr]; rfl
        have hfits : w.task.Fits := hw.inv.owned.fits
        rw [htask] at hfits hopen
        obtain ⟨a, d, hm, hstep, hd⟩ :=
          task_progress w.toA.isOver up w.toProxy w.toClient hsender hfits.1 hopen
        rw [← htask] at hstep
        rw [hempty] at hd
        exact ⟨_, _, hm, .task hstep, hd.trans room.toProxy_pos, hin.toTarget⟩

end Steps

section Runs

variable {ip : Ipv4Addr} {vport : UInt16} {remote : SocketAddr} {tr tr' : List (World × Act)}
  {w w' : World} {a : Act} {room : Room}

theorem World.within_fresh (room : Room) : (World.fresh ip vport remote).Within room :=
  ⟨Nat.zero_le _, Nat.zero_le _⟩

theorem within_run (h : Run (RoomStep room) w tr w') (hw : w.Within room) : w'.Within room :=
  h.invariant (World.Within room) hw fun _ _ _ _ hs => hs.2

theorem room_run (h : Run (RoomStep room) w tr w') : Run Step w tr w' :=
  h.mono fun _ _ _ hs => hs.1

theorem Sound.drain_run (hw : Sound tr w) (hr : w.removed = true) (hc : w.task.connected = true)
    (h : Run Step w tr' w') (hf : ∀ p ∈ tr', p.2.failsUp = false) :
    w'.removed = true ∧ w'.task.connected = true ∧
      (tr'.countP fun p => p.2.movesUp)+(gather targetReadAt tr').length+w'.upWork ≤
        w.upWork := by
  have key : Sound (tr ++ tr') w' ∧ w'.removed = true ∧ w'.task.connected = true ∧
      (tr'.countP fun p => p.2.movesUp)+(gather targetReadAt tr').length+w'.upWork ≤
        w.upWork := by
    refine h.history_of (fun _ a => a.failsUp = false) (fun tr' w' => Sound (tr ++ tr') w' ∧
      w'.removed = true ∧ w'.task.connected = true ∧
      (tr'.countP fun p => p.2.movesUp)+(gather targetReadAt tr').length+w'.upWork ≤
        w.upWork) ?_ ?_ hf
    · rw [List.append_nil]
      exact ⟨hw, hr, hc, (Nat.zero_add _).le⟩
    · rintro tr' u a u' ⟨hu, hr, hc, hle⟩ ha hs
      have hwork := hu.work_step hr hs ha
      have hcount : ((tr' ++ [(u, a)]).countP fun p => p.2.movesUp) =
          (tr'.countP fun p => p.2.movesUp)+if a.movesUp then 1 else 0 := by
        rw [List.countP_append, List.countP_singleton]
      rw [← List.append_assoc, hcount, gather_snoc, List.length_append]
      exact ⟨hu.step hs ha, hs.removed hr, hs.connected hc, by omega⟩
  exact key.2

/-- While the target does not read, the copy task keeps what it holds and nobody can go on. -/
theorem full_target_blocks {b : UInt8} {buf : Bytes} (htask : w.task.hasShutDown = true)
    (hproxy : w.toProxy = []) (hcopy : w.toB = .copying (b :: buf))
    (hfull : w.toTarget.length = room.toTarget) :
    ¬∃ a u, a.movesUp = true ∧ RoomStep room w a u := by
  have hcopies {done : Bool} {act : CopyAct} {l : Lane}
      (h : CopyStep done ⟨[], .copying (b :: buf), w.toTarget⟩ act l)
      (hm : (Act.toB act).movesUp = true) : w.toTarget.length < l.out.length := by
    cases h with
    | read n h0 hn => exact absurd hn (Nat.not_le.mpr h0)
    | write n h0 hn =>
      rw [List.length_append, List.length_take, Nat.min_eq_left hn]
      exact Nat.lt_add_of_pos_right h0
    | err => cases hm
  have htasks {done : Bool} {link : Link} {task : Relay} {p c : Bytes} {act : DeskAct} {d : Desk}
      (h : DeskStep done ⟨link, task, p, c⟩ act d) (hm : (Act.task act).movesUp = true) :
      task.hasShutDown = false := by
    cases h <;> first | rfl | cases hm
  rintro ⟨a, u, hm, hs, hin⟩
  cases hs with
  | task h => exact absurd htask (by rw [htasks h hm]; exact Bool.false_ne_true)
  | toB hc h =>
    rw [hproxy, hcopy] at h
    have hlong := hcopies h hm
    have hshort := hin.toTarget
    dsimp only at hshort
    omega
  | _ => cases hm

/-- Streams in which a single byte fills the room. -/
def oneByte : Room := ⟨1, 1, Nat.one_pos, Nat.one_pos⟩

/-- Two bytes on their way through such streams, to a target that reads none of them. -/
theorem two_bytes_under_way : ∃ tr w,
    Run (RoomStep oneByte) (World.fresh ⟨10, 0, 2, 2⟩ 10000 (.v4 ⟨93, 184, 216, 34⟩ 443)) tr w ∧
    (∀ p ∈ tr, p.2.failsUp = false) ∧ w.removed = true ∧ w.task.connected = true ∧
    w.task.hasShutDown = true ∧ w.toProxy = [] ∧ w.toB = .copying [8] ∧ w.toTarget = [7] := by
  have harrive : RoomStep oneByte (World.fresh ⟨10, 0, 2, 2⟩ 10000 (.v4 ⟨93, 184, 216, 34⟩ 443))
    _ _ := ⟨.smoltcp ⟨.established, none, [7, 8], []⟩ rfl rfl, by decide, by decide⟩
  have hpolled := (((Run.single harrive).snoc
    ⟨.poll rfl (.drain 2 rfl), by decide, by decide⟩).snoc
    ⟨.poll rfl (.leaveLoop rfl), by decide, by decide⟩).snoc
    ⟨.poll rfl .finish, by decide, by decide⟩
  have hremoved := (((hpolled.snoc ⟨.task .connect, by decide, by decide⟩).snoc
    ⟨.task (.recv rfl), by decide, by decide⟩).snoc
    ⟨.smoltcp ⟨.closed, none, [], []⟩ rfl rfl, by decide, by decide⟩).snoc
    ⟨.remove rfl rfl rfl, by decide, by decide⟩
  have hfirst := ((hremoved.snoc
    ⟨.task (.write 1 (by decide) (by decide)), by decide, by decide⟩).snoc
    ⟨.toB rfl (.read 1 (by decide) (by decide) (by decide)), by decide, by decide⟩).snoc
    ⟨.toB rfl (.write 1 (by decide) (by decide)), by decide, by decide⟩
  have hrun := ((hfirst.snoc ⟨.task (.write 1 (by decide) (by decide)), by decide, by decide⟩).snoc
    ⟨.toB rfl (.read 1 (by decide) (by decide) (by decide)), by decide, by decide⟩).snoc
    ⟨.task (.hangUp rfl rfl), by decide, by decide⟩
  exact ⟨_, _, hrun, by decide, rfl, rfl, rfl, rfl, rfl, rfl⟩

/-- Once the socket of an established tunnel is removed, and while nothing fails: the moves of the
two tasks on the way up and the bytes that the target reads are at most `upWork` in number. Until
they are over the tasks wait for nothing but the target: if they cannot move, its stream is full,
and they can move again when it has read a byte. In the end the target has all that the channel
has taken. -/
theorem tunnel_drains_up (h : Run (RoomStep room) (World.fresh ip vport remote) tr w)
    (hr : w.removed = true) (hc : w.task.connected = true) (h' : Run (RoomStep room) w tr' w')
    (hf : ∀ p ∈ tr ++ tr', p.2.failsUp = false) :
    (tr'.countP fun p => p.2.movesUp)+(gather targetReadAt tr').length+w'.upWork ≤ w.upWork ∧
    (w'.toB.isOver = false → (∃ a u, a.movesUp = true ∧ RoomStep room w' a u) ∨
      w'.toTarget.length = room.toTarget ∧ ∃ u, RoomStep room w' (.targetRead 1) u ∧
        ∃ a v, a.movesUp = true ∧ RoomStep room u a v) ∧
    (w'.toB.isOver = true → (¬∃ a u, a.movesUp = true ∧ Step w' a u) ∧
      gather targetReadAt (tr ++ tr') ++ w'.toTarget = gather acceptedAt (tr ++ tr')) := by
  have hin : w'.Within room := within_run h' (within_run h (World.within_fresh room))
  have hw : Sound tr w := by
    have hrun := (Sound.fresh ip vport remote).run (room_run h) fun p hp =>
      hf p (List.mem_append_left _ hp)
    rwa [List.nil_append] at hrun
  have hf' : ∀ p ∈ tr', p.2.failsUp = false := fun p hp => hf p (List.mem_append_right _ hp)
  have hw' := hw.run (room_run h') hf'
  obtain ⟨hr', hc', hle⟩ := hw.drain_run hr hc (room_run h') hf'
  refine ⟨hle, ?_, ?_⟩
  · intro hover
    -- with room for a byte they can move, and without it as soon as the target has read one
    by_cases hroom : w'.toTarget.length < room.toTarget
    · exact Or.inl (hw'.progress hr' hc' hover hin hroom)
    · right
      have hfull : w'.toTarget.length = room.toTarget :=
        hin.toTarget.antisymm (Nat.not_lt.mp hroom)
      have hpos := room.toTarget_pos
      have hread : Step w' (.targetRead 1) _ := .targetRead 1 (by omega)
      have hdrop : (w'.toTarget.drop 1).length < room.toTarget := by
        rw [List.length_drop]
        omega
      have hin' : World.Within room { w' with toTarget := w'.toTarget.drop 1 } :=
        ⟨hin.toProxy, hdrop.le⟩
      exact ⟨hfull, _, ⟨hread, hin'⟩,
        (hw'.step hread rfl).progress hr' hc' hover hin' hdrop⟩
  · intro hover
    refine ⟨?_, (hw'.end_up hover).1⟩
    rintro ⟨a, u, hm, hs⟩
    have hstep := hs.up_step hw'.inv (gather targetReadAt (tr ++ tr'))
    rw [upAct_movesUp hm] at hstep
    exact hw'.exact.clean.at_rest hover (fun he => by cases he) hstep

end Runs

theorem waiting_copy_drains : ∃ tr w,
    Run (RoomStep oneByte) (World.fresh ⟨10, 0, 2, 2⟩ 10000 (.v4 ⟨93, 184, 216, 34⟩ 443)) tr w ∧
    (¬∃ a u, a.movesUp = true ∧ RoomStep oneByte w a u) ∧
    ∃ u, RoomStep oneByte w (.targetRead 1) u ∧
      ∃ a v, a.movesUp = true ∧ RoomStep oneByte u a v := by
  obtain ⟨tr, w, hrun, hf, hr, hc, htask, hproxy, hcopy, htarget⟩ := two_bytes_under_way
  have hblocked : ¬∃ a u, a.movesUp = true ∧ RoomStep oneByte w a u :=
    full_target_blocks htask hproxy hcopy (by rw [htarget]; rfl)
  have hf' : ∀ p ∈ tr ++ [], p.2.failsUp = false := by
    rw [List.append_nil]
    exact hf
  have hover : w.toB.isOver = false := by
    rw [hcopy]
    rfl
  rcases (tunnel_drains_up hrun hr hc Run.nil hf').2.1 hover with hmove | ⟨-, hread⟩
  · exact absurd hmove hblocked
  · exact ⟨tr, w, hrun, hblocked, hread⟩

end GravitalShare.Tunnel
