import GravitalShare.StackStream

/-! How a call of `service_socket` comes to close its socket. The loop and the test behind it look
at the channel one after the other, and the relay task can send in between. -/
namespace GravitalShare.Stack

/-- Inside one call of `service_socket`, with the relay task at work beside it. -/
def CallStep (c : Conn) (a : ConnAct) (c' : Conn) : Prop := ConnStep c a c' ∧ c'.phase ≠ .idle

-- the chunks that a step puts into the down channel and those that it takes out

def sentChunk (_ : Conn) : ConnAct → List Bytes
  | .relay (.send chunk) => [chunk]
  | _ => []

def takenChunk (c : Conn) : ConnAct → List Bytes
  | .poll .sendTurn => c.link.down.queue.take 1
  | _ => []

/-- What is sent once the loop has been left. -/
def lateChunk (c : Conn) (a : ConnAct) : List Bytes :=
  if c.phase = .closing then sentChunk c a else []

/-- The test after the loop, which decides over `socket.close()`. -/
def Conn.closes (c : Conn) : Bool := c.sock.canSend ∧ c.link.down.isClosed

theorem Conn.finish_closes {c c' : Conn} (h : ServiceStep c .finish c') :
    c'.sock = if c.closes then c.sock.close else c.sock := by
  cases h with
  | finish => simp only [halfClose, closes, decide_eq_true_eq]

/-- A step loses no chunk: the channel passes on what it is given. -/
theorem ConnStep.down_chunks {c c' : Conn} {a : ConnAct} (h : ConnStep c a c') :
    c.link.down.queue ++ sentChunk c a = takenChunk c a ++ c'.link.down.queue := by
  cases h with
  | smoltcp => exact List.append_nil _
  | poll h =>
    cases h with
    | sendTurn ht =>
      obtain ⟨data, -, hrecv, -⟩ := sendTurn_eq_some ht
      simp only [sentChunk, takenChunk, (Chan.tryRecv_eq_some hrecv).1, List.append_nil]
      rfl
    | _ => exact List.append_nil _
  | relay h =>
    cases h with
    | send => rfl
    | _ => exact List.append_nil _

section Call

variable {c₀ c : Conn} {tr : List (Conn × ConnAct)}

theorem call_chunks (h : Run CallStep c₀ tr c) :
    c₀.link.down.queue ++ gather sentChunk tr = gather takenChunk tr ++ c.link.down.queue := by
  refine h.history (fun tr c => c₀.link.down.queue ++ gather sentChunk tr =
    gather takenChunk tr ++ c.link.down.queue) (List.append_nil _) ?_
  intro tr t a u ih hstep
  rw [gather_snoc, gather_snoc, ← List.append_assoc, ih, List.append_assoc, List.append_assoc,
    hstep.1.down_chunks]

/-- What is queued behind the loop. -/
def LateOnly (tr : List (Conn × ConnAct)) (c : Conn) : Prop :=
  if c.phase = .closing then c.sock.canSend = true → c.link.down.queue = gather lateChunk tr
  else gather lateChunk tr = []

theorem CallStep.lateOnly {c c' : Conn} {a : ConnAct} (h : CallStep c a c') (ih : LateOnly tr c) :
    LateOnly (tr ++ [(c, a)]) c' := by
  obtain ⟨h, hin⟩ := h
  rw [LateOnly] at ih ⊢
  rw [gather_snoc]
  cases h with
  | smoltcp => exact absurd rfl hin
  | poll h =>
    cases h with
    | drain | sendTurn =>
      simpa only [lateChunk, reduceCtorEq, if_false, List.append_nil] using ih
    | @leaveLoop sock link ht =>
      simp only [reduceCtorEq, if_false] at ih
      rw [if_pos rfl]
      intro hcan
      -- there was room, so the loop was left because the channel was empty
      have hempty : link.down.tryRecv = none := by
        cases hr : link.down.tryRecv with
        | none => rfl
        | some p => simp [sendTurn, hcan, hr] at ht
      rw [Chan.tryRecv_eq_none.mp hempty, ih]
      rfl
    | finish => exact absurd rfl hin
  | @relay sock link link' phase a h =>
    by_cases hp : phase = .closing
    · simp only [hp, if_true, lateChunk] at ih ⊢
      intro hcan
      rw [← ih hcan]
      cases h <;> simp [sentChunk, Chan.push, Chan.dropSender]
    · simp only [hp, if_false, lateChunk, List.append_nil] at ih ⊢
      exact ih

theorem call_lateOnly (h : Run CallStep c₀ tr c) (h0 : c₀.phase = .idle) : LateOnly tr c := by
  refine h.history LateOnly ?_ fun _ _ _ _ ih hstep => hstep.lateOnly ih
  rw [LateOnly, h0, if_neg (by decide)]
  rfl

theorem lateChunk_eq_nil {c : Conn} {a : ConnAct} :
    lateChunk c a = [] ↔ (c.phase = .closing → ∀ chunk, a ≠ .relay (.send chunk)) := by
  rw [lateChunk]
  split
  · next hp =>
    simp only [hp, forall_const]
    constructor
    · rintro hnil chunk rfl
      cases hnil
    · intro hne
      unfold sentChunk
      split
      · next chunk => exact absurd rfl (hne chunk)
      · rfl
  · next hp => exact iff_of_true rfl fun hc => absurd hc hp

/-- A call that closes the socket has taken every chunk there was exactly if the relay task has
sent nothing since the loop was left. -/
theorem close_takes_all_iff (h : Run CallStep c₀ tr c) (h0 : c₀.phase = .idle)
    (hp : c.phase = .closing) (hc : c.closes = true) :
    gather takenChunk tr = c₀.link.down.queue ++ gather sentChunk tr ↔
      ∀ p ∈ tr, p.1.phase = .closing → ∀ chunk, p.2 ≠ .relay (.send chunk) := by
  have hcan : c.sock.canSend = true := by
    simp only [Conn.closes, Bool.decide_and, Bool.and_eq_true, decide_eq_true_eq] at hc
    exact hc.1
  have hlate := call_lateOnly h h0
  rw [LateOnly, if_pos hp] at hlate
  rw [call_chunks h, List.self_eq_append_right, hlate hcan, gather, List.flatMap_eq_nil_iff]
  exact forall₂_congr fun p _ => lateChunk_eq_nil

end Call

/-- A connection that has been established and not been used. -/
def exampleConn : Conn :=
  ⟨⟨.established, none, [], []⟩, Link.pair (.v4 ⟨10, 0, 2, 2⟩ 10000) (.v4 ⟨93, 184, 216, 34⟩ 443),
    .idle⟩

/-- The chunk and the end of the stream arrive while the loop is running. -/
theorem early_chunk_taken : ∃ tr c, Run CallStep exampleConn tr c ∧ c.closes = true ∧
    gather sentChunk tr = [[1, 2]] ∧
    gather takenChunk tr = exampleConn.link.down.queue ++ gather sentChunk tr := by
  have hdrain : CallStep exampleConn (.poll (.drain 0)) _ := ⟨.poll (.drain 0 rfl), by decide⟩
  have hrun := (Run.single hdrain).snoc (l := .relay (.send [1, 2]))
    ⟨.relay (.send rfl rfl (by decide) (by decide) (by decide)), by decide⟩
  have hrun := hrun.snoc (l := .relay .dropTx) ⟨.relay .dropTx, by decide⟩
  have hrun := hrun.snoc (l := .poll .sendTurn) ⟨.poll (.sendTurn rfl), by decide⟩
  have hrun := hrun.snoc (l := .poll .leaveLoop) ⟨.poll (.leaveLoop rfl), by decide⟩
  refine ⟨_, _, hrun, rfl, rfl, (close_takes_all_iff hrun rfl rfl rfl).mpr ?_⟩
  simp

/-- The last chunk comes between the loop and the test: the socket is closed, and the chunk stays
in a channel whose socket does not take any more data. -/
theorem late_chunk_lost : ∃ tr c c', Run CallStep exampleConn tr c ∧ ServiceStep c .finish c' ∧
    c.closes = true ∧ c'.sock.state = .finWait1 ∧ c'.sock.canSend = false ∧
    c'.link.down.queue = [[7]] ∧ gather sentChunk tr = [[7]] ∧ gather takenChunk tr = [] := by
  have hdrain : CallStep exampleConn (.poll (.drain 0)) _ := ⟨.poll (.drain 0 rfl), by decide⟩
  have hrun := (Run.single hdrain).snoc (l := .poll .leaveLoop) ⟨.poll (.leaveLoop rfl), by decide⟩
  have hrun := hrun.snoc (l := .relay (.send [7]))
    ⟨.relay (.send rfl rfl (by decide) (by decide) (by decide)), by decide⟩
  have hrun := hrun.snoc (l := .relay .dropTx) ⟨.relay .dropTx, by decide⟩
  exact ⟨_, _, _, hrun, .finish, rfl, rfl, rfl, rfl, rfl, rfl⟩

end GravitalShare.Stack
