import GravitalShare.HttpProxy
import Mathlib.Algebra.Ring.Nat

/-! What the client of the HTTP proxy is told when its request is rejected. -/
namespace GravitalShare.Http

/-- Lines that are ended one by one, and an empty line after them. -/
def message (lines : List String) : Bytes :=
  utf8 (String.join (lines.map (· ++ "\r\n")) ++ "\r\n")

/-- One response without a body: a status line, and headers that hold no other one. -/
def IsResponse (code : ℕ) (reply : Bytes) : Prop :=
  ∃ reason headers, reply = message (("HTTP/1.1 " ++ toString code ++ " " ++ reason) :: headers) ∧
    ∀ line ∈ reason :: headers,
      '\r' ∉ line.toList ∧ '\n' ∉ line.toList ∧ ¬ "HTTP/".toList <+: line.toList

/-- The request, or its target, is malformed. -/
def HttpProxyError.Malformed : HttpProxyError → Prop
  | .parse _ | .missingTarget | .invalidTarget _ => True
  | _ => False

/-- An error is reported if the client gets one response with a status that fits the error, and
nothing that looks like a success. -/
def Reported (err : HttpProxyError) (reply : Bytes) : Prop :=
  (∃ code, 400 ≤ code ∧ code < 600 ∧ (err.Malformed → code = 400) ∧ IsResponse code reply) ∧
    ¬utf8 "HTTP/1.1 200" <:+: reply

theorem utf8_append (s t : String) : utf8 (s ++ t) = utf8 s ++ utf8 t := by
  rw [utf8, String.toUTF8_eq_toByteArray, String.toByteArray_append, ByteArray.data_append,
    Array.toList_append]
  rfl

theorem message_ne_nil (lines : List String) : message lines ≠ [] := by
  rw [message, utf8_append]
  apply List.append_ne_nil_of_right_ne_nil
  decide

theorem sendError_eq (code : ℕ) (msg : String) :
    sendError code msg = message ["HTTP/1.1 " ++ toString code ++ " " ++ msg,
      "Content-Length: 0", "Connection: close"] := by
  rw [sendError, message]
  apply congrArg utf8
  simp only [List.map_cons, List.map_nil, String.join, List.foldl_cons, List.foldl_nil,
    String.append_assoc, String.empty_append]
  rfl

theorem isResponse_sendError (code : ℕ) {msg : String}
    (h : '\r' ∉ msg.toList ∧ '\n' ∉ msg.toList ∧ ¬ "HTTP/".toList <+: msg.toList) :
    IsResponse code (sendError code msg) := by
  refine ⟨msg, ["Content-Length: 0", "Connection: close"], sendError_eq code msg, ?_⟩
  have hheaders : ∀ line ∈ ["Content-Length: 0", "Connection: close"],
      '\r' ∉ line.toList ∧ '\n' ∉ line.toList ∧ ¬ "HTTP/".toList <+: line.toList := by
    decide
  intro line hline
  rcases List.mem_cons.mp hline with rfl | hline
  · exact h
  · exact hheaders line hline

theorem reported_sendError {err : HttpProxyError} {code : ℕ} {msg : String}
    (herr : ¬err.Malformed) (hcode : 400 ≤ code ∧ code < 600)
    (hmsg : '\r' ∉ msg.toList ∧ '\n' ∉ msg.toList ∧ ¬ "HTTP/".toList <+: msg.toList)
    (hno : ¬utf8 "HTTP/1.1 200" <:+: sendError code msg) : Reported err (sendError code msg) :=
  ⟨⟨code, hcode.1, hcode.2, fun h => absurd h herr, isResponse_sendError code hmsg⟩, hno⟩

theorem not_reported_nil (err : HttpProxyError) : ¬Reported err [] := by
  rintro ⟨⟨code, -, -, -, reason, headers, hnil, -⟩, -⟩
  exact message_ne_nil _ hnil.symm

section OneRead

variable (head : Bytes) (req : Request) (connect : String → UInt16 → Bool)

/-- A client whose whole request comes with one read. -/
theorem run_literal {reply : Bytes} {err : HttpProxyError} (hne : head ≠ [])
    (hlen : head.length ≤ MAX_HEADER_SIZE) (h : openTunnel connect req = (reply, .error err)) :
    Run (ProxyStep (literalParser head req) connect) (.reading [] head)
      [(.reading [] head, head.length)] (.finished ⟨.error err, reply, none⟩) := by
  have hpos := List.length_pos_of_ne_nil hne
  have hparse : literalParser head req head = .ok (.complete head.length, req) :=
    if_pos (List.prefix_refl head)
  have hread : onRead (literalParser head req) connect [] (head.take head.length)
      (head.drop head.length) = .finished ⟨.error err, reply, none⟩ := by
    rw [List.take_length, onRead, if_neg (by omega), List.nil_append, hparse]
    dsimp only
    rw [afterHead, hparse]
    dsimp only
    rw [h]
  rw [← hread]
  apply Run.single
  exact .read ⟨hlen, le_rfl, fun hzero => by omega⟩

end OneRead

section Proxy

variable {parse : Parser} {connect : String → UInt16 → Bool}

/-- A request that is refused with a response: the method is not CONNECT, or the target is in order
and the upstream cannot be reached. -/
def Request.AnsweredWith (connect : String → UInt16 → Bool) (req : Request) : Prop :=
  req.method ≠ some "CONNECT" ∨ ∃ target host port, req.path = some target ∧
    parseHostPort target = .ok (host, port) ∧ connect host port = false

/-- These bytes begin with a head that is refused with a response. -/
def Answered (parse : Parser) (connect : String → UInt16 → Bool) (p : Bytes) : Prop :=
  ∃ len req, parse p = .ok (.complete len, req) ∧ req.AnsweredWith connect

theorem answered_iff {p : Bytes} {len : ℕ} {req : Request}
    (h : parse p = .ok (.complete len, req)) :
    Answered parse connect p ↔ req.AnsweredWith connect := by
  constructor
  · rintro ⟨len', req', h', hreq⟩
    cases h.symm.trans h'
    exact hreq
  · exact fun hreq => ⟨len, req, h, hreq⟩

theorem method_eq_iff (method : Option String) :
    method.getD "" ≠ "CONNECT" ↔ method ≠ some "CONNECT" := by
  cases method with
  | none => decide
  | some m => rw [Option.getD_some, ne_eq, ne_eq, Option.some_inj]

/-- A request that is refused is reported if it is refused with a response. -/
theorem openTunnel_reported_iff {req : Request} {reply : Bytes} {err : HttpProxyError}
    (h : openTunnel connect req = (reply, .error err)) :
    Reported err reply ↔ req.AnsweredWith connect := by
  simp only [openTunnel, method_eq_iff] at h
  split at h
  · next hmethod =>
    cases h
    exact iff_of_true (reported_sendError (by exact id) (by decide) (by decide) (by decide +kernel))
      (Or.inl hmethod)
  · next hmethod =>
    cases hpath : req.path with
    | none =>
      simp only [hpath] at h
      cases h
      apply iff_of_false (not_reported_nil _)
      rintro (hno | ⟨target, host, port, hsome, -⟩)
      · exact hmethod hno
      · cases hpath.symm.trans hsome
    | some target =>
      simp only [hpath] at h
      cases htarget : parseHostPort target with
      | error e =>
        simp only [htarget] at h
        cases h
        apply iff_of_false (not_reported_nil _)
        rintro (hno | ⟨target', host, port, hsome, haccepted, -⟩)
        · exact hmethod hno
        · obtain rfl := Option.some.inj (hpath.symm.trans hsome)
          cases htarget.symm.trans haccepted
      | ok upstream =>
        obtain ⟨host, port⟩ := upstream
        simp only [htarget] at h
        split at h
        · cases h
        · next hrefused =>
          cases h
          apply iff_of_true (reported_sendError (by exact id) (by decide) (by decide)
            (by decide +kernel))
          exact Or.inr ⟨target, host, port, hpath, htarget, Bool.eq_false_iff.mpr hrefused⟩

/-- What a rejection says about the bytes `p` that were read until then. -/
def Judged (parse : Parser) (connect : String → UInt16 → Bool) (p : Bytes) (o : Outcome) : Prop :=
  ∀ err, o.result = .error err → err ≠ .prematureEof →
    (Reported err o.reply ↔ Answered parse connect p)

theorem judged_fail {p : Bytes} {err : HttpProxyError}
    (h : ∀ len req, parse p ≠ .ok (.complete len, req)) :
    Judged parse connect p (.fail err) := by
  intro err' herr _
  apply iff_of_false (not_reported_nil _)
  rintro ⟨len, req, hhead, -⟩
  exact h len req hhead

/-- The bytes read so far, as far as the head goes; of a connection that is relaying nothing is
said, for it is not rejected any more. -/
def Follows (parse : Parser) (connect : String → UInt16 → Bool) (s : Bytes) (n : ℕ) : State → Prop
  | .reading buf rest => buf ++ rest = s ∧ buf.length = n
  | .relaying _ _ _ _ => True
  | .finished o => Judged parse connect (s.take n) o

theorem follows_afterHead {s buf rest : Bytes} {len : ℕ} {req : Request}
    (hbuf : buf = s.take buf.length) (h : parse buf = .ok (.complete len, req)) :
    Follows parse connect s buf.length (afterHead parse connect buf len rest) := by
  rw [afterHead, h]
  dsimp only
  split
  · next hopen =>
    intro err herr _
    cases herr
    rw [openTunnel_reported_iff hopen, ← hbuf, answered_iff h]
  · trivial

theorem follows_onRead {s buf rest : Bytes} {n : ℕ} (hs : buf ++ rest = s)
    (hn : n ≤ rest.length) :
    Follows parse connect s (buf.length+n)
      (onRead parse connect buf (rest.take n) (rest.drop n)) := by
  have hlen : (buf ++ rest.take n).length = buf.length+n := by
    rw [List.length_append, List.length_take_of_le hn]
  have hread : buf ++ rest.take n = s.take (buf.length+n) := by
    rw [← hs, List.take_append, List.take_of_length_le (Nat.le_add_right _ _),
      Nat.add_sub_cancel_left]
  rw [onRead]
  split
  · intro err herr hne
    cases herr
    exact absurd rfl hne
  · cases hparse : parse (buf ++ rest.take n) with
    | error msg =>
      apply judged_fail
      rw [← hread, hparse]
      intro len req he
      cases he
    | ok res =>
      obtain ⟨status, req⟩ := res
      cases status with
      | complete len =>
        rw [← hlen]
        exact follows_afterHead (by rw [hlen, hread]) hparse
      | incomplete =>
        dsimp only
        split
        · apply judged_fail
          rw [← hread, hparse]
          intro len req' he
          cases he
        · refine ⟨?_, hlen⟩
          rw [List.append_assoc, List.take_append_drop, hs]

/-- How many bytes the reads of a run have given. -/
def readBytes (tr : List (State × ℕ)) : ℕ := (tr.map Prod.snd).sum

theorem follows_of_run {s : Bytes} {tr : List (State × ℕ)} {t : State}
    (hrun : Run (ProxyStep parse connect) (.reading [] s) tr t) :
    Follows parse connect s (readBytes tr) t := by
  have hstart : Follows parse connect s (readBytes []) (.reading [] s) := ⟨rfl, rfl⟩
  refine hrun.history (fun tr t => Follows parse connect s (readBytes tr) t) hstart ?_
  intro tr t n u ht hstep
  have hsum : readBytes (tr ++ [(t, n)]) = readBytes tr+n := by
    rw [readBytes, List.map_append, List.sum_append]
    exact congrArg _ (Nat.add_zero n)
  rw [hsum]
  cases hstep with
  | read h =>
    obtain ⟨hs, hlen⟩ := ht
    rw [← hlen]
    exact follows_onRead hs h.2.1
  | copy h hn => trivial
  | copied =>
    intro err herr _
    cases herr

/-- For an incremental parser it makes no difference how much of the stream was read. -/
theorem judged_of_settles (hp : Incremental parse) {s : Bytes} {o : Outcome}
    (h : Settles parse connect s o) : Judged parse connect (s.take MAX_HEADER_SIZE) o := by
  cases h with
  | silent h =>
    intro err herr hne
    rcases h with rfl | ⟨req, hreq⟩
    · cases herr
      exact absurd rfl hne
    · refine judged_fail (fun len req' he => ?_) err herr hne
      cases hreq.symm.trans he
  | error hpre hnil herr =>
    obtain ⟨msg', hmsg⟩ := hp.error hpre herr
    apply judged_fail
    intro len req he
    cases hmsg.symm.trans he
  | @head len req hne hhead =>
    intro err herr _
    rw [answer] at herr ⊢
    split at herr
    · next hopen =>
      cases herr
      rw [openTunnel_reported_iff hopen, answered_iff hhead]
    · cases herr

/-- A request that fails with one of the six errors is reported to the client exactly if its head
has been read and the method is not CONNECT, or the target is in order and the upstream refuses;
otherwise the connection is closed without a response. For a parser that treats the beginnings of
a stream alike, it is the first 8192 bytes of the stream that decide. -/
theorem rejection_reported_iff {s : Bytes} {tr : List (State × ℕ)} {o : Outcome}
    {err : HttpProxyError}
    (hrun : Run (ProxyStep parse connect) (.reading [] s) tr (.finished o))
    (herr : o.result = .error err) (hread : err ≠ .prematureEof) :
    (Reported err o.reply ↔ Answered parse connect (s.take (readBytes tr))) ∧
      (Incremental parse →
        (Reported err o.reply ↔ Answered parse connect (s.take MAX_HEADER_SIZE))) := by
  constructor
  · exact follows_of_run hrun err herr hread
  · intro hp
    exact judged_of_settles hp (explained_of_run hp hrun).1 err herr hread

end Proxy

theorem get_reported : ∃ tr o,
    Run (ProxyStep (literalParser (utf8 "GET / HTTP/1.1\r\n\r\n") ⟨some "GET", some "/"⟩)
      fun _ _ => true) (.reading [] (utf8 "GET / HTTP/1.1\r\n\r\n")) tr (.finished o) ∧
    o.result = .error (.unsupportedMethod "GET") ∧ Reported (.unsupportedMethod "GET") o.reply := by
  have hrun := run_literal (utf8 "GET / HTTP/1.1\r\n\r\n") ⟨some "GET", some "/"⟩
    (fun _ _ => true) (by decide) (by decide) rfl
  refine ⟨_, _, hrun, rfl, ?_⟩
  apply ((rejection_reported_iff hrun rfl (by decide)).2 (literalParser_incremental _ _)).mpr
  exact ⟨_, _, if_pos (by decide), Or.inl (by decide)⟩

/-- A target without a port is not answered at all. -/
theorem missing_port_not_reported :
    ∃ tr o, Run (ProxyStep (literalParser (utf8 "CONNECT example.com HTTP/1.1\r\n\r\n")
        ⟨some "CONNECT", some "example.com"⟩) fun _ _ => true)
      (.reading [] (utf8 "CONNECT example.com HTTP/1.1\r\n\r\n")) tr (.finished o) ∧
    o.result = .error (.invalidTarget "example.com") ∧ o.reply = [] ∧
    ¬Reported (.invalidTarget "example.com") o.reply := by
  have hrun := run_literal (utf8 "CONNECT example.com HTTP/1.1\r\n\r\n")
    ⟨some "CONNECT", some "example.com"⟩ (fun _ _ => true) (by decide) (by decide) rfl
  exact ⟨_, _, hrun, rfl, rfl, not_reported_nil _⟩

end GravitalShare.Http
