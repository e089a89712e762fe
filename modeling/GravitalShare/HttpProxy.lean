import GravitalShare.Machine
import GravitalShare.Transition

/-! The HTTP CONNECT proxy. How the bytes of the client are split into reads is left open, and
so is httparse, of which only its treatment of beginnings of one stream is assumed. -/
namespace GravitalShare.Http

def MAX_HEADER_SIZE : ℕ := 8192

-- the fields of httparse's request that the proxy reads
structure Request where
  method : Option String
  path : Option String
  deriving DecidableEq, Repr

-- `incomplete` is httparse's Partial
inductive Status where
  | complete (len : ℕ)
  | incomplete
  deriving DecidableEq, Repr

/-- `Request::parse`, with the text of its error. -/
abbrev Parser := Bytes → Except String (Status × Request)

inductive HttpProxyError where
  | parse (msg : String)
  | unsupportedMethod (method : String)
  | missingTarget
  | invalidTarget (target : String)
  | upstreamFailed
  | headersTooLarge
  | prematureEof
  deriving DecidableEq, Repr

/-- `str::parse::<u16>`: decimal digits after an optional plus sign. -/
def parseU16 (s : List Char) : Option UInt16 :=
  let digits := match s with
    | '+' :: t => t
    | _ => s
  if digits ≠ [] ∧ digits.all Char.isDigit then
    let n := digits.foldl (fun n c => 10*n+(c.toNat - '0'.toNat)) 0
    if n < 2^16 then some n.toUInt16 else none
  else none

/-- What stands before and after the last colon. -/
def splitLastColon (s : List Char) : Option (List Char × List Char) :=
  match s.reverse.span (· ≠ ':') with
  | (_, []) => none
  | (port, _ :: host) => some (host.reverse, port.reverse)

def parseHostPort (target : String) : Except HttpProxyError (String × UInt16) :=
  match splitLastColon target.toList with
  | none => .error (.invalidTarget target)
  | some (host, port) =>
    match parseU16 port with
    | none => .error (.invalidTarget target)
    | some port => .ok (String.ofList host, port)

theorem parseHostPort_error {target : String} {err : HttpProxyError}
    (h : parseHostPort target = .error err) : err = .invalidTarget target := by
  rw [parseHostPort] at h
  split at h
  · exact (Except.error.inj h).symm
  · split at h
    · exact (Except.error.inj h).symm
    · cases h

example : parseHostPort "[::1]:443" = .ok ("[::1]", 443) := by decide

def utf8 (s : String) : Bytes := s.toUTF8.data.toList

def sendError (code : ℕ) (msg : String) : Bytes :=
  utf8 ("HTTP/1.1 " ++ toString code ++ " " ++ msg ++
    "\r\nContent-Length: 0\r\nConnection: close\r\n\r\n")

def established : Bytes := utf8 "HTTP/1.1 200 Connection established\r\n\r\n"

/-- What came of a connection: the result of `handle_http_proxy`, what it wrote to the client
itself, and the upstream it connected to, if any, with what that one received. -/
structure Outcome where
  result : Except HttpProxyError Unit
  reply : Bytes
  upstream : Option ((String × UInt16) × Bytes)
  deriving DecidableEq

def Outcome.fail (err : HttpProxyError) : Outcome := ⟨.error err, [], none⟩

/-- A connection, with the bytes of the client that have not been read. -/
inductive State where
  | reading (buf rest : Bytes)
  | relaying (reply : Bytes) (upstream : String × UInt16) (sent rest : Bytes)
  | finished (o : Outcome)

section Proxy

variable (parse : Parser) (connect : String → UInt16 → Bool)

/-- The request is answered and an upstream is connected, or the connection is over. -/
def openTunnel (req : Request) : Bytes × Except HttpProxyError (String × UInt16) :=
  let method := req.method.getD ""
  if method ≠ "CONNECT" then
    (sendError 405 "Method Not Allowed", .error (.unsupportedMethod method))
  else
    match req.path with
    | none => ([], .error .missingTarget)
    | some target =>
      match parseHostPort target with
      | .error err => ([], .error err)
      | .ok (host, port) =>
        if connect host port then (established, .ok (host, port))
        else (sendError 502 "Bad Gateway", .error .upstreamFailed)

def afterHead (buf : Bytes) (reqEnd : ℕ) (rest : Bytes) : State :=
  -- the head is parsed a second time, for its fields
  match parse buf with
  | .error msg => .finished (.fail (.parse msg))
  | .ok (_, req) =>
    match openTunnel connect req with
    | (reply, .error err) => .finished ⟨.error err, reply, none⟩
    | (reply, .ok upstream) =>
      .relaying reply upstream (if buf.length > reqEnd then buf.drop reqEnd else []) rest

/-- The loop's body after a read has given `chunk`. -/
def onRead (buf chunk rest : Bytes) : State :=
  if chunk.length = 0 then .finished (.fail .prematureEof)
  else
    match parse (buf ++ chunk) with
    | .error msg => .finished (.fail (.parse msg))
    | .ok (.complete len, _) => afterHead parse connect (buf ++ chunk) len rest
    | .ok (.incomplete, _) =>
      if (buf ++ chunk).length ≥ MAX_HEADER_SIZE then .finished (.fail .headersTooLarge)
      else .reading (buf ++ chunk) rest

/-- A read into a slice of `room` bytes gives `n` bytes: none at the end of the stream or
into an empty slice, and otherwise as many as it likes. -/
def Delivers (room : ℕ) (rest : Bytes) (n : ℕ) : Prop :=
  n ≤ room ∧ n ≤ rest.length ∧ (n = 0 → room = 0 ∨ rest = [])

/-- One read from the client, in the loop or in `relay_bidirectional`. -/
inductive ProxyStep : State → ℕ → State → Prop
  | read {buf rest n} (h : Delivers (MAX_HEADER_SIZE-buf.length) rest n) :
      ProxyStep (.reading buf rest) n (onRead parse connect buf (rest.take n) (rest.drop n))
  | copy {reply upstream sent rest n} (h : Delivers 8192 rest n) (hn : 0 < n) :
      ProxyStep (.relaying reply upstream sent rest) n
        (.relaying reply upstream (sent ++ rest.take n) (rest.drop n))
  | copied {reply upstream sent} : ProxyStep (.relaying reply upstream sent []) 0
      (.finished ⟨.ok (), reply, some (upstream, sent)⟩)

/-- What is assumed of httparse on the beginnings of one stream. -/
structure Incremental : Prop where
  short {s p q : Bytes} {len req} : p <+: s → q <+: s → parse p = .ok (.complete len, req) →
    q.length < len → ∃ req', parse q = .ok (.incomplete, req')
  long {s p q : Bytes} {len req} : p <+: s → q <+: s → parse p = .ok (.complete len, req) →
    len ≤ q.length → parse q = .ok (.complete len, req)
  error {p q : Bytes} {msg} : p <+: q → parse p = .error msg → ∃ msg', parse q = .error msg'

/-- The outcome for a request that is followed by `rest`. -/
def answer (req : Request) (rest : Bytes) : Outcome :=
  match openTunnel connect req with
  | (reply, .error err) => ⟨.error err, reply, none⟩
  | (reply, .ok upstream) => ⟨.ok (), reply, some (upstream, rest)⟩

/-- The outcomes that a stream can have, told from as much of it as the buffer holds. -/
inductive Settles (s : Bytes) : Outcome → Prop
  | silent (h : s = [] ∨ ∃ req, parse (s.take MAX_HEADER_SIZE) = .ok (.incomplete, req)) :
      Settles s (.fail (if s.length < MAX_HEADER_SIZE then .prematureEof else .headersTooLarge))
  | error {p msg} (hp : p <+: s.take MAX_HEADER_SIZE) (hne : p ≠ []) (h : parse p = .error msg) :
      Settles s (.fail (.parse msg))
  | head {len req} (hne : s ≠ [])
      (h : parse (s.take MAX_HEADER_SIZE) = .ok (.complete len, req)) :
      Settles s (answer connect req (s.drop len))

/-- What is known of a connection while it is open, and of its outcome. -/
def Explained (s : Bytes) : State → Prop
  | .reading buf rest => buf ++ rest = s ∧ buf.length < MAX_HEADER_SIZE ∧
      (buf = [] ∨ ∃ req, parse buf = .ok (.incomplete, req))
  | .relaying reply upstream sent rest =>
      Settles parse connect s ⟨.ok (), reply, some (upstream, sent ++ rest)⟩
  | .finished o => Settles parse connect s o

variable {parse connect}

theorem Incremental.len_le (hp : Incremental parse) {p : Bytes} {len : ℕ} {req : Request}
    (h : parse p = .ok (.complete len, req)) : len ≤ p.length := by
  by_contra hlt
  obtain ⟨req', h'⟩ := hp.short (List.prefix_refl p) (List.prefix_refl p) h (by omega)
  rw [h] at h'
  cases h'

theorem explained_afterHead (hp : Incremental parse) {s buf rest : Bytes} {len : ℕ}
    {req : Request} (hs : buf ++ rest = s) (hne : buf ≠ []) (hlen : buf.length ≤ MAX_HEADER_SIZE)
    (h : parse buf = .ok (.complete len, req)) :
    Explained parse connect s (afterHead parse connect buf len rest) := by
  have hle := hp.len_le h
  have hbuf : buf <+: s := ⟨rest, hs⟩
  have htake : s.take MAX_HEADER_SIZE <+: s := List.take_prefix _ _
  have hwhole : parse (s.take MAX_HEADER_SIZE) = .ok (.complete len, req) := by
    apply hp.long hbuf htake h
    have := hbuf.length_le
    rw [List.length_take]
    omega
  have hhead : Settles parse connect s (answer connect req (s.drop len)) := by
    apply Settles.head _ hwhole
    intro hnil
    rw [hnil] at hbuf
    exact hne (List.prefix_nil.mp hbuf)
  -- the early bytes and what is still to come are the stream after the head
  have hrest : (if buf.length > len then buf.drop len else []) ++ rest = s.drop len := by
    rw [← hs, List.drop_append_of_le_length hle]
    split
    · rfl
    · rw [List.drop_of_length_le (by omega)]
  rw [afterHead, h]
  rw [answer] at hhead
  dsimp only
  split <;> rename_i heq <;> rw [heq] at hhead
  · exact hhead
  · rw [Explained, hrest]
    exact hhead

theorem explained_onRead (hp : Incremental parse) {s buf rest : Bytes} {n : ℕ}
    (ht : Explained parse connect s (.reading buf rest))
    (h : Delivers (MAX_HEADER_SIZE-buf.length) rest n) :
    Explained parse connect s (onRead parse connect buf (rest.take n) (rest.drop n)) := by
  obtain ⟨hs, hlt, hbuf⟩ := ht
  obtain ⟨hroom, hrest, hzero⟩ := h
  have htake : (rest.take n).length = n := List.length_take_of_le hrest
  rw [onRead, htake]
  split
  · next hn =>
    -- there is room, so the stream has ended
    rcases hzero hn with hfull | rfl
    · omega
    · rw [List.append_nil] at hs
      subst hs
      have hwhole : buf.take MAX_HEADER_SIZE = buf := List.take_of_length_le hlt.le
      have hsettles : Settles parse connect buf _ := .silent (by rwa [hwhole])
      rwa [if_pos hlt] at hsettles
  · next hn =>
    have hs' : (buf ++ rest.take n) ++ rest.drop n = s := by
      rw [List.append_assoc, List.take_append_drop, hs]
    have hlen : (buf ++ rest.take n).length = buf.length+n := by
      rw [List.length_append, htake]
    have hle : (buf ++ rest.take n).length ≤ MAX_HEADER_SIZE := by omega
    have hne : buf ++ rest.take n ≠ [] := by
      intro hnil
      rw [hnil, List.length_nil] at hlen
      omega
    have hpre : buf ++ rest.take n <+: s.take MAX_HEADER_SIZE := by
      rw [List.prefix_take_iff]
      exact ⟨⟨_, hs'⟩, hle⟩
    cases hparse : parse (buf ++ rest.take n) with
    | error msg => exact Settles.error hpre hne hparse
    | ok res =>
      obtain ⟨status, req⟩ := res
      cases status with
      | complete len => exact explained_afterHead hp hs' hne hle hparse
      | incomplete =>
        dsimp only
        split
        · next hfull =>
          have heq : s.take MAX_HEADER_SIZE = buf ++ rest.take n := by
            symm
            apply hpre.eq_of_length_le
            rw [List.length_take]
            omega
          have hbig : ¬s.length < MAX_HEADER_SIZE := by
            have := hpre.length_le
            rw [List.length_take] at this
            omega
          rw [← heq] at hparse
          have hsettles : Settles parse connect s _ := .silent (Or.inr ⟨req, hparse⟩)
          rwa [if_neg hbig] at hsettles
        · next hfull => exact ⟨hs', by omega, Or.inr ⟨req, hparse⟩⟩

theorem ProxyStep.explained (hp : Incremental parse) {s : Bytes} {t u : State} {n : ℕ}
    (h : ProxyStep parse connect t n u) (ht : Explained parse connect s t) :
    Explained parse connect s u := by
  cases h with
  | read h => exact explained_onRead hp ht h
  | copy h hn =>
    rw [Explained] at ht ⊢
    rwa [List.append_assoc, List.take_append_drop]
  | copied =>
    rw [Explained, List.append_nil] at ht
    exact ht

/-- A connection makes at most this many more steps. -/
def State.fuel : State → ℕ
  | .reading _ rest | .relaying _ _ _ rest => rest.length+1
  | .finished _ => 0

theorem fuel_onRead_le (parse : Parser) (connect : String → UInt16 → Bool)
    (buf chunk rest : Bytes) :
    (onRead parse connect buf chunk rest).fuel ≤ rest.length+1 := by
  rw [onRead]
  split
  · exact Nat.zero_le _
  · split
    · exact Nat.zero_le _
    · rw [afterHead]
      split
      · exact Nat.zero_le _
      · split
        · exact Nat.zero_le _
        · exact le_rfl
    · split
      · exact Nat.zero_le _
      · exact le_rfl

theorem ProxyStep.fuel_lt {t u : State} {n : ℕ} (h : ProxyStep parse connect t n u) :
    u.fuel < t.fuel := by
  cases h with
  | @read buf rest n h =>
    rcases Nat.eq_zero_or_pos n with rfl | hn
    · exact Nat.succ_pos _
    · have hle := fuel_onRead_le parse connect buf (rest.take n) (rest.drop n)
      rw [List.length_drop] at hle
      have := h.2.1
      rw [State.fuel]
      omega
  | @copy _ _ _ rest n h hn =>
    have := h.2.1
    rw [State.fuel, State.fuel, List.length_drop]
    omega
  | copied => exact Nat.succ_pos _

theorem delivers_some (room : ℕ) (rest : Bytes) : Delivers room rest (min room rest.length) := by
  refine ⟨Nat.min_le_left _ _, Nat.min_le_right _ _, ?_⟩
  intro hzero
  rcases Nat.eq_zero_or_pos room with hroom | hroom
  · exact Or.inl hroom
  · exact Or.inr (List.length_eq_zero_iff.mp (by omega))

/-- A connection that is not finished goes on. -/
theorem State.progress (parse : Parser) (connect : String → UInt16 → Bool) (t : State) :
    (∃ o, t = .finished o) ∨ ∃ n u, ProxyStep parse connect t n u := by
  cases t with
  | reading buf rest => exact Or.inr ⟨_, _, .read (delivers_some _ _)⟩
  | relaying reply upstream sent rest =>
    cases rest with
    | nil => exact Or.inr ⟨_, _, .copied⟩
    | cons b rest =>
      exact Or.inr ⟨_, _, .copy (delivers_some _ _) (by rw [List.length_cons]; omega)⟩
  | finished o => exact Or.inl ⟨o, rfl⟩

/-- Every connection can be read to its end. -/
theorem State.finishes (parse : Parser) (connect : String → UInt16 → Bool) (t : State) :
    ∃ tr o, Run (ProxyStep parse connect) t tr (.finished o) := by
  induction hf : t.fuel using Nat.strong_induction_on generalizing t with
  | h m ih =>
    rcases t.progress parse connect with ⟨o, rfl⟩ | ⟨n, u, hstep⟩
    · exact ⟨_, o, .nil⟩
    · obtain ⟨tr, o, hrun⟩ := ih u.fuel (hf ▸ hstep.fuel_lt) u rfl
      exact ⟨_, o, (Run.single hstep).append hrun⟩

theorem Settles.error_whole (hp : Incremental parse) {s p : Bytes} {msg : String}
    (hpre : p <+: s.take MAX_HEADER_SIZE) (hne : p ≠ []) (h : parse p = .error msg) :
    s ≠ [] ∧ ∃ msg', parse (s.take MAX_HEADER_SIZE) = .error msg' := by
  refine ⟨?_, hp.error hpre h⟩
  rintro rfl
  exact hne (List.prefix_nil.mp hpre)

/-- The outcome is determined, except that parse errors may be found in different places. -/
theorem Settles.eq_or_error (hp : Incremental parse) {s : Bytes} {o o' : Outcome}
    (h : Settles parse connect s o) (h' : Settles parse connect s o') :
    o = o' ∨ ∃ p p' msg msg', p <+: s.take MAX_HEADER_SIZE ∧ p' <+: s.take MAX_HEADER_SIZE ∧
      parse p = .error msg ∧ parse p' = .error msg' ∧
      o = .fail (.parse msg) ∧ o' = .fail (.parse msg') := by
  -- what the parser makes of the whole buffer decides which case applies
  cases h with
  | silent h =>
    cases h' with
    | silent h' => exact Or.inl rfl
    | error hpre hne herr =>
      obtain ⟨hs, msg, hmsg⟩ := error_whole hp hpre hne herr
      obtain ⟨req, h⟩ := h.resolve_left hs
      cases hmsg.symm.trans h
    | head hs hhead =>
      obtain ⟨req, h⟩ := h.resolve_left hs
      cases hhead.symm.trans h
  | error hpre hne herr =>
    obtain ⟨hs, msg, hmsg⟩ := error_whole hp hpre hne herr
    cases h' with
    | silent h' =>
      obtain ⟨req, h'⟩ := h'.resolve_left hs
      cases hmsg.symm.trans h'
    | error hpre' _ herr' => exact Or.inr ⟨_, _, _, _, hpre, hpre', herr, herr', rfl, rfl⟩
    | head _ hhead => cases hmsg.symm.trans hhead
  | head hs hhead =>
    cases h' with
    | silent h' =>
      obtain ⟨req, h'⟩ := h'.resolve_left hs
      cases hhead.symm.trans h'
    | error hpre hne herr =>
      obtain ⟨-, msg, hmsg⟩ := error_whole hp hpre hne herr
      cases hmsg.symm.trans hhead
    | head _ hhead' =>
      cases hhead.symm.trans hhead'
      exact Or.inl rfl

/-- Two outcomes that differ at most in the text of a parse error. -/
def Outcome.Same (o o' : Outcome) : Prop :=
  o = o' ∨ ∃ msg msg', o = .fail (.parse msg) ∧ o' = .fail (.parse msg')

namespace Settles

variable {s : Bytes} {o o' : Outcome}

theorem same (hp : Incremental parse) (h : Settles parse connect s o)
    (h' : Settles parse connect s o') : o.Same o' := by
  rcases h.eq_or_error hp h' with heq | ⟨_, _, msg, msg', _, _, _, _, ho, ho'⟩
  · exact Or.inl heq
  · exact Or.inr ⟨msg, msg', ho, ho'⟩

/-- If the error of a beginning stays the same error, so does the outcome. -/
theorem eq_of_stable (hp : Incremental parse) (h : Settles parse connect s o)
    (h' : Settles parse connect s o')
    (hstable : ∀ p q msg, p <+: q → parse p = .error msg → parse q = .error msg) : o = o' := by
  rcases h.eq_or_error hp h' with heq | ⟨p, p', msg, msg', hpre, hpre', herr, herr', rfl, rfl⟩
  · exact heq
  · have hboth := (hstable _ _ _ hpre herr).symm.trans (hstable _ _ _ hpre' herr')
    cases hboth
    rfl

/-- A head that fits into the buffer decides. -/
theorem eq_answer (hp : Incremental parse) (h : Settles parse connect s o) {len : ℕ}
    {req : Request} (hparse : parse s = .ok (.complete len, req)) (hpos : 0 < len)
    (hlen : len ≤ MAX_HEADER_SIZE) : o = answer connect req (s.drop len) := by
  have hle := hp.len_le hparse
  have hwhole := hp.long (List.prefix_refl s) (List.take_prefix MAX_HEADER_SIZE s) hparse
    (by rw [List.length_take]; omega)
  have hne : s ≠ [] := by
    rintro rfl
    exact absurd hle (Nat.not_le_of_lt hpos)
  rcases h.eq_or_error hp (.head hne hwhole) with heq | ⟨p, -, msg, -, hpre, -, herr, -⟩
  · exact heq
  · obtain ⟨msg', hmsg⟩ := hp.error hpre herr
    cases hmsg.symm.trans hwhole

theorem eq_fail (h : Settles parse connect s o)
    (hnone : ∀ p, p <+: s → p ≠ [] → p.length ≤ MAX_HEADER_SIZE →
      ∃ req, parse p = .ok (.incomplete, req)) :
    o = .fail (if MAX_HEADER_SIZE ≤ s.length then .headersTooLarge else .prematureEof) := by
  have hshort (p : Bytes) (hpre : p <+: s.take MAX_HEADER_SIZE) (hne : p ≠ []) :
      ∃ req, parse p = .ok (.incomplete, req) := by
    rw [List.prefix_take_iff] at hpre
    exact hnone p hpre.1 hne hpre.2
  cases h with
  | silent _ => split <;> split <;> first | rfl | omega
  | error hpre hne herr =>
    obtain ⟨req, hreq⟩ := hshort _ hpre hne
    cases hreq.symm.trans herr
  | head hne hhead =>
    obtain ⟨req, hreq⟩ := hshort _ (List.prefix_refl _) (by simpa [MAX_HEADER_SIZE] using hne)
    cases hreq.symm.trans hhead

end Settles

section Runs

variable {s : Bytes} {tr : List (State × ℕ)} {t : State}

theorem explained_of_run (hp : Incremental parse)
    (h : Run (ProxyStep parse connect) (.reading [] s) tr t) :
    Explained parse connect s t ∧ tr.length+t.fuel ≤ s.length+1 ∧
      ∀ q ∈ tr, ∀ buf rest, q.1 = .reading buf rest →
        buf.length < MAX_HEADER_SIZE ∧ buf.length+q.2 ≤ MAX_HEADER_SIZE := by
  refine h.history (fun tr t => Explained parse connect s t ∧ tr.length+t.fuel ≤ s.length+1 ∧
    ∀ q ∈ tr, ∀ buf rest, q.1 = .reading buf rest →
      buf.length < MAX_HEADER_SIZE ∧ buf.length+q.2 ≤ MAX_HEADER_SIZE) ?_ ?_
  · refine ⟨⟨rfl, by decide, Or.inl rfl⟩, ?_, fun _ hq => absurd hq List.not_mem_nil⟩
    rw [List.length_nil, Nat.zero_add]
    exact le_rfl
  · intro tr t n u ⟨ht, hfuel, hroom⟩ hstep
    refine ⟨hstep.explained hp ht, ?_, ?_⟩
    · have := hstep.fuel_lt
      rw [List.length_append, List.length_singleton]
      omega
    · intro q hq buf rest hread
      rcases List.mem_append.mp hq with hq | hq
      · exact hroom q hq buf rest hread
      · obtain rfl := List.mem_singleton.mp hq
        obtain rfl : t = .reading buf rest := hread
        cases hstep with
        | read h =>
          have hlt := ht.2.1
          have := h.1
          exact ⟨hlt, by dsimp only; omega⟩

end Runs

/-- However the bytes of the client are split into reads, the outcome is the same. A tunnel leads
to the host and port of the request, which receive what follows the head; a stream without a head
within the buffer fails. -/
theorem tunnel_chunk_independent (hp : Incremental parse) (s : Bytes) :
    (∀ tr t, Run (ProxyStep parse connect) (.reading [] s) tr t →
      tr.length ≤ s.length+1 ∧
      ((∃ o, t = .finished o) ∨ ∃ n u, ProxyStep parse connect t n u) ∧
      ∀ buf rest n, (State.reading buf rest, n) ∈ tr →
        0 < MAX_HEADER_SIZE-buf.length ∧ buf.length+n ≤ MAX_HEADER_SIZE) ∧
    (∀ tr tr' o o', Run (ProxyStep parse connect) (.reading [] s) tr (.finished o) →
      Run (ProxyStep parse connect) (.reading [] s) tr' (.finished o') →
      o.Same o' ∧
      ((∀ p q msg, p <+: q → parse p = .error msg → parse q = .error msg) → o = o')) ∧
    (∀ len req target host port, parse s = .ok (.complete len, req) →
      0 < len → len ≤ MAX_HEADER_SIZE → req.method = some "CONNECT" →
      req.path = some target → parseHostPort target = .ok (host, port) →
      connect host port = true →
      ∀ tr o, Run (ProxyStep parse connect) (.reading [] s) tr (.finished o) →
        o = ⟨.ok (), established, some ((host, port), s.drop len)⟩) ∧
    ((∀ p, p <+: s → p ≠ [] → p.length ≤ MAX_HEADER_SIZE →
        ∃ req, parse p = .ok (.incomplete, req)) →
      ∀ tr o, Run (ProxyStep parse connect) (.reading [] s) tr (.finished o) →
        o = .fail (if MAX_HEADER_SIZE ≤ s.length then .headersTooLarge else .prematureEof)) := by
  refine ⟨?_, ?_, ?_, ?_⟩
  · intro tr t hrun
    obtain ⟨-, hfuel, hroom⟩ := explained_of_run hp hrun
    refine ⟨by omega, t.progress parse connect, ?_⟩
    intro buf rest n hmem
    obtain ⟨hlt, hle⟩ := hroom _ hmem buf rest rfl
    exact ⟨by omega, hle⟩
  · intro tr tr' o o' hrun hrun'
    have h := (explained_of_run hp hrun).1
    have h' := (explained_of_run hp hrun').1
    exact ⟨h.same hp h', h.eq_of_stable hp h'⟩
  · intro len req target host port hparse hpos hlen hmethod hpath htarget hconnect tr o hrun
    rw [(explained_of_run hp hrun).1.eq_answer hp hparse hpos hlen]
    simp [answer, openTunnel, hmethod, hpath, htarget, hconnect]
  · intro hnone tr o hrun
    exact (explained_of_run hp hrun).1.eq_fail hnone

end Proxy

/-- A parser that knows one request only. -/
def literalParser (head : Bytes) (req : Request) : Parser := fun p =>
  if head <+: p then .ok (.complete head.length, req)
  else if p <+: head then .ok (.incomplete, ⟨none, none⟩)
  else .error "invalid request"

theorem literalParser_complete {head p : Bytes} {req req' : Request} {len : ℕ}
    (h : literalParser head req p = .ok (.complete len, req')) :
    head <+: p ∧ len = head.length ∧ req' = req := by
  rw [literalParser] at h
  split at h
  · next hpre =>
    cases h
    exact ⟨hpre, rfl, rfl⟩
  · split at h <;> cases h

theorem literalParser_incremental (head : Bytes) (req : Request) :
    Incremental (literalParser head req) where
  short {s p q len req'} hp hq h hlt := by
    obtain ⟨hhead, rfl, -⟩ := literalParser_complete h
    have hpre : q <+: head := List.prefix_of_prefix_length_le hq (hhead.trans hp) hlt.le
    refine ⟨⟨none, none⟩, ?_⟩
    rw [literalParser, if_neg fun hle => by have := hle.length_le; omega, if_pos hpre]
  long {s p q len req'} hp hq h hle := by
    obtain ⟨hhead, rfl, rfl⟩ := literalParser_complete h
    rw [literalParser, if_pos (List.prefix_of_prefix_length_le (hhead.trans hp) hq hle)]
  error {p q msg} hp h := by
    rw [literalParser] at h
    split at h
    · cases h
    · next hno =>
      split at h
      · cases h
      · next hno' =>
        -- neither begins with the other, and so for everything that begins with `p`
        refine ⟨"invalid request", ?_⟩
        rw [literalParser, if_neg, if_neg fun hq => hno' (hp.trans hq)]
        intro hq
        rcases List.prefix_or_prefix_of_prefix hp hq with hpre | hpre
        · exact hno' hpre
        · exact hno hpre

def exampleHead : Bytes := utf8 "CONNECT example.com:443 HTTP/1.1\r\n\r\n"

def exampleRequest : Request := ⟨some "CONNECT", some "example.com:443"⟩

/-- The one upstream that can be reached. -/
def exampleUpstream (host : String) (port : UInt16) : Bool := host = "example.com" ∧ port = 443

theorem example_connect_tunnelled : ∃ tr,
    Run (ProxyStep (literalParser exampleHead exampleRequest) exampleUpstream)
      (.reading [] (exampleHead ++ [22, 3, 1])) tr
      (.finished ⟨.ok (), established, some (("example.com", 443), [22, 3, 1])⟩) := by
  have hparser := literalParser_incremental exampleHead exampleRequest
  obtain ⟨tr, o, hrun⟩ := (State.reading [] (exampleHead ++ [22, 3, 1])).finishes
    (literalParser exampleHead exampleRequest) exampleUpstream
  have ho := (tunnel_chunk_independent hparser (exampleHead ++ [22, 3, 1])).2.2.1
    exampleHead.length exampleRequest "example.com:443" "example.com" 443
    (by rw [literalParser, if_pos (List.prefix_append _ _)]) (by decide) (by decide) rfl rfl
    (by decide) (by decide) tr o hrun
  rw [List.drop_left] at ho
  rw [ho] at hrun
  exact ⟨tr, hrun⟩

end GravitalShare.Http
