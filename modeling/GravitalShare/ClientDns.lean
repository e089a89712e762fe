import GravitalShare.ClientLoop

/-! Whatever becomes of a query on the network, one reply to the app that sent it is handed to the
writer. The app gets it if it is not too large for the writer and the TUN takes it. -/
namespace GravitalShare

namespace Dns

/-- The query with its flags set to a response that says SERVFAIL. -/
def servfail (query : Bytes) : Bytes :=
  if query.length < 2 then []
  else if 4 ≤ query.length then query.take 2 ++ [0x81, 0x82] ++ query.drop 4
  else query

theorem buildServfail_eq (query : Bytes) : buildServfail query = .ok (servfail query) := by
  unfold buildServfail servfail
  by_cases h2 : query.length < 2
  · rw [if_pos h2, if_pos h2]
  · by_cases h4 : 4 ≤ query.length
    · have hone : 2+[(0x81 : UInt8)].length ≤ query.length := by
        rw [List.length_singleton]
        omega
      have htwo : 3+[(0x82 : UInt8)].length ≤ (writeAt query 2 [0x81]).length := by
        rw [length_writeAt hone, List.length_singleton]
        omega
      rw [if_neg h2, if_neg h2, if_pos h4, if_pos h4, copyAt_eq hone, Exec.ok_bind, copyAt_eq htwo,
        writeAt_pair h4]
      rfl
    · rw [if_neg h2, if_neg h2, if_neg h4, if_neg h4]

theorem length_servfail (query : Bytes) : (servfail query).length ≤ query.length := by
  unfold servfail
  split_ifs with h2 h4
  · exact Nat.zero_le _
  · simp only [List.length_append, List.length_take, List.length_cons, List.length_nil,
      List.length_drop]
    omega
  · exact le_rfl

/-- What a query is answered with. -/
def responseTo (query : Bytes) : Exchange → Bytes
  | .answered datagram => datagram.take 4096
  | _ => servfail query

theorem handleQuery_eq (dns : DnsInterceptor) (query : Bytes) (x : Exchange) :
    ∃ dns', dns.handleQuery query x = .ok (dns', .ok (responseTo query x)) := by
  cases x with
  | answered datagram =>
    rw [DnsInterceptor.handleQuery, forwardRaw_answered]
    exact ⟨_, rfl⟩
  | _ =>
    simp only [DnsInterceptor.handleQuery, forwardRaw, buildServfail_eq, Exec.ok_bind]
    exact ⟨_, rfl⟩

theorem length_responseTo (query : Bytes) (x : Exchange) :
    (responseTo query x).length ≤ max 4096 query.length := by
  cases x with
  | answered datagram => exact (List.length_take_le _ _).trans (le_max_left _ _)
  | _ => exact (length_servfail query).trans (le_max_right _ _)

end Dns

namespace Client

open Engine Dns Tun

/-- The tasks that got to know what became of their query. -/
def resolvedAt (_ : Loop) : Act → List (Bytes × Exchange)
  | .resolve pkt x => [(pkt, x)]
  | _ => []

/-- A task waits for the answer to a whole query, or its reply is the one that its answer asks
for. -/
def Job.Right (log : List (Bytes × Exchange)) : Job → Prop
  | .asked pkt query => WholeDns pkt ∧ pkt.length ≤ BUF_SIZE ∧ query = queryOf pkt
  | .counted pkt reply | .ready pkt reply | .handed pkt reply _ =>
    ∃ x, (pkt, x) ∈ log ∧ ReplyTo pkt (responseTo (queryOf pkt) x) reply
  | .unanswered _ => False

/-- The packets whose tasks are behind `handle_query`, and the replies these have built. -/
def Job.resolved : Job → List Bytes
  | .asked _ _ => []
  | job => [job.asker]

def Job.replies : Job → List Bytes
  | .counted _ reply | .ready _ reply | .handed _ reply _ => [reply]
  | _ => []

/-- What `write_packet` made of the reply of a task that is done. -/
def Job.record : Job → List (Bytes × Except TunError Unit)
  | .handed _ reply result => [(reply, result)]
  | _ => []

theorem Job.Right.mono {log more : List (Bytes × Exchange)} {job : Job} (h : job.Right log) :
    job.Right (log ++ more) := by
  cases job with
  | asked => exact h
  | unanswered => exact h
  | _ =>
    obtain ⟨x, hx, hreply⟩ := h
    exact ⟨x, List.mem_append_left _ hx, hreply⟩

/-- A reply to a query that was read can be built, whatever the exchange was. -/
theorem reply_exists {pkt : Bytes} (hwhole : WholeDns pkt) (hlen : pkt.length ≤ BUF_SIZE)
    (x : Exchange) : ∃ reply, buildUdpReply pkt (responseTo (queryOf pkt) x) = .ok (some reply) ∧
      ReplyTo pkt (responseTo (queryOf pkt) x) reply := by
  have hquery : (queryOf pkt).length ≤ pkt.length := by
    rw [queryOf, List.length_drop, List.length_take]
    omega
  have hresp := length_responseTo (queryOf pkt) x
  have hbuf : BUF_SIZE = 1600 := rfl
  exact buildUdpReply_replies hwhole.2.1 hwhole.1 _ (by omega)

section

variable {alloc : Stack.Allocator} {c c' : Loop} {a : Act} {log : List (Bytes × Exchange)}

theorem spawned_right {t t' : TunRead} {pkt : Bytes} (hlen : pkt.length ≤ BUF_SIZE)
    (h : t.onPacket pkt = .ok t') {job : Job} (hjob : job ∈ spawned t t') : job.Right log := by
  unfold spawned at hjob
  obtain ⟨-, hdns⟩ | rfl | ⟨hwhole, rfl⟩ := TunRead.onPacket_cases h
  · rw [hdns, List.drop_length] at hjob
    exact absurd hjob List.not_mem_nil
  · have hnone : ((t.count pkt).feedInbound pkt).dns.drop t.dns.length = [] := List.drop_length
    rw [hnone] at hjob
    exact absurd hjob List.not_mem_nil
  · have hone : ((t.count pkt).spawnDns pkt (queryOf pkt)).dns.drop t.dns.length =
        [(pkt, queryOf pkt)] := List.drop_left
    rw [show (pkt.take (ihl pkt+udpLen pkt)).drop (ihl pkt+8) = queryOf pkt from rfl, hone] at hjob
    rw [List.mem_singleton.mp hjob]
    exact ⟨hwhole, hlen, rfl⟩

theorem mem_replaced {pre post : List Job} {job j : Job} (h : job ∈ pre ++ j :: post) (k : Job) :
    job = j ∨ job ∈ pre ++ k :: post := by
  rcases List.mem_append.mp h with h | h
  · exact Or.inr (List.mem_append_left _ h)
  · rcases List.mem_cons.mp h with h | h
    · exact Or.inl h
    · exact Or.inr (List.mem_append_right _ (List.mem_cons_of_mem _ h))

theorem Step.right (h : Step alloc c a c') (hc : ∀ job ∈ c.jobs, job.Right log) :
    ∀ job ∈ c'.jobs, job.Right (log ++ resolvedAt c a) := by
  intro job hjob
  cases h with
  | read _ hread h =>
    rcases List.mem_append.mp hjob with hjob | hjob
    · exact (hc job hjob).mono
    · exact spawned_right (readPacket_le hread) h hjob
  | @resolve pre post pkt query resp reply x dns hj hq hb =>
    rcases mem_replaced hjob (.asked pkt query) with rfl | hjob
    · obtain ⟨hwhole, hlen, rfl⟩ := hc (.asked pkt query) (hj ▸ List.mem_append_cons_self)
      obtain ⟨dns', hdns⟩ := handleQuery_eq c.dns (queryOf pkt) x
      obtain ⟨reply', hreply, hto⟩ := reply_exists hwhole hlen x
      rw [hdns] at hq
      cases hq
      rw [hreply] at hb
      cases hb
      exact ⟨x, List.mem_append_right _ (List.mem_singleton_self _), hto⟩
    · exact (hc job (hj ▸ hjob)).mono
  | @noReply pre post pkt query x dns result hj hq hb =>
    -- such a step is never taken
    obtain ⟨hwhole, hlen, rfl⟩ := hc (.asked pkt query) (hj ▸ List.mem_append_cons_self)
    obtain ⟨dns', hdns⟩ := handleQuery_eq c.dns (queryOf pkt) x
    obtain ⟨reply', hreply, -⟩ := reply_exists hwhole hlen x
    rw [hdns] at hq
    cases hq
    have hnone := hb _ rfl
    rw [hreply] at hnone
    cases hnone
  | @countBytes pre post pkt reply hj =>
    rcases mem_replaced hjob (.counted pkt reply) with rfl | hjob
    · exact (hc (.counted pkt reply) (hj ▸ List.mem_append_cons_self)).mono
    · exact (hc job (hj ▸ hjob)).mono
  | @reply pre post pkt reply turns result hj =>
    rcases mem_replaced hjob (.ready pkt reply) with rfl | hjob
    · exact (hc (.ready pkt reply) (hj ▸ List.mem_append_cons_self)).mono
    · exact (hc job (hj ▸ hjob)).mono
  | _ => exact (hc job hjob).mono

theorem Step.resolved (h : Step alloc c a c') {l : List Bytes}
    (hl : (c.jobs.flatMap Job.resolved).Perm l) :
    (c'.jobs.flatMap Job.resolved).Perm (l ++ (resolvedAt c a).map Prod.fst) := by
  cases h with
  | @read turns pkt t hr hread h =>
    have hnew := flatMap_spawned c.read t Job.resolved (fun _ _ => rfl)
    simpa only [resolvedAt, List.flatMap_append, hnew, List.map_nil, List.append_nil] using hl
  | @resolve pre post pkt query resp reply x dns hj | @noReply pre post pkt query x dns result hj =>
    simp only [hj, List.flatMap_append, List.flatMap_cons, Job.resolved, List.nil_append] at hl
    simp only [resolvedAt, List.flatMap_append, List.flatMap_cons, Job.resolved, Job.asker,
      List.map_cons, List.map_nil]
    exact (perm_snoc hl.symm pkt).symm
  | countBytes hj | reply hj =>
    simpa only [hj, resolvedAt, List.flatMap_append, List.flatMap_cons, Job.resolved, Job.asker,
      List.map_nil, List.append_nil] using hl
  | _ => simpa only [resolvedAt, List.map_nil, List.append_nil] using hl

theorem Step.recorded (h : Step alloc c a c') {q : Bytes × Except TunError Unit}
    (hq : q ∈ c'.jobs.flatMap Job.record) : q ∈ c.jobs.flatMap Job.record ++ handedAt c a := by
  cases h with
  | @read turns pkt t hr hread h =>
    have hnew : (spawned c.read t).flatMap Job.record = [] := by
      rw [spawned, List.flatMap_map]
      exact List.flatMap_eq_nil_iff.mpr fun _ _ => rfl
    rw [List.flatMap_append, hnew, List.append_nil] at hq
    exact List.mem_append_left _ hq
  | resolve hj | noReply hj | countBytes hj =>
    simpa only [hj, handedAt, List.flatMap_append, List.flatMap_cons, Job.record,
      List.append_nil] using hq
  | reply hj =>
    simp only [hj, handedAt, List.flatMap_append, List.flatMap_cons, Job.record, List.mem_append,
      List.nil_append] at hq ⊢
    rcases hq with hq | hq | hq
    · exact Or.inl (Or.inl hq)
    · exact Or.inr hq
    · exact Or.inl (Or.inr hq)
  | _ => exact List.mem_append_left _ hq

end

theorem run_recorded {alloc : Stack.Allocator} {mtu : UInt16} {tr : List (Loop × Act)} {c : Loop}
    (hrun : Run (Step alloc) (Loop.init mtu) tr c) :
    ∀ q ∈ c.jobs.flatMap Job.record, q ∈ gather handedAt tr := by
  refine hrun.history (fun tr c => ∀ q ∈ c.jobs.flatMap Job.record, q ∈ gather handedAt tr) ?_ ?_
  · exact fun _ hq => absurd hq List.not_mem_nil
  · intro tr c a c' hc h q hq
    rw [gather_snoc]
    rcases List.mem_append.mp (h.recorded hq) with hq | hq
    · exact List.mem_append_left _ (hc q hq)
    · exact List.mem_append_right _ hq

theorem run_right {alloc : Stack.Allocator} {mtu : UInt16} {tr : List (Loop × Act)} {c : Loop}
    (hrun : Run (Step alloc) (Loop.init mtu) tr c) :
    ∀ job ∈ c.jobs, job.Right (gather resolvedAt tr) := by
  refine hrun.history (fun tr c => ∀ job ∈ c.jobs, job.Right (gather resolvedAt tr)) ?_ ?_
  · exact fun _ hjob => absurd hjob List.not_mem_nil
  · intro tr c a c' hc h
    rw [gather_snoc]
    exact h.right hc

/-- Every intercepted query leads to a reply, over every run and whatever the resolver does: a task
that waits can go on, for each outcome, to hand one to `write_packet`, whatever comes of it there;
the tasks that went on did so for one outcome each, what they hand over is the reply to their own
packet with the answer received or SERVFAIL, and no task ends without one. The TUN has got the
replies for which `write_packet` returned `Ok`, and those above the MTU are refused. -/
theorem queries_answered {alloc : Stack.Allocator} {mtu : UInt16} {tr : List (Loop × Act)}
    {c : Loop} (hrun : Run (Step alloc) (Loop.init mtu) tr c) :
    (∀ pkt query, .asked pkt query ∈ c.jobs → ∀ x, ∃ reply,
      ReplyTo pkt (responseTo (queryOf pkt) x) reply ∧
      ∀ turns result, TunWriter.writePacket mtu reply turns = some result →
        ∃ tr' c', Run (Step alloc) c tr' c' ∧
          tr'.map Prod.snd = [.resolve pkt x, .countBytes, .reply reply result]) ∧
    (c.jobs.flatMap Job.resolved).Perm ((gather resolvedAt tr).map Prod.fst) ∧
    (∀ job ∈ c.jobs, ∀ reply ∈ job.replies, ∃ x, (job.asker, x) ∈ gather resolvedAt tr ∧
      ReplyTo job.asker (responseTo (queryOf job.asker) x) reply) ∧
    (∀ pkt, .unanswered pkt ∉ c.jobs) ∧
    ∀ pkt reply result, .handed pkt reply result ∈ c.jobs →
      (result = .ok () → reply ∈ gather deliveredAt tr) ∧
      (PacketTooLarge (some result) ↔ mtu.toNat < reply.length) := by
  have hright := run_right hrun
  have hperm := hrun.history
    (fun tr c => (c.jobs.flatMap Job.resolved).Perm ((gather resolvedAt tr).map Prod.fst))
    (List.Perm.refl _) (by
      intro tr c a c' hc h
      rw [gather_snoc, List.map_append]
      exact h.resolved hc)
  have hb := Accounts.of_run hrun
  refine ⟨?_, hperm, ?_, ?_, ?_⟩
  · intro pkt query hjob x
    obtain ⟨hwhole, hlen, rfl⟩ := hright _ hjob
    obtain ⟨pre, post, hj⟩ := List.append_of_mem hjob
    obtain ⟨dns, hdns⟩ := handleQuery_eq c.dns (queryOf pkt) x
    obtain ⟨reply, hreply, hto⟩ := reply_exists hwhole hlen x
    refine ⟨reply, hto, ?_⟩
    intro turns result hresult
    rw [← hb.mtu_eq] at hresult
    obtain ⟨tr', c', hrun', hacts, -⟩ := answer_run alloc hj hdns hreply hresult
    exact ⟨tr', c', hrun', hacts⟩
  · intro job hjob reply hreply
    have h := hright job hjob
    cases job with
    | asked | unanswered => exact absurd hreply List.not_mem_nil
    | _ =>
      rw [List.mem_singleton.mp hreply]
      exact h
  · intro pkt hjob
    exact hright _ hjob
  · intro pkt reply result hjob
    -- what the task has on record, the run has on record too
    have hmem : (reply, result) ∈ gather handedAt tr :=
      run_recorded hrun _ (List.mem_flatMap.mpr ⟨_, hjob, List.mem_singleton_self _⟩)
    refine ⟨?_, hb.sizes _ hmem⟩
    rintro rfl
    rw [delivered_eq]
    exact List.mem_map.mpr ⟨_, List.mem_filter.mpr ⟨hmem, rfl⟩, rfl⟩

/-- A query that is not answered in time gets SERVFAIL. -/
theorem late_query_answered : ∃ (tr : List (Loop × Act)) (c : Loop) (reply : Bytes),
    Run (Step .lowest) (Loop.init 1280) tr c ∧ reply ∈ gather deliveredAt tr ∧
    ReplyTo (TunRead.dnsPacket 13 [1, 2, 3, 4, 5]) [1, 2, 0x81, 0x82, 5] reply := by
  obtain ⟨c, hstep, hjobs, -⟩ := @read_query .lowest 1280
    (TunRead.dnsPacket 13 [1, 2, 3, 4, 5]) (by decide) (by decide)
  have hasked := hjobs.symm ▸ List.mem_append_cons_self
  obtain ⟨reply, hto, hgo⟩ := (queries_answered (Run.single hstep)).1 _ _ hasked .timedOut
  have hfits : ¬(1280 : UInt16).toNat < reply.length := by
    rw [hto.length_eq]
    decide
  have hwrite := writePacket_ready 1280 reply
  rw [if_neg hfits] at hwrite
  obtain ⟨tr, c', hrun, hacts⟩ := hgo _ _ hwrite
  refine ⟨_, c', reply, (Run.single hstep).append hrun, ?_, hto⟩
  rw [gather_append, gather_labels deliveredAt c (fun _ _ => rfl) tr, hacts]
  exact List.mem_append_right _ (List.mem_singleton_self _)

end Client

end GravitalShare
