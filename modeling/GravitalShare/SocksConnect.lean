import GravitalShare.SocksTunnel

/-! What the client's CONNECT takes for a success. The version of the reply is not looked at, and
of a reply with an unknown type of address nothing but the header is read. -/
namespace GravitalShare.Socks

open Duplex

/-- The bound address and the port of a reply, by the type of the address. -/
def IsBound (atyp : UInt8) (b : Bytes) : Prop :=
  atyp = 0x01 ∧ b.length = 4+2 ∨ atyp = 0x04 ∧ b.length = 16+2 ∨
    atyp = 0x03 ∧ ∃ len tail, b = len :: tail ∧ tail.length = len.toNat+2

/-- A complete reply of a SOCKS5 server that tells of a success. -/
def IsSuccess (reply : Bytes) : Prop :=
  ∃ rsv atyp b, reply = [VERSION, 0x00, rsv, atyp] ++ b ∧ IsBound atyp b

/-- What `skip_bound_address` skips. -/
def Skipped (atyp : UInt8) (b : Bytes) : Prop :=
  IsBound atyp b ∨ (atyp ≠ 0x01 ∧ atyp ≠ 0x03 ∧ atyp ≠ 0x04) ∧ b = []

theorem IsBound.known {atyp : UInt8} {b : Bytes} (h : IsBound atyp b) :
    atyp = 0x01 ∨ atyp = 0x03 ∨ atyp = 0x04 := by
  rcases h with ⟨hatyp, -⟩ | ⟨hatyp, -⟩ | ⟨hatyp, -⟩
  · exact Or.inl hatyp
  · exact Or.inr (Or.inr hatyp)
  · exact Or.inr (Or.inl hatyp)

/-- The header of a success, and what there is behind it. -/
theorem IsSuccess.header {reply t unread : Bytes} {ver rsv atyp : UInt8} (h : IsSuccess reply)
    (hs : [ver, 0x00, rsv, atyp] ++ t = reply ++ unread) :
    ver = VERSION ∧ ∃ b, t = b ++ unread ∧ IsBound atyp b := by
  obtain ⟨rsv', atyp', b, rfl, hb⟩ := h
  simp only [List.cons_append, List.nil_append, List.cons.injEq] at hs
  obtain ⟨hver, -, -, rfl, ht⟩ := hs
  exact ⟨hver, b, ht, hb⟩

section Acceptance

variable {s unread : Bytes}

theorem accepts_skip_iff {n : ℕ} :
    Accepts (do let _ ← readExact n) s () unread ↔ ∃ b, s = b ++ unread ∧ b.length = n := by
  simp only [accepts_bind_iff, accepts_readExact_iff, accepts_pure_iff, true_and]
  constructor
  · rintro ⟨b, mid, rfl, rfl⟩
    exact ⟨b.1, rfl, b.2⟩
  · rintro ⟨b, rfl, hlen⟩
    exact ⟨⟨b, hlen⟩, unread, rfl, rfl⟩

theorem accepts_readU8_iff {x : UInt8} : Accepts readU8 s x unread ↔ s = x :: unread := by
  simp only [readU8, accepts_bind_iff, accepts_readExact_iff, accepts_pure_iff]
  constructor
  · rintro ⟨⟨b, hb⟩, mid, rfl, rfl, rfl⟩
    obtain ⟨x, rfl⟩ := List.length_eq_one_iff.mp hb
    rfl
  · rintro rfl
    exact ⟨⟨[x], rfl⟩, unread, rfl, rfl, rfl⟩

theorem accepts_skipBoundAddress_iff {atyp : UInt8} :
    Accepts (skipBoundAddress atyp) s () unread ↔ ∃ b, s = b ++ unread ∧ Skipped atyp b := by
  by_cases h1 : atyp = 0x01
  · subst h1
    have hs {b} : Skipped 0x01 b ↔ b.length = 4+2 := by simp [Skipped, IsBound]
    simp only [hs]
    exact accepts_skip_iff
  · by_cases h3 : atyp = 0x03
    · subst h3
      have hs {b} : Skipped 0x03 b ↔ ∃ len tail, b = len :: tail ∧ tail.length = len.toNat+2 := by
        simp [Skipped, IsBound]
      have hskip : Accepts (skipBoundAddress 0x03) s () unread ↔
          ∃ len mid, s = len :: mid ∧ ∃ b, mid = b ++ unread ∧ b.length = len.toNat+2 := by
        rw [skipBoundAddress, if_neg (by decide), if_pos rfl]
        simp only [accepts_bind_iff (x := readU8), accepts_readU8_iff, accepts_skip_iff]
      rw [hskip]
      simp only [hs]
      constructor
      · rintro ⟨len, mid, rfl, b, rfl, hlen⟩
        exact ⟨len :: b, rfl, len, b, rfl, hlen⟩
      · rintro ⟨b, rfl, len, tail, rfl, hlen⟩
        exact ⟨len, tail ++ unread, rfl, tail, rfl, hlen⟩
    · by_cases h4 : atyp = 0x04
      · subst h4
        have hs {b} : Skipped 0x04 b ↔ b.length = 16+2 := by simp [Skipped, IsBound]
        simp only [hs]
        exact accepts_skip_iff
      · have hs {b} : Skipped atyp b ↔ b = [] := by simp [Skipped, IsBound, h1, h3, h4]
        rw [skipBoundAddress, if_neg h1, if_neg h3, if_neg h4, accepts_pure_iff]
        simp [hs]

theorem accepts_connectReply_iff :
    Accepts connectReply s () unread ↔ ∃ ver rsv atyp b,
      s = [ver, 0x00, rsv, atyp] ++ (b ++ unread) ∧ Skipped atyp b := by
  simp only [connectReply, accepts_bind_iff (x := readExact 4), accepts_guard_iff,
    accepts_readExact_iff, accepts_skipBoundAddress_iff]
  constructor
  · rintro ⟨⟨hdr, hlen⟩, mid, rfl, hrep, b, rfl, hb⟩
    match hdr, hlen, hrep, hb with
    | [ver, rep, rsv, atyp], _, hrep, hb =>
      obtain rfl : rep = 0x00 := not_not.mp hrep
      exact ⟨ver, rsv, atyp, b, rfl, hb⟩
  · rintro ⟨ver, rsv, atyp, b, rfl, hb⟩
    exact ⟨⟨[ver, 0x00, rsv, atyp], rfl⟩, b ++ unread, rfl, not_not.mpr rfl, b, rfl, hb⟩

theorem accepts_writeAll_iff {bs : Bytes} {u : Unit} :
    Accepts (writeAll bs) s u unread ↔ s = unread := by
  constructor
  · rintro ⟨ys, h⟩
    have hrun := (talks_writeAll bs).run_eq s
    cases hrun.symm.trans h
    rfl
  · rintro rfl
    exact (talks_writeAll bs).accepts s

/-- The streams on which CONNECT succeeds. -/
theorem accepts_connect_iff (target : AddrSpec) (port : UInt16) :
    Accepts (connect target port) s () unread ↔ ∃ ver rsv atyp b,
      s = [0x05, 0x00] ++ ([ver, 0x00, rsv, atyp] ++ (b ++ unread)) ∧ Skipped atyp b := by
  simp only [connect, connectRequest, accepts_bind_iff (x := writeAll _),
    accepts_bind_iff (x := readExact 2), accepts_guard_iff, accepts_writeAll_iff,
    accepts_readExact_iff, accepts_connectReply_iff]
  constructor
  · rintro ⟨_, mid, rfl, ⟨resp, hlen⟩, mid', rfl, hver, hmethod, _, mid'', rfl, h⟩
    obtain ⟨ver, rsv, atyp, b, rfl, hb⟩ := h
    match resp, hlen, hver, hmethod with
    | [v, m], _, hver, hmethod =>
      obtain rfl : v = 0x05 := not_not.mp hver
      obtain rfl : m = METHOD_NO_AUTH := not_not.mp hmethod
      exact ⟨ver, rsv, atyp, b, rfl, hb⟩
  · rintro ⟨ver, rsv, atyp, b, rfl, hb⟩
    exact ⟨(), _, rfl, ⟨[0x05, 0x00], rfl⟩, _, rfl, not_not.mpr rfl, not_not.mpr rfl, (), _, rfl,
      ver, rsv, atyp, b, rfl, hb⟩

end Acceptance

/-- CONNECT succeeds exactly on a complete success of a SOCKS5 server, and leaves unread what
follows it, unless it is given a header that tells of a success with an unknown type of address,
or with another version before a complete address. -/
theorem connect_exact_iff (target : AddrSpec) (port : UInt16) (s : Bytes) :
    (∀ unread, Accepts (connect target port) s () unread ↔
      ∃ reply, IsSuccess reply ∧ s = [0x05, 0x00] ++ (reply ++ unread)) ↔
    ∀ ver rsv atyp t, s = [0x05, 0x00] ++ ([ver, 0x00, rsv, atyp] ++ t) →
      (atyp = 0x01 ∨ atyp = 0x03 ∨ atyp = 0x04) ∧
      (ver = VERSION ∨ ∀ b rest, t = b ++ rest → ¬IsBound atyp b) := by
  constructor
  · intro hexact ver rsv atyp t hs
    have hsuccess (b rest : Bytes) (ht : t = b ++ rest) (hskip : Skipped atyp b) :
        ver = VERSION ∧ IsBound atyp b := by
      rw [ht] at hs
      have haccepts := (accepts_connect_iff target port).mpr ⟨ver, rsv, atyp, b, hs, hskip⟩
      obtain ⟨reply, hreply, hs'⟩ := (hexact rest).mp haccepts
      obtain ⟨hver, b', hb', hbound⟩ :=
        hreply.header (List.append_cancel_left (hs.symm.trans hs'))
      rw [List.append_cancel_right hb']
      exact ⟨hver, hbound⟩
    constructor
    · by_contra hunknown
      -- such a reply is taken for complete after its header
      have hbound := (hsuccess [] t rfl (Or.inr ⟨by simpa only [not_or] using hunknown, rfl⟩)).2
      exact hunknown hbound.known
    · by_contra hver
      simp only [not_or, not_forall, not_not] at hver
      obtain ⟨hver, b, rest, ht, hb⟩ := hver
      exact hver (hsuccess b rest ht (Or.inl hb)).1
  · intro hcond unread
    rw [accepts_connect_iff]
    constructor
    · rintro ⟨ver, rsv, atyp, b, hs, hskip⟩
      obtain ⟨hknown, hver⟩ := hcond ver rsv atyp (b ++ unread) hs
      rcases hskip with hb | ⟨⟨h1, h3, h4⟩, -⟩
      · rcases hver with rfl | hcut
        · exact ⟨_, ⟨rsv, atyp, b, rfl, hb⟩, by rw [hs, List.append_assoc]⟩
        · exact absurd hb (hcut b unread rfl)
      · rcases hknown with h | h | h
        · exact absurd h h1
        · exact absurd h h3
        · exact absurd h h4
    · rintro ⟨reply, ⟨rsv, atyp, b, rfl, hb⟩, hs⟩
      exact ⟨VERSION, rsv, atyp, b, by rw [hs, List.append_assoc], Or.inl hb⟩

/-- A reply of version 0, and one with address type 2, of which the address is left to be read as
the first bytes of the tunnel. -/
theorem broken_replies_accepted :
    Accepts (connect (.ipv4 ⟨93, 184, 216, 34⟩) 443)
      [5, 0, 0, 0, 0, 1, 10, 0, 0, 2, 195, 80, 72, 105] () [72, 105] ∧
    Accepts (connect (.ipv4 ⟨93, 184, 216, 34⟩) 443)
      [5, 0, 5, 0, 0, 2, 10, 0, 0, 2, 195, 80, 72, 105] () [10, 0, 0, 2, 195, 80, 72, 105] := by
  exact ⟨⟨_, rfl⟩, ⟨_, rfl⟩⟩

end GravitalShare.Socks
