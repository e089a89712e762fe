import GravitalShare.HttpProxy
import Mathlib.Data.List.Induction
import Mathlib.Data.List.TakeDrop
import Mathlib.Data.List.TakeWhile

/-! The targets that the HTTP proxy accepts, against the authority form of CONNECT. -/
namespace GravitalShare.Http

/-- Decimal digits, one or more, and their value. -/
inductive IsDecimal : List Char → ℕ → Prop
  | digit {c} (hc : c.isDigit) : IsDecimal [c] (c.toNat - '0'.toNat)
  | snoc {s n c} (hs : IsDecimal s n) (hc : c.isDigit) :
      IsDecimal (s ++ [c]) (10*n+(c.toNat - '0'.toNat))

def IsHexDigit (c : Char) : Prop :=
  c.isDigit ∨ ('a' ≤ c ∧ c ≤ 'f') ∨ ('A' ≤ c ∧ c ≤ 'F')

/-- A group of an IPv6 address. -/
def IsHextet (g : List Char) : Prop := g ≠ [] ∧ g.length ≤ 4 ∧ ∀ c ∈ g, IsHexDigit c

/-- An IPv4 address, for the last two groups of an IPv6 address. -/
def IsDottedQuad (s : List Char) : Prop :=
  ∃ octets : List (List Char), octets.length = 4 ∧ s = List.intercalate ['.'] octets ∧
    ∀ o ∈ octets, ∃ n, IsDecimal o n ∧ n < 256 ∧ (o.head? = some '0' → o = ['0'])

/-- `n` groups, written in hexadecimal. -/
def IsGroups (n : ℕ) (s : List Char) : Prop :=
  ∃ gs : List (List Char), gs.length = n ∧ s = List.intercalate [':'] gs ∧ ∀ g ∈ gs, IsHextet g

/-- `n` groups at the end of an address, the last two perhaps as an IPv4 address. -/
def IsLastGroups (n : ℕ) (s : List Char) : Prop :=
  IsGroups n s ∨ ∃ gs quad, gs.length+2 = n ∧ s = List.intercalate [':'] (gs ++ [quad]) ∧
    (∀ g ∈ gs, IsHextet g) ∧ IsDottedQuad quad

/-- The text of an IPv6 address, with all its groups or with `::` for some of them. -/
def IsIpv6Literal (s : List Char) : Prop :=
  IsLastGroups 8 s ∨ ∃ m n front back, s = front ++ [':', ':'] ++ back ∧ m+n ≤ 7 ∧
    IsGroups m front ∧ IsLastGroups n back

/-- `target` is an authority: a host, a colon and a port. The host is a name without colons, or
an IPv6 literal in brackets, which do not belong to `host`. -/
def IsAuthority (target host : String) (port : UInt16) : Prop :=
  ∃ shown digits, target.toList = shown ++ ':' :: digits ∧ IsDecimal digits port.toNat ∧
    (shown ≠ [] ∧ ':' ∉ shown ∧ host.toList = shown ∨
      ∃ literal, IsIpv6Literal literal ∧ shown = '[' :: (literal ++ [']']) ∧
        host.toList = literal)

section Decimal

theorem IsDecimal.ne_nil {s : List Char} {n : ℕ} (h : IsDecimal s n) : s ≠ [] := by
  cases h with
  | digit hc => exact List.cons_ne_nil _ _
  | snoc hs hc => exact List.append_ne_nil_of_right_ne_nil _ (List.cons_ne_nil _ _)

theorem IsDecimal.isDigit {s : List Char} {n : ℕ} (h : IsDecimal s n) :
    ∀ c ∈ s, c.isDigit = true := by
  induction h with
  | digit hc =>
    intro c hmem
    rw [List.mem_singleton.mp hmem]
    exact hc
  | snoc hs hc ih =>
    intro c hmem
    rcases List.mem_append.mp hmem with hmem | hmem
    · exact ih c hmem
    · rw [List.mem_singleton.mp hmem]
      exact hc

/-- The value that `parse` computes from left to right. -/
theorem isDecimal_iff {s : List Char} {n : ℕ} :
    IsDecimal s n ↔ s ≠ [] ∧ (∀ c ∈ s, c.isDigit = true) ∧
      s.foldl (fun n c => 10*n+(c.toNat - '0'.toNat)) 0 = n := by
  constructor
  · intro h
    refine ⟨h.ne_nil, h.isDigit, ?_⟩
    induction h with
    | digit hc => exact Nat.zero_add _
    | snoc hs hc ih => rw [List.foldl_append, ih, List.foldl_cons, List.foldl_nil]
  · rintro ⟨hne, hdigits, rfl⟩
    induction s using List.reverseRecOn with
    | nil => exact absurd rfl hne
    | append_singleton s c ih =>
      have hc := hdigits c (List.mem_append_right _ (List.mem_singleton_self c))
      rw [List.foldl_append, List.foldl_cons, List.foldl_nil]
      rcases eq_or_ne s [] with rfl | hs
      · have hone := IsDecimal.digit hc
        rwa [← Nat.zero_add (c.toNat - '0'.toNat)] at hone
      · exact .snoc (ih hs fun c hmem => hdigits c (List.mem_append_left _ hmem)) hc

end Decimal

theorem splitLastColon_append (host : List Char) {port : List Char} (h : ':' ∉ port) :
    splitLastColon (host ++ ':' :: port) = some (host, port) := by
  have hrev : (host ++ ':' :: port).reverse = port.reverse ++ ':' :: host.reverse := by
    rw [List.reverse_append, List.reverse_cons, List.append_assoc, List.singleton_append]
  have hall : ∀ c ∈ port.reverse, decide (c ≠ ':') = true := by
    intro c hmem
    apply decide_eq_true
    rintro rfl
    exact h (List.mem_reverse.mp hmem)
  rw [splitLastColon, List.span_eq_takeWhile_dropWhile, hrev,
    List.takeWhile_append_of_pos hall, List.dropWhile_append_of_pos hall,
    List.takeWhile_cons_of_neg (by decide), List.dropWhile_cons_of_neg (by decide)]
  simp only [List.append_nil, List.reverse_reverse]

theorem splitLastColon_eq_some_iff {s host port : List Char} :
    splitLastColon s = some (host, port) ↔ s = host ++ ':' :: port ∧ ':' ∉ port := by
  constructor
  · intro h
    have hs := List.takeWhile_append_dropWhile (p := (· ≠ ':')) (l := s.reverse)
    have hhead := List.head?_dropWhile_not (· ≠ ':') s.reverse
    rw [splitLastColon, List.span_eq_takeWhile_dropWhile] at h
    split at h
    · cases h
    · next heq =>
      cases h
      obtain ⟨rfl, hdrop⟩ := Prod.mk.inj heq
      rw [hdrop] at hs hhead
      simp only [List.head?_cons, decide_eq_false_iff_not, not_not] at hhead
      subst hhead
      constructor
      · rw [← List.reverse_inj, List.reverse_append, List.reverse_cons, List.reverse_reverse,
          List.reverse_reverse, List.append_assoc, List.singleton_append]
        exact hs.symm
      · intro hmem
        have hne := List.mem_takeWhile_imp (List.mem_reverse.mp hmem)
        exact absurd rfl (of_decide_eq_true hne)
  · rintro ⟨rfl, hport⟩
    exact splitLastColon_append host hport

/-- The last colon is in one place. -/
theorem lastColon_unique {host host' port port' : List Char}
    (h : host ++ ':' :: port = host' ++ ':' :: port') (hport : ':' ∉ port) (hport' : ':' ∉ port') :
    host = host' ∧ port = port' := by
  have hsplit := splitLastColon_append host' hport'
  rw [← h, splitLastColon_append host hport] at hsplit
  exact Prod.mk.inj (Option.some.inj hsplit)

theorem IsDecimal.not_mem {s : List Char} {n : ℕ} (h : IsDecimal s n) {c : Char}
    (hc : c.isDigit = false) : c ∉ s := by
  intro hmem
  rw [h.isDigit c hmem] at hc
  cases hc

/-- The checks of `parse` after the sign. -/
theorem digits_eq_some_iff {s : List Char} {port : UInt16} :
    (if s ≠ [] ∧ s.all Char.isDigit then
      let n := s.foldl (fun n c => 10*n+(c.toNat - '0'.toNat)) 0
      if n < 2^16 then some n.toUInt16 else none
    else none) = some port ↔ IsDecimal s port.toNat := by
  rw [isDecimal_iff, ← List.all_eq_true]
  constructor
  · intro hsome
    split at hsome
    · next hs =>
      dsimp only at hsome
      split at hsome
      · next hlt =>
        cases hsome
        exact ⟨hs.1, hs.2, (Nat.mod_eq_of_lt hlt).symm⟩
      · cases hsome
    · cases hsome
  · rintro ⟨hne, hall, hn⟩
    rw [if_pos ⟨hne, hall⟩, hn]
    dsimp only
    rw [if_pos port.toNat_lt]
    exact congrArg some UInt16.ofNat_toNat

/-- `parse` accepts a plus sign before the digits. -/
theorem parseU16_eq_some_iff {s : List Char} {port : UInt16} :
    parseU16 s = some port ↔ ∃ sign digits, s = sign ++ digits ∧ (sign = [] ∨ sign = ['+']) ∧
      IsDecimal digits port.toNat := by
  constructor
  · intro h
    unfold parseU16 at h
    split at h
    · exact ⟨['+'], _, rfl, Or.inr rfl, digits_eq_some_iff.mp h⟩
    · exact ⟨[], s, rfl, Or.inl rfl, digits_eq_some_iff.mp h⟩
  · rintro ⟨sign, digits, rfl, rfl | rfl, hdigits⟩
    · have hplus (t : List Char) (ht : digits = '+' :: t) : False := by
        have hmem : '+' ∈ digits := by rw [ht]; exact List.mem_cons_self
        exact hdigits.not_mem (by decide) hmem
      rw [List.nil_append, parseU16]
      · exact digits_eq_some_iff.mpr hdigits
      · exact hplus
    · exact digits_eq_some_iff.mpr hdigits

theorem colon_not_mem {sign digits : List Char} {n : ℕ} (hsign : sign = [] ∨ sign = ['+'])
    (hdigits : IsDecimal digits n) : ':' ∉ sign ++ digits := by
  have hcolon : ':' ∉ digits := hdigits.not_mem (by decide)
  rcases hsign with rfl | rfl
  · exact hcolon
  · intro hmem
    exact hcolon (List.mem_of_ne_of_mem (by decide) hmem)

/-- What `parse_host_port` accepts. -/
theorem parseHostPort_eq_ok_iff {target host : String} {port : UInt16} :
    parseHostPort target = .ok (host, port) ↔
      ∃ sign digits, target.toList = host.toList ++ ':' :: (sign ++ digits) ∧
        (sign = [] ∨ sign = ['+']) ∧ IsDecimal digits port.toNat := by
  constructor
  · intro h
    rw [parseHostPort] at h
    split at h
    · cases h
    · next hsplit =>
      split at h
      · cases h
      · next hparse =>
        cases h
        obtain ⟨sign, digits, rfl, hsign, hdigits⟩ := parseU16_eq_some_iff.mp hparse
        refine ⟨sign, digits, ?_, hsign, hdigits⟩
        rw [String.toList_ofList]
        exact (splitLastColon_eq_some_iff.mp hsplit).1
  · rintro ⟨sign, digits, htarget, hsign, hdigits⟩
    have hsplit := splitLastColon_append host.toList (colon_not_mem hsign hdigits)
    have hparse := parseU16_eq_some_iff.mpr ⟨sign, digits, rfl, hsign, hdigits⟩
    rw [parseHostPort, htarget, hsplit]
    dsimp only
    rw [hparse, String.ofList_toList]

theorem colon_mem_intercalate {gs : List (List Char)} (h : 2 ≤ gs.length) :
    ':' ∈ List.intercalate [':'] gs := by
  match gs, h with
  | a :: b :: gs, _ => simp [List.intercalate]

theorem colon_mem_of_isIpv6Literal {s : List Char} (h : IsIpv6Literal s) : ':' ∈ s := by
  rcases h with (⟨gs, hlen, rfl, -⟩ | ⟨gs, quad, hlen, rfl, -⟩) | ⟨_, _, front, back, rfl, -⟩
  · apply colon_mem_intercalate
    omega
  · apply colon_mem_intercalate
    rw [List.length_append, List.length_singleton]
    omega
  · simp only [List.mem_append, List.mem_cons, true_or, or_true]

theorem isIpv6Literal_loopback : IsIpv6Literal [':', ':', '1'] := by
  have hone : IsHextet ['1'] := by
    refine ⟨by decide, by decide, ?_⟩
    intro c hc
    rw [List.mem_singleton.mp hc]
    exact Or.inl (by decide)
  refine Or.inr ⟨0, 1, [], ['1'], rfl, by decide, ⟨[], rfl, rfl, ?_⟩,
    Or.inl ⟨[['1']], rfl, rfl, ?_⟩⟩
  · exact List.forall_mem_nil _
  · exact List.forall_mem_singleton.mpr hone

/-- The last colon of an authority is the one before the port. -/
theorem IsAuthority.at_lastColon {target host : String} {port : UInt16}
    (h : IsAuthority target host port) (shown rest : List Char)
    (htarget : target.toList = shown ++ ':' :: rest) (hrest : ':' ∉ rest) :
    IsDecimal rest port.toNat ∧
    (shown ≠ [] ∧ ':' ∉ shown ∧ host.toList = shown ∨
      ∃ literal, IsIpv6Literal literal ∧ shown = '[' :: (literal ++ [']']) ∧
        host.toList = literal) := by
  obtain ⟨shown', digits, htarget', hdigits, hhost⟩ := h
  rw [htarget] at htarget'
  obtain ⟨rfl, rfl⟩ := lastColon_unique htarget' hrest (hdigits.not_mem (by decide))
  exact ⟨hdigits, hhost⟩

/-- If the target ends in a colon and a port, then the host before them is not empty and has no
colon, and the port has no sign. -/
def OneColon (target : String) : Prop :=
  ∀ shown sign digits n, target.toList = shown ++ ':' :: (sign ++ digits) →
    (sign = [] ∨ sign = ['+']) → IsDecimal digits n → n < 2^16 →
    shown ≠ [] ∧ ':' ∉ shown ∧ sign = []

theorem OneColon.parseHostPort_iff {target : String} (h : OneColon target) (host : String)
    (port : UInt16) :
    parseHostPort target = .ok (host, port) ↔ IsAuthority target host port := by
  constructor
  · intro hok
    obtain ⟨sign, digits, htarget, hsign, hdigits⟩ := parseHostPort_eq_ok_iff.mp hok
    obtain ⟨hne, hcolon, rfl⟩ := h _ _ _ _ htarget hsign hdigits port.toNat_lt
    exact ⟨_, digits, htarget, hdigits, Or.inl ⟨hne, hcolon, rfl⟩⟩
  · rintro ⟨shown, digits, htarget, hdigits, hhost⟩
    obtain ⟨-, hcolon, -⟩ := h shown [] digits _ htarget (Or.inl rfl) hdigits port.toNat_lt
    rcases hhost with ⟨-, -, hhost⟩ | ⟨literal, hliteral, rfl, -⟩
    · rw [← hhost] at htarget
      exact parseHostPort_eq_ok_iff.mpr ⟨[], digits, htarget, Or.inl rfl, hdigits⟩
    · -- brackets are not taken off, but a literal has colons
      have hmem := colon_mem_of_isIpv6Literal hliteral
      exact absurd (List.mem_cons_of_mem _ (List.mem_append_left _ hmem)) hcolon

/-- `parse_host_port` accepts the authority form and nothing else, except for targets that end in
a colon and a port and have before it an empty host or a colon, or have a sign after it. -/
theorem parseHostPort_exact_iff (target : String) :
    ((∀ host port, parseHostPort target = .ok (host, port) ↔ IsAuthority target host port) ∧
      ((∀ host port, ¬IsAuthority target host port) →
        parseHostPort target = .error (.invalidTarget target))) ↔
    ∀ shown sign digits n, target.toList = shown ++ ':' :: (sign ++ digits) →
      (sign = [] ∨ sign = ['+']) → IsDecimal digits n → n < 2^16 →
      shown ≠ [] ∧ ':' ∉ shown ∧ sign = [] := by
  constructor
  · rintro ⟨hexact, -⟩ shown sign digits n htarget hsign hdigits hlt
    have hport : n = n.toUInt16.toNat := (Nat.mod_eq_of_lt hlt).symm
    have hok : parseHostPort target = .ok (String.ofList shown, n.toUInt16) := by
      apply parseHostPort_eq_ok_iff.mpr
      rw [String.toList_ofList, ← hport]
      exact ⟨sign, digits, htarget, hsign, hdigits⟩
    obtain ⟨hsigned, hhost⟩ := ((hexact _ _).mp hok).at_lastColon _ _ htarget
      (colon_not_mem hsign hdigits)
    rw [String.toList_ofList] at hhost
    rcases hhost with ⟨hne, hcolon, -⟩ | ⟨literal, -, hshown, rfl⟩
    · refine ⟨hne, hcolon, ?_⟩
      rcases hsign with rfl | rfl
      · rfl
      · exact absurd (hsigned.isDigit '+' List.mem_cons_self) (by decide)
    · have hlen := congrArg List.length hshown
      rw [List.length_cons, List.length_append] at hlen
      omega
  · intro h
    have hone : OneColon target := h
    refine ⟨hone.parseHostPort_iff, ?_⟩
    intro hnone
    cases hparse : parseHostPort target with
    | error err => rw [parseHostPort_error hparse]
    | ok hp => exact absurd ((hone.parseHostPort_iff hp.1 hp.2).mp hparse) (hnone hp.1 hp.2)

/-- An empty host, a signed port and an IPv6 address without a port are accepted, and the brackets
of a literal stay on. -/
theorem targets_misread :
    parseHostPort ":443" = .ok ("", 443) ∧ ¬IsAuthority ":443" "" 443 ∧
    parseHostPort "a:+80" = .ok ("a", 80) ∧ ¬IsAuthority "a:+80" "a" 80 ∧
    parseHostPort "::1" = .ok (":", 1) ∧ ¬IsAuthority "::1" ":" 1 ∧
    parseHostPort "[::1]:443" = .ok ("[::1]", 443) ∧ IsAuthority "[::1]:443" "::1" 443 := by
  refine ⟨by decide, ?_, by decide, ?_, by decide, ?_, by decide, ?_⟩
  · intro h
    obtain ⟨-, ⟨hne, -⟩ | ⟨literal, -, hshown, -⟩⟩ :=
      h.at_lastColon [] ['4', '4', '3'] (by decide) (by decide)
    · exact hne rfl
    · cases hshown
  · intro h
    have hsigned := (h.at_lastColon ['a'] ['+', '8', '0'] (by decide)
      (by decide)).1
    exact absurd (hsigned.isDigit '+' List.mem_cons_self) (by decide)
  · intro h
    obtain ⟨-, ⟨-, hcolon, -⟩ | ⟨literal, -, hshown, -⟩⟩ :=
      h.at_lastColon [':'] ['1'] (by decide) (by decide)
    · exact hcolon (List.mem_singleton_self _)
    · cases hshown
  · have hport : IsDecimal ['4', '4', '3'] 443 :=
      isDecimal_iff.mpr ⟨by decide, List.all_eq_true.mp (by decide), rfl⟩
    exact ⟨['[', ':', ':', '1', ']'], ['4', '4', '3'], by decide, hport,
      Or.inr ⟨[':', ':', '1'], isIpv6Literal_loopback, rfl, by decide⟩⟩

end GravitalShare.Http
