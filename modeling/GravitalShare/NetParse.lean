import GravitalShare.DigitText
import GravitalShare.NetDisplay

/-! Internet addresses, read from texts as the standard library of the source does it. -/
namespace GravitalShare.NetParse

/-- A reader takes what it needs off the beginning of a text. -/
abbrev Reader (α : Type) := List Char → Option (α × List Char)

section Readers

def readGivenChar (target : Char) : Reader Unit
  | [] => none
  | c :: s => if c = target then some ((), s) else none

/-- All digits there are. They must be at most `maxDigits`, if there is such a limit, and have a
value below `bound`. -/
def readNumber (radix bound : ℕ) (maxDigits : Option ℕ) (allowZeroPrefix : Bool) : Reader ℕ :=
  fun s =>
    let digits := s.takeWhile fun c => (toDigit radix c).isSome
    let n := digitsValue radix digits
    let hasZeroPrefix := digits.head? = some '0' ∧ 1 < digits.length
    if digits = [] ∨ (∃ m ∈ maxDigits, m < digits.length) ∨
        (allowZeroPrefix = false ∧ hasZeroPrefix) ∨ bound ≤ n then none
    else some (n, s.drop digits.length)

/-- `p`, with a separator before it unless it is the first. -/
def readSeparator {α : Type} (sep : Char) (index : ℕ) (p : Reader α) : Reader α := fun s =>
  if index = 0 then p s else (readGivenChar sep s).bind fun (_, s) => p s

def readOctet : Reader UInt8 := fun s =>
  (readNumber 10 256 (some 3) false s).map fun (n, s) => (UInt8.ofNat n, s)

def readIpv4Addr : Reader Ipv4Addr := fun s => do
  let (a, s) ← readSeparator '.' 0 readOctet s
  let (b, s) ← readSeparator '.' 1 readOctet s
  let (c, s) ← readSeparator '.' 2 readOctet s
  let (d, s) ← readSeparator '.' 3 readOctet s
  return (⟨a, b, c, d⟩, s)

/-- Up to `left` groups of an IPv6 address, the first of them with number `i`, and whether the last
two are an embedded IPv4 address. -/
def readGroups : (left i : ℕ) → List Char → List UInt16 × Bool × List Char
  | 0, _, s => ([], false, s)
  | left+1, i, s =>
    -- an IPv4 address takes two groups
    match if 1 ≤ left then readSeparator ':' i readIpv4Addr s else none with
    | some (ip, s) => ([u16FromBE ip.a ip.b, u16FromBE ip.c ip.d], true, s)
    | none =>
      match readSeparator ':' i (readNumber 16 (2^16) (some 4) true) s with
      | none => ([], false, s)
      | some (group, s) =>
        let (groups, hasIpv4, s) := readGroups left (i+1) s
        (UInt16.ofNat group :: groups, hasIpv4, s)

def ofGroups (groups : List UInt16) : Option Ipv6Addr :=
  if h : (groups.flatMap u16ToBE).length = 16 then some ⟨groups.flatMap u16ToBE, h⟩ else none

def readIpv6Addr : Reader Ipv6Addr := fun s => do
  let (head, headIpv4, s) := readGroups 8 0 s
  if head.length = 8 then
    let ip ← ofGroups head
    return (ip, s)
  else if headIpv4 then none
  else do
    let (_, s) ← readGivenChar ':' s
    let (_, s) ← readGivenChar ':' s
    -- the two colons stand for at least one group
    let (tail, _, s) := readGroups (8-(head.length+1)) 0 s
    let ip ← ofGroups (head ++ List.replicate (8-head.length-tail.length) 0 ++ tail)
    return (ip, s)

def readPort : Reader UInt16 := fun s => do
  let (_, s) ← readGivenChar ':' s
  let (n, s) ← readNumber 10 (2^16) none true s
  return (UInt16.ofNat n, s)

def readScopeId : Reader UInt32 := fun s => do
  let (_, s) ← readGivenChar '%' s
  let (n, s) ← readNumber 10 (2^32) none true s
  return (UInt32.ofNat n, s)

def readSocketAddrV4 : Reader SocketAddr := fun s => do
  let (ip, s) ← readIpv4Addr s
  let (port, s) ← readPort s
  return (.v4 ip port, s)

def readSocketAddrV6 : Reader SocketAddr := fun s => do
  let (_, s) ← readGivenChar '[' s
  let (ip, s) ← readIpv6Addr s
  let (scopeId, s) := (readScopeId s).getD (0, s)
  let (_, s) ← readGivenChar ']' s
  let (port, s) ← readPort s
  return (.v6 ip port 0 scopeId, s)

/-- The reader has to take all of the text. -/
def parseWith {α : Type} (p : Reader α) (s : List Char) : Option α :=
  match p s with
  | some (a, []) => some a
  | _ => none

end Readers

/-- `s.parse::<SocketAddr>()` -/
def socketAddr (s : List Char) : Option SocketAddr :=
  parseWith (fun s => (readSocketAddrV4 s).or (readSocketAddrV6 s)) s

/-- `s.parse::<IpAddr>()` -/
def ipAddr (s : List Char) : Option IpAddr :=
  parseWith (fun s => ((readIpv4Addr s).map fun (ip, s) => (IpAddr.v4 ip, s)).or
    ((readIpv6Addr s).map fun (ip, s) => (IpAddr.v6 ip, s))) s

section Display

/-- A number is read from its decimal digits, up to what is not a digit. -/
theorem readNumber_toDigits {n bound : ℕ} (hn : n < bound) {maxDigits : Option ℕ}
    (hmax : ∀ m ∈ maxDigits, 0 < m ∧ n < 10^m) (allowZeroPrefix : Bool) {rest : List Char}
    (hrest : ∀ c ∈ rest.head?, toDigit 10 c = none) :
    readNumber 10 bound maxDigits allowZeroPrefix (Nat.toDigits 10 n ++ rest) = some (n, rest) := by
  have htake : (Nat.toDigits 10 n ++ rest).takeWhile (fun c => (toDigit 10 c).isSome) =
      Nat.toDigits 10 n := by
    rw [List.takeWhile_append_of_pos fun c hc => by rw [(digit_of_mem_toDigits hc).2.2]; rfl]
    cases rest with
    | nil => exact List.append_nil _
    | cons c rest =>
      rw [List.takeWhile_cons_of_neg (by rw [hrest c rfl]; exact Bool.false_ne_true),
        List.append_nil]
  dsimp only [readNumber]
  rw [htake, digitsValue_toDigits, if_neg, List.drop_left]
  obtain ⟨c, tail, hcons, hzero⟩ := toDigits_cons n
  rintro (hnil | ⟨m, hm, hlong⟩ | ⟨-, hhead, hlong⟩ | hbig)
  · rw [hcons] at hnil
    cases hnil
  · obtain ⟨hpos, hlt⟩ := hmax m hm
    have := (Nat.length_toDigits_le_iff (by decide) hpos).mpr hlt
    omega
  · rw [hcons] at hhead hlong
    rw [(hzero (Option.some.inj hhead)).2, List.length_singleton] at hlong
    omega
  · omega

theorem readOctet_toDigits (b : UInt8) {rest : List Char}
    (hrest : ∀ c ∈ rest.head?, toDigit 10 c = none) :
    readOctet (Nat.toDigits 10 b.toNat ++ rest) = some (b, rest) := by
  have hmax (m : ℕ) (hm : m ∈ some 3) : 0 < m ∧ b.toNat < 10^m := by
    cases hm
    exact ⟨by decide, b.toNat_lt.trans (by decide)⟩
  rw [readOctet, readNumber_toDigits b.toNat_lt hmax false hrest]
  exact congrArg (fun b => some (b, rest)) UInt8.ofNat_toNat

theorem readPort_toDigits (port : UInt16) :
    readPort (':' :: Nat.toDigits 10 port.toNat) = some (port, []) := by
  have hnumber : readNumber 10 (2^16) none true (Nat.toDigits 10 port.toNat) =
      some (port.toNat, []) := by
    have hmax (m : ℕ) (hm : m ∈ (none : Option ℕ)) : 0 < m ∧ port.toNat < 10^m := by cases hm
    have hend (c : Char) (hc : c ∈ ([] : List Char).head?) : toDigit 10 c = none := by cases hc
    have h := readNumber_toDigits port.toNat_lt hmax true hend
    rwa [List.append_nil] at h
  have hport : readPort (':' :: Nat.toDigits 10 port.toNat) =
      (readNumber 10 (2^16) none true (Nat.toDigits 10 port.toNat)).bind
        fun (n, s) => some (UInt16.ofNat n, s) := rfl
  rw [hport, hnumber]
  exact congrArg (fun port => some (port, [])) UInt16.ofNat_toNat

theorem toList_display_v4 (ip : Ipv4Addr) : ip.display.toList =
    Nat.toDigits 10 ip.a.toNat ++ '.' :: (Nat.toDigits 10 ip.b.toNat ++ '.' ::
      (Nat.toDigits 10 ip.c.toNat ++ '.' :: Nat.toDigits 10 ip.d.toNat)) := by
  have hdot : ".".toList = ['.'] := by decide
  have hnat (n : ℕ) : (toString n).toList = Nat.toDigits 10 n := Nat.toList_repr
  rw [Ipv4Addr.display]
  simp only [String.toList_append, hdot, hnat, List.append_assoc, List.cons_append,
    List.nil_append]

theorem readIpv4Addr_display (ip : Ipv4Addr) {rest : List Char}
    (hrest : ∀ c ∈ rest.head?, toDigit 10 c = none) :
    readIpv4Addr (ip.display.toList ++ rest) = some (ip, rest) := by
  have hdot (s : List Char) : ∀ c ∈ ('.' :: s).head?, toDigit 10 c = none := by
    intro c hc
    cases hc
    decide
  have hsep (i : ℕ) (s : List Char) : readSeparator '.' (i+1) readOctet ('.' :: s) =
      readOctet s := rfl
  have hfirst (s : List Char) : readSeparator '.' 0 readOctet s = readOctet s := rfl
  rw [toList_display_v4]
  simp only [List.append_assoc, List.cons_append]
  simp only [readIpv4Addr, hfirst, readOctet_toDigits _ (hdot _), hsep, readOctet_toDigits _ hrest,
    Option.bind_eq_bind, Option.bind_some]
  rfl

theorem toList_display_socket (ip : Ipv4Addr) (port : UInt16) :
    (SocketAddr.v4 ip port).display.toList =
      ip.display.toList ++ ':' :: Nat.toDigits 10 port.toNat := by
  have hcolon : ":".toList = [':'] := by decide
  have hnat : (toString port.toNat).toList = Nat.toDigits 10 port.toNat := Nat.toList_repr
  rw [SocketAddr.display, String.toList_append, String.toList_append, hcolon, hnat,
    List.append_assoc]
  rfl

/-- The text of an IPv4 address and a port denotes them. -/
theorem socketAddr_display_v4 (ip : Ipv4Addr) (port : UInt16) :
    socketAddr (SocketAddr.v4 ip port).display.toList = some (.v4 ip port) := by
  have hstop : ∀ c ∈ (':' :: Nat.toDigits 10 port.toNat).head?, toDigit 10 c = none := by
    intro c hc
    cases hc
    decide
  have hread : readSocketAddrV4 (ip.display.toList ++ ':' :: Nat.toDigits 10 port.toNat) =
      some (.v4 ip port, []) := by
    simp only [readSocketAddrV4, readIpv4Addr_display ip hstop, readPort_toDigits,
      Option.bind_eq_bind, Option.bind_some]
    rfl
  rw [toList_display_socket, socketAddr, parseWith, hread]
  rfl

end Display

end GravitalShare.NetParse
