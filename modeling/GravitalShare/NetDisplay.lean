import GravitalShare.Net
import Mathlib.Data.List.Basic

/-! The texts of internet addresses, as the standard library of the source displays them. -/
namespace GravitalShare

def Ipv4Addr.display (ip : Ipv4Addr) : String :=
  toString ip.a.toNat ++ "." ++ toString ip.b.toNat ++ "." ++ toString ip.c.toNat ++ "." ++
    toString ip.d.toNat

namespace Ipv6Addr

/-- The segments of an address, from its octets. -/
def segmentsOf : Bytes → List UInt16
  | a :: b :: octets => u16FromBE a b :: segmentsOf octets
  | _ => []

def segments (ip : Ipv6Addr) : List UInt16 := segmentsOf ip.octets

def toIpv4Mapped (ip : Ipv6Addr) : Option Ipv4Addr :=
  if ip.octets.take 12 = [0, 0, 0, 0, 0, 0, 0, 0, 0, 0, 0xff, 0xff] then
    match ip.octets.drop 12 with
    | [a, b, c, d] => some ⟨a, b, c, d⟩
    | _ => none
  else none

structure Span where
  start : ℕ
  len : ℕ
  deriving DecidableEq, Repr

-- one segment of the search for the longest run of zeros, with the run that it is in
def scanZeroes (spans : Span × Span) (segment : UInt16 × ℕ) : Span × Span :=
  if segment.1 = 0 then
    let current : Span :=
      if spans.2.len = 0 then ⟨segment.2, 1⟩ else ⟨spans.2.start, spans.2.len+1⟩
    (if current.len > spans.1.len then current else spans.1, current)
  else (spans.1, ⟨0, 0⟩)

def zeroes (segments : List UInt16) : Span :=
  (segments.zipIdx.foldl scanZeroes (⟨0, 0⟩, ⟨0, 0⟩)).1

/-- A segment in hexadecimal digits. -/
def hex (segment : UInt16) : String := String.ofList (Nat.toDigits 16 segment.toNat)

def fmtSubslice : List UInt16 → String
  | [] => ""
  | first :: tail => hex first ++ String.join (tail.map fun segment => ":" ++ hex segment)

def display (ip : Ipv6Addr) : String :=
  match ip.toIpv4Mapped with
  | some ipv4 => "::ffff:" ++ ipv4.display
  | none =>
    let span := zeroes ip.segments
    if span.len > 1 then
      fmtSubslice (ip.segments.take span.start) ++ "::" ++
        fmtSubslice (ip.segments.drop (span.start+span.len))
    else fmtSubslice ip.segments

end Ipv6Addr

def SocketAddr.display : SocketAddr → String
  | .v4 ip port => ip.display ++ ":" ++ toString port.toNat
  | .v6 ip port _ scopeId =>
    if scopeId = 0 then "[" ++ ip.display ++ "]:" ++ toString port.toNat
    else "[" ++ ip.display ++ "%" ++ toString scopeId.toNat ++ "]:" ++ toString port.toNat

/-- A text in which no quote occurs. -/
def Unquoted (s : String) : Prop := '"' ∉ s.toList

instance (s : String) : Decidable (Unquoted s) := inferInstanceAs (Decidable ('"' ∉ s.toList))

namespace Unquoted

theorem append {s t : String} (hs : Unquoted s) (ht : Unquoted t) : Unquoted (s ++ t) := by
  rw [Unquoted, String.toList_append, List.mem_append, not_or]
  exact ⟨hs, ht⟩

theorem join {l : List String} (h : ∀ s ∈ l, Unquoted s) : Unquoted (String.join l) := by
  rw [Unquoted, String.toList_join, List.mem_flatMap]
  rintro ⟨s, hs, hmem⟩
  exact h s hs hmem

theorem digitChar {n : ℕ} (h : n < 16) : '"' ≠ n.digitChar := by
  revert n
  decide

theorem toDigits {b : ℕ} (hb : 1 < b) (hb' : b ≤ 16) (n : ℕ) : '"' ∉ Nat.toDigits b n := by
  induction n using Nat.strong_induction_on with
  | h n ih =>
    rw [Nat.toDigits_eq_if hb]
    split_ifs with hn
    · rw [List.mem_singleton]
      exact digitChar (by omega)
    · have hmod := Nat.mod_lt n (show 0 < b by omega)
      rw [List.mem_append, List.mem_singleton, not_or]
      exact ⟨ih _ (Nat.div_lt_self (by omega) hb), digitChar (by omega)⟩

theorem ofNat (n : ℕ) : Unquoted (toString n) := by
  rw [Unquoted, Nat.toString_eq_repr, Nat.repr_eq_ofList_toDigits, String.toList_ofList]
  exact toDigits (by decide) (by decide) n

theorem ipv4 (ip : Ipv4Addr) : Unquoted ip.display := by
  have hdot : Unquoted "." := by decide
  exact ((((((ofNat _).append hdot).append (ofNat _)).append hdot).append (ofNat _)).append
    hdot).append (ofNat _)

theorem hex (segment : UInt16) : Unquoted (Ipv6Addr.hex segment) := by
  rw [Unquoted, Ipv6Addr.hex, String.toList_ofList]
  exact toDigits (by decide) (by decide) _

theorem fmtSubslice (chunk : List UInt16) : Unquoted (Ipv6Addr.fmtSubslice chunk) := by
  cases chunk with
  | nil => exact List.not_mem_nil
  | cons first tail =>
    apply (hex first).append
    apply join
    intro s hs
    obtain ⟨segment, -, rfl⟩ := List.mem_map.mp hs
    have hcolon : Unquoted ":" := by decide
    exact hcolon.append (hex segment)

theorem ipv6 (ip : Ipv6Addr) : Unquoted ip.display := by
  rw [Ipv6Addr.display]
  split
  · next ipv4 _ =>
    have hmapped : Unquoted "::ffff:" := by decide
    exact hmapped.append (Unquoted.ipv4 ipv4)
  · dsimp only
    have hgap : Unquoted "::" := by decide
    split_ifs
    · exact ((fmtSubslice _).append hgap).append (fmtSubslice _)
    · exact fmtSubslice _

/-- The text of a socket address has no quotes in it. -/
theorem socketAddr (addr : SocketAddr) : Unquoted addr.display := by
  have hcolon : Unquoted ":" := by decide
  have hopen : Unquoted "[" := by decide
  have hclose : Unquoted "]:" := by decide
  have hscope : Unquoted "%" := by decide
  cases addr with
  | v4 ip port => exact ((ipv4 ip).append hcolon).append (ofNat _)
  | v6 ip port flowinfo scopeId =>
    rw [SocketAddr.display]
    split_ifs
    · exact ((hopen.append (ipv6 ip)).append hclose).append (ofNat _)
    · exact ((((hopen.append (ipv6 ip)).append hscope).append (ofNat _)).append hclose).append
        (ofNat _)

end Unquoted

theorem SocketAddr.display_ne_empty (addr : SocketAddr) : addr.display.toList ≠ [] := by
  have hport (s : String) (port : UInt16) : (s ++ toString port.toNat).toList ≠ [] := by
    rw [String.toList_append, Nat.toString_eq_repr, Nat.repr_eq_ofList_toDigits,
      String.toList_ofList]
    exact List.append_ne_nil_of_right_ne_nil _ Nat.toDigits_ne_nil
  cases addr with
  | v4 ip port => exact hport _ port
  | v6 ip port flowinfo scopeId =>
    rw [SocketAddr.display]
    split_ifs
    · exact hport _ port
    · exact hport _ port

example : (SocketAddr.v6 ⟨[0x20, 0x01, 0x0d, 0xb8, 0, 0, 0, 0, 0, 1, 0, 0, 0, 0, 0, 0], rfl⟩ 443 0
    7).display = "[2001:db8:0:0:1::%7]:443" := by decide

end GravitalShare
