import GravitalShare.Machine
import Mathlib.Data.List.TakeDrop

/-! The two halves of the TUN device. A packet is read into a buffer of fixed size, and the MTU is
checked only when one is written. -/
namespace GravitalShare.Tun

inductive TunError where
  | io
  | packetTooLarge (size : ℕ) (mtu : UInt16)
  deriving DecidableEq, Repr

-- meant to be slightly above the default MTU
def BUF_SIZE : ℕ := 1600

/-- How a turn of the loop around `try_io` ends: the fd was not ready after all, waiting for it or
the system call failed, or the call was done. -/
inductive Turn (α : Type) where
  | wouldBlock
  | failed
  | done (a : α)
  deriving DecidableEq, Repr

-- `none` while the loop goes on
def tryIo {α : Type} : List (Turn α) → Option (Except TunError α)
  | [] => none
  | .wouldBlock :: rest => tryIo rest
  | .failed :: _ => some (.error .io)
  | .done a :: _ => some (.ok a)

/-- The turns are those of a loop that the fd ends with a packet. -/
def TunReader.readPacket (turns : List (Turn Bytes)) : Option (Except TunError Bytes) :=
  (tryIo turns).map fun result => result.map fun pkt =>
    let (n, buf) := readInto (List.replicate BUF_SIZE 0) pkt
    buf.take n

def TunWriter.writePacket (mtu : UInt16) (data : Bytes) (turns : List (Turn Unit)) :
    Option (Except TunError Unit) :=
  if data.length > mtu.toNat then some (.error (.packetTooLarge data.length mtu))
  else tryIo turns

def PacketTooLarge (result : Option (Except TunError Unit)) : Prop :=
  ∃ size mtu, result = some (.error (.packetTooLarge size mtu))

theorem readPacket_eq {turns : List (Turn Bytes)} {pkt : Bytes}
    (h : tryIo turns = some (.ok pkt)) :
    TunReader.readPacket turns = some (.ok (pkt.take BUF_SIZE)) := by
  have htake := take_readInto (List.replicate BUF_SIZE 0) pkt
  rw [List.length_replicate] at htake
  rw [TunReader.readPacket, h, ← htake]
  rfl

theorem readPacket_le {turns : List (Turn Bytes)} {pkt : Bytes}
    (h : TunReader.readPacket turns = some (.ok pkt)) : pkt.length ≤ BUF_SIZE := by
  cases hio : tryIo turns with
  | none =>
    rw [TunReader.readPacket, hio] at h
    cases h
  | some result =>
    cases result with
    | error e =>
      rw [TunReader.readPacket, hio] at h
      cases h
    | ok raw =>
      rw [readPacket_eq hio] at h
      cases h
      exact List.length_take_le _ _

/-- A packet arrives whole exactly if it fits into the buffer. -/
theorem readPacket_whole_iff {turns : List (Turn Bytes)} {pkt : Bytes}
    (h : tryIo turns = some (.ok pkt)) :
    TunReader.readPacket turns = some (.ok pkt) ↔ pkt.length ≤ BUF_SIZE := by
  rw [readPacket_eq h, Option.some.injEq, Except.ok.injEq, List.take_eq_self_iff]

theorem tryIo_not_tooLarge (turns : List (Turn Unit)) : ¬PacketTooLarge (tryIo turns) := by
  rintro ⟨size, mtu, h⟩
  induction turns with
  | nil => cases h
  | cons turn rest ih =>
    cases turn with
    | wouldBlock => exact ih h
    | failed => cases h
    | done a => cases h

theorem writePacket_tooLarge_iff (mtu : UInt16) (data : Bytes) (turns : List (Turn Unit)) :
    PacketTooLarge (TunWriter.writePacket mtu data turns) ↔ mtu.toNat < data.length := by
  by_cases h : data.length > mtu.toNat
  · rw [TunWriter.writePacket, if_pos h]
    exact iff_of_true ⟨_, _, rfl⟩ h
  · rw [TunWriter.writePacket, if_neg h]
    exact iff_of_false (tryIo_not_tooLarge turns) h

/-- With a TUN that takes what it is given, only the size counts. -/
theorem writePacket_ready (mtu : UInt16) (data : Bytes) :
    TunWriter.writePacket mtu data [.done ()] =
      some (if mtu.toNat < data.length then .error (.packetTooLarge data.length mtu)
        else .ok ()) := by
  unfold TunWriter.writePacket
  split_ifs <;> rfl

end GravitalShare.Tun
