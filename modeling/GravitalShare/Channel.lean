import Mathlib.Data.List.Basic
import Mathlib.Data.Nat.Notation
import Mathlib.Tactic.Common

/-! Channels as an asynchronous runtime provides them: a bounded queue with one sending
and one receiving side, and a channel that keeps only the latest value. -/
namespace GravitalShare

structure Chan (α : Type) where
  cap : ℕ
  queue : List α
  sender : Bool
  receiver : Bool
  bounded : queue.length ≤ cap

namespace Chan

variable {α : Type}

def new (α : Type) (cap : ℕ) : Chan α := ⟨cap, [], true, true, Nat.zero_le _⟩

def push (c : Chan α) (x : α) (h : c.queue.length < c.cap) : Chan α :=
  { c with
    queue := c.queue ++ [x]
    bounded := by
      rw [List.length_append, List.length_singleton]
      exact h }

/-- A send that does not wait; the flag tells whether the value was accepted. -/
def trySend (c : Chan α) (x : α) : Bool × Chan α :=
  if h : c.receiver = true ∧ c.queue.length < c.cap then (true, c.push x h.2) else (false, c)

def tryRecv (c : Chan α) : Option (α × Chan α) :=
  match h : c.queue with
  | [] => none
  | x :: rest =>
    some (x, { c with
      queue := rest
      bounded := by
        have hb := c.bounded
        rw [h, List.length_cons] at hb
        omega })

def dropSender (c : Chan α) : Chan α := { c with sender := false }

-- values still queued go down with the receiver
def dropReceiver (c : Chan α) : Chan α :=
  { c with queue := [], receiver := false, bounded := Nat.zero_le _ }

/-- As the receiving side sees it. -/
def isClosed (c : Chan α) : Bool := !c.sender

theorem queue_push (c : Chan α) (x : α) (h : c.queue.length < c.cap) :
    (c.push x h).queue = c.queue ++ [x] := rfl

theorem trySend_of_room {c : Chan α} (h : c.receiver = true ∧ c.queue.length < c.cap) (x : α) :
    c.trySend x = (true, c.push x h.2) := dif_pos h

theorem trySend_of_full {c : Chan α} (h : ¬(c.receiver = true ∧ c.queue.length < c.cap)) (x : α) :
    c.trySend x = (false, c) := dif_neg h

theorem receiver_trySend (c : Chan α) (x : α) : (c.trySend x).2.receiver = c.receiver := by
  unfold trySend
  split <;> rfl

theorem sender_trySend (c : Chan α) (x : α) : (c.trySend x).2.sender = c.sender := by
  unfold trySend
  split <;> rfl

theorem queue_trySend (c : Chan α) (x : α) : (c.trySend x).2.queue =
    c.queue ++ if c.receiver = true ∧ c.queue.length < c.cap then [x] else [] := by
  unfold trySend
  split
  · rfl
  · exact (List.append_nil _).symm

theorem tryRecv_eq_none {c : Chan α} : c.tryRecv = none ↔ c.queue = [] := by
  unfold tryRecv
  split <;> simp_all

/-- A received value is the oldest one; nothing else about the channel changes. -/
theorem tryRecv_eq_some {c c' : Chan α} {x : α} (h : c.tryRecv = some (x, c')) :
    c.queue = x :: c'.queue ∧ c'.cap = c.cap ∧ c'.sender = c.sender ∧
      c'.receiver = c.receiver := by
  unfold tryRecv at h
  split at h
  · cases h
  · rename_i y rest hq
    cases h
    exact ⟨hq, rfl, rfl, rfl⟩

end Chan

/-- The latest value and how often it was replaced. A receiver is the version it has seen,
and waits for a later one. -/
structure Watch (α : Type) where
  value : α
  version : ℕ

/-- The value is replaced only while some receiver is alive. -/
def Watch.send {α : Type} (w : Watch α) (alive : Bool) (x : α) : Watch α :=
  if alive then ⟨x, w.version+1⟩ else w

end GravitalShare
