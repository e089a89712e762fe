import GravitalShare.Net
import GravitalShare.Tickets

/-! The identifiers of the udpgw associations, against a ledger of all allocations. -/
namespace GravitalShare.UdpGw

/-- `UdpGwMux`: `next_id` wraps around and does not look at the table. -/
structure UdpGwMux where
  nextId : UInt32
  associations : Table UInt32 SocketAddr

namespace UdpGwMux

def new : UdpGwMux := ⟨1, ∅⟩

def allocateId (m : UdpGwMux) (clientAddr : SocketAddr) : UInt32 × UdpGwMux :=
  -- fetch_add wraps around; insert replaces an entry that is there
  (m.nextId, ⟨m.nextId+1, m.associations.insert m.nextId clientAddr⟩)

def lookup (m : UdpGwMux) (id : UInt32) : Option SocketAddr := m.associations.lookup id

def release (m : UdpGwMux) (id : UInt32) : UdpGwMux :=
  { m with associations := m.associations.erase id }

def activeCount (m : UdpGwMux) : ℕ := m.associations.keys.card

inductive Call where
  | allocateId (clientAddr : SocketAddr)
  | release (id : UInt32)

def call (m : UdpGwMux) : Call → UdpGwMux
  | .allocateId clientAddr => (m.allocateId clientAddr).2
  | .release id => m.release id

/-- A new multiplexer after a sequence of calls. -/
def run (calls : List Call) : UdpGwMux := calls.foldl call new

/-- The identifier of the `n`-th allocation. -/
def idOf (n : ℕ) : UInt32 := UInt32.ofNat (n+1)

def enter (l : Ledger SocketAddr) : Call → Ledger SocketAddr
  | .allocateId clientAddr => l.issue clientAddr
  | .release id => l.retire idOf id

/-- The allocations of a sequence of calls that have not been released. -/
def ledger (calls : List Call) : Ledger SocketAddr := calls.foldl enter .empty

theorem idOf_eq_iff (m n : ℕ) : idOf m = idOf n ↔ m ≡ n [MOD 2^32] := by
  have hsucc : m+1 ≡ n+1 [MOD 2^32] ↔ m ≡ n [MOD 2^32] :=
    ⟨Nat.ModEq.add_right_cancel' 1, Nat.ModEq.add_right 1⟩
  rw [← hsucc, idOf, idOf, ← UInt32.toNat_inj, UInt32.toNat_ofNat', UInt32.toNat_ofNat']
  rfl

theorem run_concat (calls : List Call) (c : Call) : run (calls ++ [c]) = (run calls).call c := by
  simp only [run, List.foldl_append, List.foldl_cons, List.foldl_nil]

theorem ledger_concat (calls : List Call) (c : Call) :
    ledger (calls ++ [c]) = enter (ledger calls) c := by
  simp only [ledger, List.foldl_append, List.foldl_cons, List.foldl_nil]

theorem nextId_run (calls : List Call) : (run calls).nextId = idOf (ledger calls).next := by
  induction calls using List.reverseRecOn with
  | nil => rfl
  | append_singleton calls c ih =>
    rw [run_concat, ledger_concat]
    cases c with
    | allocateId clientAddr =>
      calc (run calls).nextId+1 = idOf (ledger calls).next+1 := by rw [ih]
        _ = idOf ((ledger calls).next+1) := (UInt32.ofNat_add _ 1).symm
    | release id => exact ih

theorem next_ledger_le (calls : List Call) : (ledger calls).next ≤ calls.length := by
  induction calls using List.reverseRecOn with
  | nil => exact le_rfl
  | append_singleton calls c ih =>
    rw [ledger_concat, List.length_append]
    cases c with
    | allocateId clientAddr => exact Nat.succ_le_succ ih
    | release id => exact Nat.le_succ_of_le ih

theorem covers_run (calls : List Call) :
    (ledger calls).Covers idOf (run calls).associations := by
  induction calls using List.reverseRecOn with
  | nil => exact Ledger.Covers.empty
  | append_singleton calls c ih =>
    rw [run_concat, ledger_concat]
    cases c with
    | allocateId clientAddr =>
      have hstep := ih.issue clientAddr
      rw [← nextId_run calls] at hstep
      exact hstep
    | release id => exact ih.retire id

/-- No association is still in use when the `2^32`-th allocation after its own is made. -/
def Rotates (calls : List Call) : Prop :=
  ∀ pre clientAddr post, calls = pre ++ .allocateId clientAddr :: post →
    ∀ e ∈ (ledger pre).live, e.1+2^32 ≠ (ledger pre).next

theorem Rotates.of_append {pre post : List Call} (h : Rotates (pre ++ post)) : Rotates pre := by
  rintro pre' clientAddr post' rfl
  exact h pre' clientAddr (post' ++ post) (by simp only [List.append_assoc, List.cons_append])

/-- Under rotation the table is the ledger, and identifiers are not shared. -/
theorem shown_run {calls : List Call} (h : Rotates calls) :
    (ledger calls).Recent (2^32) ∧ (ledger calls).Shown idOf (run calls).associations := by
  induction calls using List.reverseRecOn with
  | nil => exact ⟨Ledger.Recent.empty, Ledger.Shown.empty⟩
  | append_singleton calls c ih =>
    obtain ⟨hrecent, hshown⟩ := ih h.of_append
    rw [run_concat, ledger_concat]
    cases c with
    | allocateId clientAddr =>
      have hold := h calls clientAddr [] rfl
      have hfree := hrecent.code_free idOf_eq_iff hold hshown.covers
      have hstep := hshown.issue hfree clientAddr
      rw [← nextId_run calls] at hstep
      exact ⟨hrecent.issue (by decide) hold clientAddr, hstep⟩
    | release id => exact ⟨hrecent.retire id, hshown.retire id⟩

/-- Identifiers are unique while they are in use, `lookup` gives the address of the allocation
and `active_count` counts the allocations in use, exactly if the counter never comes round to
an association in use. -/
theorem ids_unique_iff (calls : List Call) :
    (∀ pre post, calls = pre ++ post →
      (∀ clientAddr, post.head? = some (.allocateId clientAddr) →
        ((run pre).allocateId clientAddr).1 = idOf (ledger pre).next ∧
        ((run pre).allocateId clientAddr).1 ∉ (run pre).associations) ∧
      (∀ e ∈ (ledger pre).live, (run pre).lookup (idOf e.1) = some e.2) ∧
      (run pre).activeCount = (ledger pre).live.length) ↔
    ∀ pre clientAddr post, calls = pre ++ .allocateId clientAddr :: post →
      ∀ e ∈ (ledger pre).live, e.1+2^32 ≠ (ledger pre).next := by
  constructor
  · intro h pre clientAddr post heq e he hround
    apply ((h pre _ heq).1 clientAddr rfl).2
    -- the identifier of `e` comes round
    have hsame : idOf e.1 = idOf (ledger pre).next := by
      rw [idOf_eq_iff, ← hround]
      exact (Nat.add_mod_right e.1 (2^32)).symm
    have hid : ((run pre).allocateId clientAddr).1 = idOf e.1 := (nextId_run pre).trans hsame.symm
    rw [hid]
    exact (covers_run pre _).mpr ⟨e, he, rfl⟩
  · rintro h pre post rfl
    have hrot : Rotates (pre ++ post) := h
    obtain ⟨hrecent, hshown⟩ := shown_run hrot.of_append
    refine ⟨?_, hshown.lookup, hshown.card_keys⟩
    intro clientAddr hhead
    obtain ⟨tail, rfl⟩ := List.head?_eq_some_iff.mp hhead
    have hfree := hrecent.code_free idOf_eq_iff (h pre clientAddr tail rfl) hshown.covers
    refine ⟨nextId_run pre, ?_⟩
    rw [← nextId_run pre] at hfree
    exact hfree

section Busy

variable (first other : SocketAddr) (n : ℕ)

/-- A client that stays, and `n` allocations after it. -/
def busy : List Call := .allocateId first :: List.replicate n (.allocateId other)

theorem busy_succ : busy first other (n+1) = busy first other n ++ [.allocateId other] := by
  rw [busy, List.replicate_succ', ← List.cons_append, busy]

theorem ledger_busy : (ledger (busy first other n)).next = n+1 ∧
    (0, first) ∈ (ledger (busy first other n)).live := by
  induction n with
  | zero => exact ⟨rfl, List.mem_singleton_self _⟩
  | succ n ih =>
    rw [busy_succ, ledger_concat]
    exact ⟨congrArg (·+1) ih.1, List.mem_cons_of_mem _ ih.2⟩

theorem rotates_busy (h : n < 2^32) : Rotates (busy first other n) := by
  intro pre clientAddr post heq e _ hround
  have hlen := congrArg List.length heq
  rw [busy, List.length_cons, List.length_replicate, List.length_append, List.length_cons] at hlen
  have hle := next_ledger_le pre
  omega

/-- The allocation that comes `2^32` after the first returns the identifier of the first. -/
theorem busy_taken_over (c : SocketAddr) (h : n+1 = 2^32) :
    (run (busy first other n)).lookup 1 = some first ∧
    ((run (busy first other n)).allocateId c).1 = 1 ∧
    ((run (busy first other n)).allocateId c).2.lookup 1 = some c := by
  obtain ⟨hnext, hmem⟩ := ledger_busy first other n
  have hshown := (shown_run (rotates_busy first other n (by omega))).2
  have hid : (run (busy first other n)).nextId = 1 := by
    rw [nextId_run, hnext, h]
    rfl
  refine ⟨hshown.lookup _ hmem, hid, ?_⟩
  rw [allocateId, lookup, hid]
  exact Finmap.lookup_insert _

end Busy

theorem live_id_taken_over :
    (run (busy (.v4 ⟨10, 0, 0, 2⟩ 5000) (.v4 ⟨10, 0, 0, 3⟩ 6000) (2^32-1))).lookup 1 =
      some (.v4 ⟨10, 0, 0, 2⟩ 5000) ∧
    ((run (busy (.v4 ⟨10, 0, 0, 2⟩ 5000) (.v4 ⟨10, 0, 0, 3⟩ 6000) (2^32-1))).allocateId
      (.v4 ⟨10, 0, 0, 4⟩ 7000)).1 = 1 ∧
    ((run (busy (.v4 ⟨10, 0, 0, 2⟩ 5000) (.v4 ⟨10, 0, 0, 3⟩ 6000) (2^32-1))).allocateId
      (.v4 ⟨10, 0, 0, 4⟩ 7000)).2.lookup 1 = some (.v4 ⟨10, 0, 0, 4⟩ 7000) :=
  busy_taken_over _ _ _ _ rfl

end UdpGwMux

end GravitalShare.UdpGw
