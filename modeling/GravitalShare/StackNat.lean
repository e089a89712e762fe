import GravitalShare.CyclicCursor
import GravitalShare.FiniteTable
import GravitalShare.Net

/-! The virtual-port table of the userspace stack. -/
namespace GravitalShare.Stack

def basePort : UInt16 := 10000

def portRange : UInt16 := 50000

theorem toNat_basePort : basePort.toNat = 10000 := by decide

theorem toNat_portRange : portRange.toNat = 50000 := by decide

abbrev FiveTuple := SocketAddr × SocketAddr

structure NatTable where
  forward : Table FiveTuple UInt16
  reverse : Table UInt16 FiveTuple
  next : UInt16

namespace NatTable

def new : NatTable where
  forward := ∅
  reverse := ∅
  next := basePort

/-- `BASE_PORT + (next - BASE_PORT + 1) % PORT_RANGE` in checked `u16` arithmetic. -/
def advance (next : UInt16) : Exec UInt16 := do
  let off ← subU16 next basePort
  let off ← addU16 off 1
  addU16 basePort (off%portRange)

/-- The linear scan for a free slot. The source loops without a bound; running out of
`fuel` is a panic of its own. -/
def insertLoop (key : FiveTuple) (start : UInt16) : ℕ → NatTable → Exec (NatTable × Option UInt16)
  | 0, _ => .error .diverged
  | fuel+1, t => do
    let vp := t.next
    -- the cursor moves on before the slot is looked at
    let next ← advance t.next
    if t.reverse.lookup vp = none then
      .ok (⟨t.forward.insert key vp, t.reverse.insert vp key, next⟩, some vp)
    -- a whole round without a free slot: the table is full
    else if next = start then
      .ok (⟨t.forward, t.reverse, next⟩, none)
    else
      insertLoop key start fuel ⟨t.forward, t.reverse, next⟩

def insert (t : NatTable) (src realDst : SocketAddr) : Exec (NatTable × Option UInt16) :=
  match t.forward.lookup (src, realDst) with
  -- a known flow keeps its port
  | some vp => .ok (t, some vp)
  | none => insertLoop (src, realDst) t.next portRange.toNat t

def lookupForward (t : NatTable) (src realDst : SocketAddr) : Option UInt16 :=
  t.forward.lookup (src, realDst)

def lookupReverse (t : NatTable) (vport : UInt16) : Option FiveTuple :=
  t.reverse.lookup vport

-- the cursor stays where it is, so a freed port is not handed out again at once
def removeByVport (t : NatTable) (vport : UInt16) : NatTable :=
  match t.reverse.lookup vport with
  | some key => { t with forward := t.forward.erase key, reverse := t.reverse.erase vport }
  | none => t

def InRange (v : UInt16) : Prop := 10000 ≤ v.toNat ∧ v.toNat < 10000+50000

theorem InRange.ne_zero {v : UInt16} (h : InRange v) : v ≠ 0 := by
  rintro rfl
  exact absurd h.1 (by decide)

/-- What every table built by `new`, `insert` and `removeByVport` satisfies. -/
structure Valid (t : NatTable) : Prop where
  inverse : MutuallyInverse t.forward t.reverse
  ports : ∀ v key, t.reverse.lookup v = some key → InRange v
  cursor : InRange t.next

theorem valid_new : new.Valid where
  inverse := MutuallyInverse.empty
  ports := by
    intro v key h
    rw [show new.reverse = ∅ from rfl, Finmap.lookup_empty] at h
    exact absurd h (by simp)
  cursor := ⟨by decide, by decide⟩

/-- The port the cursor shows after `i` moves from `start`. -/
def portAt (start : UInt16) (i : ℕ) : UInt16 :=
  UInt16.ofNat (cyclic 10000 50000 start.toNat i)

section Cursor

variable {start : UInt16} (hs : InRange start)
include hs

theorem toNat_portAt (i : ℕ) : (portAt start i).toNat = cyclic 10000 50000 start.toNat i := by
  have h := cyclic_lt hs.1 hs.2 i
  rw [portAt, UInt16.toNat_ofNat', Nat.mod_eq_of_lt (by omega)]

theorem portAt_inRange (i : ℕ) : InRange (portAt start i) := by
  rw [InRange, toNat_portAt hs]
  exact ⟨cyclic_ge i, cyclic_lt hs.1 hs.2 i⟩

theorem portAt_zero : portAt start 0 = start := by
  apply UInt16.toNat_inj.mp
  rw [toNat_portAt hs, cyclic_zero hs.1 hs.2]

theorem portAt_eq_start_iff {i : ℕ} (h0 : 0 < i) (hi : i ≤ 50000) :
    portAt start i = start ↔ i = 50000 := by
  rw [← UInt16.toNat_inj, toNat_portAt hs]
  exact cyclic_eq_start_iff hs.1 hs.2 h0 hi

theorem portAt_covers {v : UInt16} (hv : InRange v) : ∃ i < 50000, portAt start i = v := by
  obtain ⟨i, hi, he⟩ := cyclic_covers hs.1 hs.2 hv.1 hv.2
  exact ⟨i, hi, UInt16.toNat_inj.mp ((toNat_portAt hs i).trans he)⟩

/-- The cursor arithmetic stays inside `u16`. -/
theorem advance_portAt (i : ℕ) : advance (portAt start i) = .ok (portAt start (i+1)) := by
  -- the three operations one by one, each with a result below 2^16
  have hr := portAt_inRange hs i
  have hn := cyclic_lt hs.1 hs.2 (i+1)
  have hb := toNat_basePort
  have hle : basePort.toNat ≤ (portAt start i).toNat := hb.trans_le hr.1
  have hsub : subU16 (portAt start i) basePort = .ok (portAt start i-basePort) := if_pos hle
  have hoff : (portAt start i-basePort).toNat = (portAt start i).toNat-10000 := by
    rw [UInt16.toNat_sub_of_le _ _ (UInt16.le_iff_toNat_le.mpr hle), hb]
  have h1 : (1 : UInt16).toNat = 1 := by decide
  have hadd : addU16 (portAt start i-basePort) 1 = .ok (portAt start i-basePort+1) :=
    if_pos (by have := hr.2; omega)
  have hsum : (portAt start i-basePort+1).toNat = (portAt start i).toNat-10000+1 := by
    rw [UInt16.toNat_add, hoff, h1, Nat.mod_eq_of_lt (by have := hr.2; omega)]
  have hmod : ((portAt start i-basePort+1)%portRange).toNat =
      ((portAt start i).toNat-10000+1)%50000 := by
    rw [UInt16.toNat_mod, hsum, toNat_portRange]
  have hlast : addU16 basePort ((portAt start i-basePort+1)%portRange) =
      .ok (basePort+(portAt start i-basePort+1)%portRange) :=
    if_pos (by rw [hb, hmod]; omega)
  simp only [advance, hsub, hadd, hlast, Exec.ok_bind]
  apply congrArg Except.ok
  apply UInt16.toNat_inj.mp
  rw [UInt16.toNat_add, hb, hmod, toNat_portAt hs, cyclic_succ, toNat_portAt hs,
    Nat.mod_eq_of_lt (by omega)]

end Cursor

/-- The first turn of the scan, counted from the cursor, that finds a free port. -/
def firstFree (t : NatTable) : Option ℕ :=
  (List.range' 0 50000).find? fun i => (t.reverse.lookup (portAt t.next i)).isNone

/-- The scan loop, entered at its `j`-th turn. -/
theorem insertLoop_eq {start : UInt16} (hs : InRange start) (key : FiveTuple)
    (f : Table FiveTuple UInt16) (r : Table UInt16 FiveTuple) (fuel j : ℕ)
    (hj : j+fuel = 50000) (hlt : j < 50000) :
    insertLoop key start fuel ⟨f, r, portAt start j⟩ =
      match (List.range' j fuel).find? fun i => (r.lookup (portAt start i)).isNone with
      | some i => .ok (⟨f.insert key (portAt start i), r.insert (portAt start i) key,
          portAt start (i+1)⟩, some (portAt start i))
      | none => .ok (⟨f, r, start⟩, none) := by
  -- turn `j` looks at the `j`-th port, and `j+fuel` is the length of the round throughout
  induction fuel generalizing j with
  | zero => omega
  | succ fuel ih =>
    simp only [insertLoop, advance_portAt hs, Exec.ok_bind, List.range'_succ, List.find?_cons]
    cases hp : r.lookup (portAt start j) with
    | none => simp only [Option.isNone_none, ↓reduceIte]
    | some k =>
      simp only [Option.isNone_some, reduceCtorEq, ↓reduceIte]
      have hend := portAt_eq_start_iff hs (Nat.succ_pos j) hlt
      split_ifs with hst
      · -- the last turn of the round: nothing is left to scan
        obtain rfl : fuel = 0 := by
          have := hend.mp hst
          omega
        simp only [List.range'_zero, List.find?_nil, hst]
      · have hj' : j+1 ≠ 50000 := fun he => hst (hend.mpr he)
        exact ih (j+1) (by omega) (by omega)

theorem insert_of_present {t : NatTable} {src dst : SocketAddr} {vp : UInt16}
    (h : t.forward.lookup (src, dst) = some vp) : t.insert src dst = .ok (t, some vp) := by
  simp only [insert, h]

theorem insert_of_absent {t : NatTable} (ht : InRange t.next) {src dst : SocketAddr}
    (h : t.forward.lookup (src, dst) = none) :
    t.insert src dst =
      match t.firstFree with
      | some i => .ok (⟨t.forward.insert (src, dst) (portAt t.next i),
          t.reverse.insert (portAt t.next i) (src, dst), portAt t.next (i+1)⟩,
          some (portAt t.next i))
      | none => .ok (t, none) := by
  have hloop := insertLoop_eq ht (src, dst) t.forward t.reverse 50000 0 rfl (by decide)
  rw [portAt_zero ht] at hloop
  simp only [insert, h, toNat_portRange]
  exact hloop

theorem firstFree_some {t : NatTable} {i : ℕ} (h : t.firstFree = some i) :
    i < 50000 ∧ t.reverse.lookup (portAt t.next i) = none := by
  constructor
  · have hm := List.mem_of_find?_eq_some h
    rw [List.mem_range'_1] at hm
    omega
  · have hp := List.find?_some (show List.find? _ _ = some i from h)
    exact Option.isNone_iff_eq_none.mp hp

theorem firstFree_none_iff {t : NatTable} (ht : InRange t.next) :
    t.firstFree = none ↔ ∀ v, InRange v → t.reverse.lookup v ≠ none := by
  simp only [firstFree, List.find?_eq_none, List.mem_range'_1, Option.isNone_iff_eq_none]
  constructor
  · -- one round visits every port of the range
    intro h v hv
    obtain ⟨i, hi, rfl⟩ := portAt_covers ht hv
    exact h i ⟨Nat.zero_le i, by omega⟩
  · intro h i _
    exact h _ (portAt_inRange ht i)

/-- Everything `insert` can do on a valid table: it finds the key, allocates a free
port, or finds the table full. -/
theorem insert_cases {t : NatTable} (ht : t.Valid) (src dst : SocketAddr) :
    (∃ vp, t.forward.lookup (src, dst) = some vp ∧ t.insert src dst = .ok (t, some vp)) ∨
    (∃ vp next, t.forward.lookup (src, dst) = none ∧ t.reverse.lookup vp = none ∧
      InRange vp ∧ InRange next ∧ t.insert src dst =
        .ok (⟨t.forward.insert (src, dst) vp, t.reverse.insert vp (src, dst), next⟩, some vp)) ∨
    (t.forward.lookup (src, dst) = none ∧ (∀ v, InRange v → t.reverse.lookup v ≠ none) ∧
      t.insert src dst = .ok (t, none)) := by
  cases hk : t.forward.lookup (src, dst) with
  | some vp => exact Or.inl ⟨vp, rfl, insert_of_present hk⟩
  | none =>
    right
    have hi := insert_of_absent ht.cursor hk
    cases hf : t.firstFree with
    | some i =>
      rw [hf] at hi
      exact Or.inl ⟨portAt t.next i, portAt t.next (i+1), rfl, (firstFree_some hf).2,
        portAt_inRange ht.cursor i, portAt_inRange ht.cursor (i+1), hi⟩
    | none =>
      rw [hf] at hi
      exact Or.inr ⟨rfl, (firstFree_none_iff ht.cursor).mp hf, hi⟩

theorem Valid.insert {t t' : NatTable} (ht : t.Valid) {src dst : SocketAddr} {r : Option UInt16}
    (h : t.insert src dst = .ok (t', r)) : t'.Valid := by
  obtain ⟨vp, _, hi⟩ | ⟨vp, next, hk, hv, hr, hn, hi⟩ | ⟨_, _, hi⟩ := insert_cases ht src dst <;>
    rw [hi] at h <;> cases h
  · exact ht
  · -- neither the key nor the port was in use
    refine ⟨ht.inverse.insert hk hv, ?_, hn⟩
    intro v key hl
    rw [Table.lookup_insert_eq] at hl
    split_ifs at hl with hvv
    · rwa [hvv]
    · exact ht.ports v key hl
  · exact ht

/-- No entry of `t` is missing or different in `t'`. -/
def Extends (t t' : NatTable) : Prop :=
  ∀ v key, t.lookupReverse v = some key → t'.lookupReverse v = some key

theorem insert_some {t t' : NatTable} (ht : t.Valid) {src dst : SocketAddr} {vp : UInt16}
    (h : t.insert src dst = .ok (t', some vp)) :
    t'.Valid ∧ t.Extends t' ∧ t'.lookupReverse vp = some (src, dst) ∧ InRange vp := by
  refine ⟨ht.insert h, ?_⟩
  obtain ⟨v, hk, hi⟩ | ⟨v, next, hk, hv, hr, _, hi⟩ | ⟨_, _, hi⟩ := insert_cases ht src dst <;>
    rw [hi] at h <;> cases h
  · have hrev := (ht.inverse (src, dst) vp).mp hk
    exact ⟨fun _ _ => id, hrev, ht.ports vp _ hrev⟩
  · -- the port was free, so no old entry is overwritten
    refine ⟨?_, Finmap.lookup_insert _, hr⟩
    intro w key hw
    have hne : w ≠ vp := by
      rintro rfl
      rw [lookupReverse, hv] at hw
      exact Option.some_ne_none _ hw.symm
    exact (Finmap.lookup_insert_of_ne _ hne).trans hw

theorem insert_none {t t' : NatTable} (ht : t.Valid) {src dst : SocketAddr}
    (h : t.insert src dst = .ok (t', none)) : t' = t := by
  obtain ⟨v, _, hi⟩ | ⟨v, next, _, _, _, _, hi⟩ | ⟨_, _, hi⟩ := insert_cases ht src dst <;>
    rw [hi] at h <;> cases h
  rfl

theorem lookupReverse_removeByVport (t : NatTable) (v w : UInt16) :
    (t.removeByVport v).lookupReverse w = if w = v then none else t.lookupReverse w := by
  unfold removeByVport lookupReverse
  cases hr : t.reverse.lookup v with
  | some key => exact Table.lookup_erase_eq _ _ _
  | none =>
    split_ifs with hw
    · rw [hw, hr]
    · rfl

theorem lookupForward_removeByVport {t : NatTable} (ht : t.Valid) (v : UInt16)
    (src dst : SocketAddr) :
    (t.removeByVport v).lookupForward src dst =
      if t.lookupForward src dst = some v then none else t.lookupForward src dst := by
  unfold removeByVport lookupForward
  have hinv := ht.inverse (src, dst) v
  cases hr : t.reverse.lookup v with
  | some key =>
    rw [hr] at hinv
    -- the key found under `v` is the only one mapped to it
    simp only [Table.lookup_erase_eq, hinv, Option.some.injEq, eq_comm (a := key)]
  | none =>
    rw [hr] at hinv
    simp only [hinv, reduceCtorEq, ↓reduceIte]

theorem Valid.removeByVport {t : NatTable} (ht : t.Valid) (v : UInt16) :
    (t.removeByVport v).Valid := by
  unfold NatTable.removeByVport
  cases hr : t.reverse.lookup v with
  | some key =>
    refine ⟨ht.inverse.erase hr, ?_, ht.cursor⟩
    intro w key' hl
    rw [Table.lookup_erase_eq] at hl
    split_ifs at hl
    exact ht.ports w key' hl
  | none => exact ht

/-- One operation of the stack on the table. -/
inductive Op where
  | insert (src realDst : SocketAddr)
  | removeByVport (vport : UInt16)

def apply (t : NatTable) : Op → Exec NatTable
  | .insert src realDst => do
    let (t, _) ← t.insert src realDst
    .ok t
  | .removeByVport vport => .ok (t.removeByVport vport)

def run (t : NatTable) : List Op → Exec NatTable
  | [] => .ok t
  | op :: ops => do
    let t ← t.apply op
    run t ops

theorem Valid.apply {t : NatTable} (ht : t.Valid) (op : Op) :
    ∃ t', t.apply op = .ok t' ∧ t'.Valid := by
  cases op with
  | insert src dst =>
    obtain ⟨vp, _, hi⟩ | ⟨vp, next, _, _, _, _, hi⟩ | ⟨_, _, hi⟩ := insert_cases ht src dst <;>
      exact ⟨_, by simp only [NatTable.apply, hi, Exec.ok_bind], ht.insert hi⟩
  | removeByVport v => exact ⟨_, rfl, ht.removeByVport v⟩

/-- No sequence of operations panics or loops, and all of them keep the table valid. -/
theorem Valid.run {t : NatTable} (ht : t.Valid) (ops : List Op) :
    ∃ t', t.run ops = .ok t' ∧ t'.Valid := by
  induction ops generalizing t with
  | nil => exact ⟨t, rfl, ht⟩
  | cons op ops ih =>
    obtain ⟨t₁, h₁, hv₁⟩ := ht.apply op
    obtain ⟨t₂, h₂, hv₂⟩ := ih hv₁
    exact ⟨t₂, by simp only [NatTable.run, h₁, Exec.ok_bind, h₂], hv₂⟩

/-- Whatever the order of insertions and removals, no cursor arithmetic leaves `u16`,
the two maps are inverse to each other with all ports and the cursor in
`[10000, 60000)`, and a removal takes out exactly one pair. -/
theorem nat_table_bijection (ops : List Op) :
    ∃ t, new.run ops = .ok t ∧
      (∀ src dst v, t.lookupForward src dst = some v ↔ t.lookupReverse v = some (src, dst)) ∧
      (∀ k k' v, t.forward.lookup k = some v → t.forward.lookup k' = some v → k = k') ∧
      (∀ k v, t.forward.lookup k = some v → 10000 ≤ v.toNat ∧ v.toNat < 60000) ∧
      (10000 ≤ t.next.toNat ∧ t.next.toNat < 60000) ∧
      (∀ src dst, ∃ res, t.insert src dst = .ok res) ∧
      ∀ v, (t.removeByVport v).next = t.next ∧
        (∀ w, (t.removeByVport v).lookupReverse w =
          if w = v then none else t.lookupReverse w) ∧
        ∀ src dst, (t.removeByVport v).lookupForward src dst =
          if t.lookupForward src dst = some v then none else t.lookupForward src dst := by
  obtain ⟨t, hrun, ht⟩ := valid_new.run ops
  refine ⟨t, hrun, fun src dst v => ht.inverse (src, dst) v,
    fun k k' v => ht.inverse.key_unique, ?_, ht.cursor, ?_, ?_⟩
  · intro k v hk
    exact ht.ports v k ((ht.inverse k v).mp hk)
  · intro src dst
    obtain ⟨vp, _, hi⟩ | ⟨vp, next, _, _, _, _, hi⟩ | ⟨_, _, hi⟩ := insert_cases ht src dst <;>
      exact ⟨_, hi⟩
  · intro v
    refine ⟨?_, lookupReverse_removeByVport t v, lookupForward_removeByVport ht v⟩
    unfold NatTable.removeByVport
    split <;> rfl

/-- More turns than a scan needs change nothing. -/
theorem insertLoop_mono {key : FiveTuple} {start : UInt16} {fuel : ℕ} {t : NatTable}
    {r : NatTable × Option UInt16} (h : insertLoop key start fuel t = .ok r) (k : ℕ) :
    insertLoop key start (fuel+k) t = .ok r := by
  induction fuel generalizing t with
  | zero => cases h
  | succ fuel ih =>
    rw [Nat.succ_add]
    rw [insertLoop] at h ⊢
    obtain ⟨next, hnext, h⟩ := Exec.bind_eq_ok.mp h
    rw [hnext, Exec.ok_bind]
    -- only the last branch goes round again
    split_ifs at h ⊢
    · exact h
    · exact h
    · exact ih h

theorem portAt_one {start : UInt16} (hs : InRange start) (i : ℕ) :
    portAt (portAt start i) 1 = portAt start (i+1) := by
  apply UInt16.toNat_inj.mp
  calc
    _ = 10000+((portAt start i).toNat-10000+1)%50000 := toNat_portAt (portAt_inRange hs i) 1
    _ = cyclic 10000 50000 start.toNat (i+1) := by rw [toNat_portAt hs, cyclic_succ]
    _ = (portAt start (i+1)).toNat := (toNat_portAt hs (i+1)).symm

/-- `vp` is the first free port that a walk from the cursor meets, after `i` moves. -/
structure FirstFree (t : NatTable) (i : ℕ) (vp : UInt16) : Prop where
  turn : i < 50000
  port : vp = portAt t.next i
  free : t.reverse.lookup vp = none
  taken : ∀ j < i, t.reverse.lookup (portAt t.next j) ≠ none

theorem firstFree_spec {t : NatTable} {i : ℕ} (h : t.firstFree = some i) :
    FirstFree t i (portAt t.next i) := by
  obtain ⟨hi, hfree⟩ := firstFree_some h
  refine ⟨hi, rfl, hfree, ?_⟩
  intro j hj hnone
  have hbefore := (List.find?_range'_eq_some.mp h).2.2 j (Nat.zero_le j) hj
  rw [hnone] at hbefore
  cases hbefore

/-- `t'` is `t` with one more pair, and the cursor stands behind its port. -/
structure Added (t t' : NatTable) (key : FiveTuple) (vp : UInt16) : Prop where
  forward : ∀ k, t'.forward.lookup k = if k = key then some vp else t.forward.lookup k
  reverse : ∀ v, t'.reverse.lookup v = if v = vp then some key else t.reverse.lookup v
  next : t'.next = portAt vp 1

theorem insert_adds {t : NatTable} (ht : t.Valid) {src dst : SocketAddr}
    (hk : t.lookupForward src dst = none) (hroom : ∃ v, InRange v ∧ t.lookupReverse v = none) :
    ∃ i vp t', FirstFree t i vp ∧ t.insert src dst = .ok (t', some vp) ∧
      Added t t' (src, dst) vp := by
  have hins := insert_of_absent ht.cursor hk
  cases hf : t.firstFree with
  | none =>
    obtain ⟨v, hv, hfree⟩ := hroom
    exact absurd hfree ((firstFree_none_iff ht.cursor).mp hf v hv)
  | some i =>
    rw [hf] at hins
    refine ⟨i, portAt t.next i, _, firstFree_spec hf, hins, ?_, ?_, ?_⟩
    · intro k
      exact Table.lookup_insert_eq _ _ _ _
    · intro v
      exact Table.lookup_insert_eq _ _ _ _
    · exact (portAt_one ht.cursor i).symm

/-- Nothing is handed out exactly if the key is new and every port is in use. -/
theorem insert_refuses_iff {t : NatTable} (ht : t.Valid) (src dst : SocketAddr) :
    (∃ t', t.insert src dst = .ok (t', none)) ↔
      t.lookupForward src dst = none ∧ ∀ v, InRange v → t.lookupReverse v ≠ none := by
  constructor
  · rintro ⟨t', h⟩
    obtain ⟨vp, -, hi⟩ | ⟨vp, next, -, -, -, -, hi⟩ | ⟨hk, hfull, -⟩ := insert_cases ht src dst
    · rw [hi] at h
      cases h
    · rw [hi] at h
      cases h
    · exact ⟨hk, hfull⟩
  · rintro ⟨hk, hfull⟩
    have hins := insert_of_absent ht.cursor hk
    rw [(firstFree_none_iff ht.cursor).mpr hfull] at hins
    exact ⟨t, hins⟩

theorem scan_ends {t : NatTable} (ht : t.Valid) (src dst : SocketAddr) :
    ∃ r, t.insert src dst = .ok r ∧ (t.lookupForward src dst = none →
      ∀ fuel, 50000 ≤ fuel → insertLoop (src, dst) t.next fuel t = .ok r) := by
  obtain ⟨r, hr⟩ : ∃ r, t.insert src dst = .ok r := by
    obtain ⟨vp, -, hi⟩ | ⟨vp, next, -, -, -, -, hi⟩ | ⟨-, -, hi⟩ := insert_cases ht src dst <;>
      exact ⟨_, hi⟩
  refine ⟨r, hr, ?_⟩
  intro hk fuel hfuel
  obtain ⟨k, rfl⟩ := Nat.exists_eq_add_of_le hfuel
  apply insertLoop_mono
  rw [lookupForward] at hk
  rwa [insert, hk, toNat_portRange] at hr

/-- In every table the stack can build the scan ends within 50000 turns, a known key keeps its
port, a new one gets the first free port from the cursor on, and only a full table refuses. -/
theorem insert_allocates_exactly (ops : List Op) (src dst : SocketAddr) :
    ∃ t, new.run ops = .ok t ∧
      (∃ r, t.insert src dst = .ok r ∧ (t.lookupForward src dst = none →
        ∀ fuel, 50000 ≤ fuel → insertLoop (src, dst) t.next fuel t = .ok r)) ∧
      (∀ vp, t.lookupForward src dst = some vp → t.insert src dst = .ok (t, some vp)) ∧
      (t.lookupForward src dst = none → (∃ v, InRange v ∧ t.lookupReverse v = none) →
        ∃ i vp t', FirstFree t i vp ∧ t.insert src dst = .ok (t', some vp) ∧
          Added t t' (src, dst) vp) ∧
      ((∃ t', t.insert src dst = .ok (t', none)) ↔
        t.lookupForward src dst = none ∧ ∀ v, InRange v → t.lookupReverse v ≠ none) ∧
      ∀ t', t.insert src dst = .ok (t', none) → t' = t := by
  obtain ⟨t, hrun, ht⟩ := valid_new.run ops
  refine ⟨t, hrun, scan_ends ht src dst, ?_, ?_, insert_refuses_iff ht src dst, ?_⟩
  · intro vp hk
    exact insert_of_present hk
  · intro hk hroom
    exact insert_adds ht hk hroom
  · intro t' h
    exact insert_none ht h

end NatTable

end GravitalShare.Stack
