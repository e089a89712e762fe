import Mathlib.Algebra.Group.Nat.Defs
import Mathlib.Data.List.GetD
import Mathlib.Order.Nat
import Mathlib.Tactic.Common

/-! Evaluation of checked machine code on byte buffers. An index or a slice out of
range, an overflow of a fixed-width integer and a loop that outlives its bound are
values of the result type, so that their absence is something to prove. -/
namespace GravitalShare

inductive Panic where
  | outOfBounds
  | overflow
  | assertion
  | unwrapNone
  | diverged
  deriving DecidableEq, Repr

abbrev Exec (α : Type) := Except Panic α

abbrev Bytes := List UInt8

namespace Exec

variable {α β : Type}

@[simp] theorem ok_bind (a : α) (f : α → Exec β) : ((.ok a : Exec α) >>= f) = f a := (rfl)

@[simp] theorem error_bind (e : Panic) (f : α → Exec β) :
    ((.error e : Exec α) >>= f) = .error e := (rfl)

theorem bind_eq_ok {x : Exec α} {f : α → Exec β} {b : β} :
    x >>= f = .ok b ↔ ∃ a, x = .ok a ∧ f a = .ok b := by
  cases x with
  | error e => simp
  | ok a => simp

/-- The computation ends without a panic. -/
def Returns (x : Exec α) : Prop := ∃ a, x = .ok a

theorem returns_ok (a : α) : Returns (.ok a : Exec α) := ⟨a, rfl⟩

theorem returns_bind_iff {x : Exec α} {f : α → Exec β} :
    Returns (x >>= f) ↔ ∃ a, x = .ok a ∧ Returns (f a) := by
  constructor
  · rintro ⟨b, h⟩
    obtain ⟨a, ha, hb⟩ := bind_eq_ok.mp h
    exact ⟨a, ha, b, hb⟩
  · rintro ⟨a, ha, b, hb⟩
    exact ⟨b, bind_eq_ok.mpr ⟨a, ha, hb⟩⟩

theorem not_returns_error (e : Panic) : ¬Returns (.error e : Exec α) := by
  rintro ⟨a, h⟩
  cases h

end Exec

/-- Overwrite the bytes from `off` on by `src`. -/
def writeAt (b : Bytes) (off : ℕ) (src : Bytes) : Bytes :=
  b.take off ++ src ++ b.drop (off+src.length)

/-- A total read, for statements about positions known to be inside the buffer. -/
def byteAt (b : Bytes) (i : ℕ) : UInt8 := b.getD i 0

-- buf[i]
def index (b : Bytes) (i : ℕ) : Exec UInt8 :=
  if i < b.length then .ok (byteAt b i) else .error .outOfBounds

-- &buf[lo..hi]
def slice (b : Bytes) (lo hi : ℕ) : Exec Bytes :=
  if lo ≤ hi ∧ hi ≤ b.length then .ok ((b.take hi).drop lo) else .error .outOfBounds

-- buf[off..off + src.len()].copy_from_slice(src)
def copyAt (b : Bytes) (off : ℕ) (src : Bytes) : Exec Bytes :=
  if off+src.length ≤ b.length then .ok (writeAt b off src) else .error .outOfBounds

-- buf[off..].copy_from_slice(src), which panics unless the lengths agree
def copyRest (b : Bytes) (off : ℕ) (src : Bytes) : Exec Bytes :=
  if off+src.length = b.length then .ok (writeAt b off src) else .error .outOfBounds

/-- `read` or `recv` of one datagram into `buf`: what does not fit is lost. It yields the number of
bytes and the buffer. -/
def readInto (buf datagram : Bytes) : ℕ × Bytes :=
  let n := min datagram.length buf.length
  (n, writeAt buf 0 (datagram.take n))

def debugAssert (p : Prop) [Decidable p] : Exec Unit :=
  if p then .ok () else .error .assertion

def addU16 (a b : UInt16) : Exec UInt16 :=
  if a.toNat+b.toNat < 2^16 then .ok (a+b) else .error .overflow

def subU16 (a b : UInt16) : Exec UInt16 :=
  if b.toNat ≤ a.toNat then .ok (a-b) else .error .overflow

-- u32 accumulators are kept as naturals below 2^32
def addU32 (a b : ℕ) : Exec ℕ :=
  if a+b < 2^32 then .ok (a+b) else .error .overflow

def subUsize (a b : ℕ) : Exec ℕ :=
  if b ≤ a then .ok (a-b) else .error .overflow

-- u16::from_be_bytes([hi, lo]), as a number
def beWord (hi lo : UInt8) : ℕ := hi.toNat*256+lo.toNat

def u16FromBE (hi lo : UInt8) : UInt16 := UInt16.ofNat (beWord hi lo)

def u16ToBE (v : UInt16) : Bytes := [UInt8.ofNat (v.toNat/256), UInt8.ofNat (v.toNat%256)]

theorem beWord_lt (hi lo : UInt8) : beWord hi lo < 2^16 := by
  have h1 := hi.toNat_lt
  have h2 := lo.toNat_lt
  unfold beWord
  omega

@[simp] theorem length_u16ToBE (v : UInt16) : (u16ToBE v).length = 2 := rfl

theorem beWord_u16ToBE (v : UInt16) :
    beWord (UInt8.ofNat (v.toNat/256)) (UInt8.ofNat (v.toNat%256)) = v.toNat := by
  have h := v.toNat_lt
  simp only [beWord, UInt8.toNat_ofNat']
  omega

theorem u16FromBE_u16ToBE (v : UInt16) :
    u16FromBE (byteAt (u16ToBE v) 0) (byteAt (u16ToBE v) 1) = v := by
  change u16FromBE (UInt8.ofNat (v.toNat/256)) (UInt8.ofNat (v.toNat%256)) = v
  rw [u16FromBE, beWord_u16ToBE, UInt16.ofNat_toNat]

-- u32::from_be_bytes([b0, b1, b2, b3])
def u32FromBE (b0 b1 b2 b3 : UInt8) : UInt32 := UInt32.ofNat (beWord b0 b1*65536+beWord b2 b3)

def u32ToBE (v : UInt32) : Bytes :=
  [UInt8.ofNat (v.toNat/16777216), UInt8.ofNat (v.toNat/65536%256), UInt8.ofNat (v.toNat/256%256),
    UInt8.ofNat (v.toNat%256)]

theorem u16ToBE_cases (v : UInt16) : ∃ hi lo, u16ToBE v = [hi, lo] ∧ u16FromBE hi lo = v :=
  ⟨_, _, rfl, u16FromBE_u16ToBE v⟩

theorem u32ToBE_cases (v : UInt32) :
    ∃ b0 b1 b2 b3, u32ToBE v = [b0, b1, b2, b3] ∧ u32FromBE b0 b1 b2 b3 = v := by
  refine ⟨_, _, _, _, rfl, ?_⟩
  have h := v.toNat_lt
  have hv : beWord (UInt8.ofNat (v.toNat/16777216)) (UInt8.ofNat (v.toNat/65536%256))*65536+
      beWord (UInt8.ofNat (v.toNat/256%256)) (UInt8.ofNat (v.toNat%256)) = v.toNat := by
    simp only [beWord, UInt8.toNat_ofNat']
    omega
  rw [u32FromBE, hv, UInt32.ofNat_toNat]

theorem u32ToBE_u32FromBE (b0 b1 b2 b3 : UInt8) :
    u32ToBE (u32FromBE b0 b1 b2 b3) = [b0, b1, b2, b3] := by
  have h0 := b0.toNat_lt
  have h1 := b1.toNat_lt
  have h2 := b2.toNat_lt
  have h3 := b3.toNat_lt
  have hv : (u32FromBE b0 b1 b2 b3).toNat = beWord b0 b1*65536+beWord b2 b3 := by
    rw [u32FromBE, UInt32.toNat_ofNat', Nat.mod_eq_of_lt]
    unfold beWord
    omega
  have hb (b : UInt8) (n : ℕ) (hn : n = b.toNat) : UInt8.ofNat n = b := by
    rw [hn, UInt8.ofNat_toNat]
  simp only [u32ToBE, hv, beWord]
  rw [hb b0 _ (by omega), hb b1 _ (by omega), hb b2 _ (by omega), hb b3 _ (by omega)]

theorem toNat_u16FromBE (hi lo : UInt8) : (u16FromBE hi lo).toNat = beWord hi lo := by
  rw [u16FromBE, UInt16.toNat_ofNat', Nat.mod_eq_of_lt (beWord_lt hi lo)]

theorem u16ToBE_u16FromBE (hi lo : UInt8) : u16ToBE (u16FromBE hi lo) = [hi, lo] := by
  have h1 := hi.toNat_lt
  have h2 := lo.toNat_lt
  have hb (b : UInt8) (n : ℕ) (hn : n = b.toNat) : UInt8.ofNat n = b := by
    rw [hn, UInt8.ofNat_toNat]
  simp only [u16ToBE, toNat_u16FromBE, beWord]
  rw [hb hi _ (by omega), hb lo _ (by omega)]

theorem length_writeAt {b src : Bytes} {off : ℕ} (h : off+src.length ≤ b.length) :
    (writeAt b off src).length = b.length := by
  simp only [writeAt, List.length_append, List.length_take, List.length_drop]
  omega

/-- Reading back through a write: the written window shows `src`, every other
position is untouched. -/
theorem byteAt_writeAt {b src : Bytes} {off : ℕ} (h : off+src.length ≤ b.length) (i : ℕ) :
    byteAt (writeAt b off src) i =
      if off ≤ i ∧ i < off+src.length then byteAt src (i-off) else byteAt b i := by
  have ht : (b.take off).length = off := by
    rw [List.length_take]
    omega
  simp only [byteAt, List.getD_eq_getElem?_getD, writeAt]
  split_ifs with hi
  · rw [List.append_assoc, List.getElem?_append_right (by omega), ht,
      List.getElem?_append_left (by omega)]
  · by_cases hlt : i < off
    · rw [List.append_assoc, List.getElem?_append_left (by omega), List.getElem?_take_of_lt hlt]
    · have hoff : off+src.length+(i-(off+src.length)) = i := by omega
      rw [List.getElem?_append_right (by rw [List.length_append, ht]; omega),
        List.length_append, ht, List.getElem?_drop, hoff]

theorem byteAt_writeAt_outside {b src : Bytes} {off i : ℕ} (h : off+src.length ≤ b.length)
    (hi : i < off ∨ off+src.length ≤ i) : byteAt (writeAt b off src) i = byteAt b i := by
  rw [byteAt_writeAt h, if_neg (by omega)]

/-- A buffer is determined by its length and its bytes. -/
theorem bytes_ext {b c : Bytes} (hl : b.length = c.length)
    (h : ∀ i < b.length, byteAt b i = byteAt c i) : b = c := by
  apply List.ext_getElem hl
  intro i hb hc
  have hi := h i hb
  simpa only [byteAt, List.getD_eq_getElem _ _ hb, List.getD_eq_getElem _ _ hc] using hi

theorem byteAt_take {b : Bytes} {n i : ℕ} (h : i < n) : byteAt (b.take n) i = byteAt b i := by
  simp only [byteAt, List.getD_eq_getElem?_getD, List.getElem?_take_of_lt h]

theorem byteAt_drop (b : Bytes) (n i : ℕ) : byteAt (b.drop n) i = byteAt b (n+i) := by
  simp only [byteAt, List.getD_eq_getElem?_getD, List.getElem?_drop]

/-- A write inside a prefix commutes with taking the prefix. -/
theorem take_writeAt {b src : Bytes} {off n : ℕ} (h : off+src.length ≤ n) (hn : n ≤ b.length) :
    (writeAt b off src).take n = writeAt (b.take n) off src := by
  have hl : (b.take n).length = n := List.length_take_of_le hn
  have hw : (writeAt b off src).length = b.length := length_writeAt (h.trans hn)
  apply bytes_ext
  · rw [List.length_take, hw, length_writeAt (by omega), hl]
    omega
  · intro i hi
    have hin : i < n := by
      rw [List.length_take] at hi
      omega
    rw [byteAt_take hin, byteAt_writeAt (h.trans hn), byteAt_writeAt (by omega), byteAt_take hin]

/-- A write inside a suffix commutes with dropping what precedes it. -/
theorem drop_writeAt {b src : Bytes} {off n : ℕ} (hn : n ≤ off) (h : off+src.length ≤ b.length) :
    (writeAt b off src).drop n = writeAt (b.drop n) (off-n) src := by
  have hl : (b.drop n).length = b.length-n := List.length_drop
  have hsrc : off-n+src.length ≤ (b.drop n).length := by omega
  apply bytes_ext
  · rw [List.length_drop, length_writeAt h, length_writeAt hsrc, hl]
  · intro i hi
    rw [byteAt_drop, byteAt_writeAt h, byteAt_writeAt hsrc, byteAt_drop]
    have he : n+i-off = i-(off-n) := by omega
    split_ifs with h1 h2 h2
    · rw [he]
    · omega
    · omega
    · rfl

theorem append_writeAt (xs b src : Bytes) (off : ℕ) :
    xs ++ writeAt b off src = writeAt (xs ++ b) (xs.length+off) src := by
  simp only [writeAt, List.take_length_add_append, Nat.add_assoc, List.drop_length_add_append,
    List.append_assoc]

/-- A later write of the same window wins. -/
theorem writeAt_writeAt {b x y : Bytes} {off : ℕ} (h : off+x.length ≤ b.length)
    (hxy : x.length = y.length) : writeAt (writeAt b off x) off y = writeAt b off y := by
  have hl := length_writeAt h
  apply bytes_ext
  · rw [length_writeAt (by omega), hl, length_writeAt (by omega)]
  · intro i _
    rw [byteAt_writeAt (by omega), byteAt_writeAt h, byteAt_writeAt (by omega), hxy]
    split_ifs <;> rfl

/-- Two neighbouring bytes stored one after the other. -/
theorem writeAt_pair {b : Bytes} {off : ℕ} {x y : UInt8} (h : off+2 ≤ b.length) :
    writeAt (writeAt b off [x]) (off+1) [y] = writeAt b off [x, y] := by
  have hx : off+[x].length ≤ b.length := by
    rw [List.length_singleton]
    omega
  have hl := length_writeAt hx
  have hy : off+1+[y].length ≤ (writeAt b off [x]).length := by
    rw [hl]
    exact h
  apply bytes_ext
  · rw [length_writeAt hy, hl, length_writeAt (by exact h)]
  · intro i _
    rw [byteAt_writeAt hy, byteAt_writeAt hx, byteAt_writeAt (by exact h)]
    simp only [List.length_cons, List.length_nil, Nat.zero_add]
    -- the window has two positions; both sides are checked on each of them
    rcases Nat.lt_trichotomy i off with hi | hi | hi
    · rw [if_neg (by omega), if_neg (by omega), if_neg (by omega)]
    · subst hi
      rw [if_neg (by omega), if_pos (by omega), if_pos (by omega), Nat.sub_self]
      rfl
    · by_cases h1 : i = off+1
      · subst h1
        rw [if_pos (by omega), if_pos (by omega), Nat.sub_self, Nat.add_sub_cancel_left]
        rfl
      · rw [if_neg (by omega), if_neg (by omega), if_neg (by omega)]

/-- `buf.truncate(n)` after the read leaves the beginning of the datagram. -/
theorem take_readInto (buf datagram : Bytes) :
    (readInto buf datagram).2.take (readInto buf datagram).1 = datagram.take buf.length := by
  have hlen : (datagram.take (min datagram.length buf.length)).length =
      min datagram.length buf.length := by
    rw [List.length_take]
    omega
  rw [readInto, writeAt, List.take_zero, List.nil_append, List.take_left' hlen]
  rcases Nat.le_total datagram.length buf.length with h | h
  · rw [Nat.min_eq_left h, List.take_length, List.take_of_length_le h]
  · rw [Nat.min_eq_right h]

theorem length_readInto (buf datagram : Bytes) : (readInto buf datagram).2.length = buf.length := by
  apply length_writeAt
  rw [List.length_take]
  omega

theorem copyAt_eq {b src : Bytes} {off : ℕ} (h : off+src.length ≤ b.length) :
    copyAt b off src = .ok (writeAt b off src) := if_pos h

-- buf[off] = 0; buf[off + 1] = 0
theorem copyAt_zeros {b : Bytes} {off : ℕ} (h : off+2 ≤ b.length) :
    (do let b ← copyAt b off [0]; copyAt b (off+1) [0]) = .ok (writeAt b off [0, 0]) := by
  have h1 : off+[(0 : UInt8)].length ≤ b.length := by
    rw [List.length_singleton]
    omega
  have h2 : off+1+[(0 : UInt8)].length ≤ (writeAt b off [0]).length := by
    rw [length_writeAt h1]
    exact h
  rw [copyAt_eq h1, Exec.ok_bind, copyAt_eq h2, writeAt_pair h]

/-- The word that a cleared field gets. -/
theorem copyAt_store {b : Bytes} {off : ℕ} (h : off+2 ≤ b.length) (v : UInt16) :
    copyAt (writeAt b off [0, 0]) off (u16ToBE v) = .ok (writeAt b off (u16ToBE v)) := by
  have hz : off+[(0 : UInt8), 0].length ≤ b.length := h
  rw [copyAt_eq (by rw [length_writeAt hz]; exact h), writeAt_writeAt hz (by rfl)]

theorem copyAt_ok {b src c : Bytes} {off : ℕ} (h : copyAt b off src = .ok c) :
    off+src.length ≤ b.length ∧ c = writeAt b off src := by
  unfold copyAt at h
  split_ifs at h with hl
  exact ⟨hl, (Except.ok.inj h).symm⟩

theorem copyRest_eq {b src : Bytes} {off : ℕ} (h : off+src.length = b.length) :
    copyRest b off src = .ok (writeAt b off src) := if_pos h

theorem copyRest_ok {b src c : Bytes} {off : ℕ} (h : copyRest b off src = .ok c) :
    off+src.length = b.length := by
  unfold copyRest at h
  split_ifs at h with hl
  exact hl

theorem slice_eq {b : Bytes} {lo hi : ℕ} (h : lo ≤ hi) (h' : hi ≤ b.length) :
    slice b lo hi = .ok ((b.take hi).drop lo) := if_pos ⟨h, h'⟩

theorem slice_returns_iff (b : Bytes) (lo hi : ℕ) :
    Exec.Returns (slice b lo hi) ↔ lo ≤ hi ∧ hi ≤ b.length := by
  by_cases h : lo ≤ hi ∧ hi ≤ b.length
  · rw [slice_eq h.1 h.2]
    exact iff_of_true (Exec.returns_ok _) h
  · have hs : slice b lo hi = .error .outOfBounds := if_neg h
    rw [hs]
    exact iff_of_false (Exec.not_returns_error _) h

/-- A slice is contiguous: it is the beginning of what follows `lo`. -/
theorem slice_isPrefix (b : Bytes) (lo hi : ℕ) : (b.take hi).drop lo <+: b.drop lo := by
  rw [List.drop_take]
  exact List.take_prefix _ _

theorem byteAt_slice {b : Bytes} {lo hi i : ℕ} (h : lo+i < hi) :
    byteAt ((b.take hi).drop lo) i = byteAt b (lo+i) := by
  rw [byteAt_drop, byteAt_take h]

/-- A slice of a slice is a slice. -/
theorem slice_slice {b : Bytes} {lo hi hi' : ℕ} (lo' : ℕ) (h : lo+hi' ≤ hi) :
    (((b.take hi).drop lo).take hi').drop lo' = (b.take (lo+hi')).drop (lo+lo') := by
  rw [List.take_drop, List.take_take, Nat.min_eq_left h, List.drop_drop]

theorem length_slice {b : Bytes} {hi : ℕ} (lo : ℕ) (h : hi ≤ b.length) :
    ((b.take hi).drop lo).length = hi-lo := by
  rw [List.length_drop, List.length_take, Nat.min_eq_left h]

/-- Two buffers of one length that agree on a window have the same slice there. -/
theorem slice_congr {p q : Bytes} (lo : ℕ) {hi : ℕ} (hp : hi ≤ p.length) (hl : p.length = q.length)
    (h : ∀ i, lo ≤ i → i < hi → byteAt p i = byteAt q i) :
    (p.take hi).drop lo = (q.take hi).drop lo := by
  apply bytes_ext
  · simp only [List.length_drop, List.length_take, hl]
  · intro i hi'
    simp only [List.length_drop, List.length_take] at hi'
    rw [byteAt_drop, byteAt_drop, byteAt_take (by omega), byteAt_take (by omega)]
    exact h (lo+i) (by omega) (by omega)

@[simp] theorem index_cons_zero (x : UInt8) (b : Bytes) : index (x :: b) 0 = .ok x :=
  if_pos (Nat.zero_lt_succ _)

@[simp] theorem index_cons_succ (x : UInt8) (b : Bytes) (i : ℕ) :
    index (x :: b) (i+1) = index b i := by
  simp only [index, byteAt, List.length_cons, Nat.add_lt_add_iff_right, List.getD_cons_succ]

/-- Positions behind a part of known length are positions in the rest. -/
theorem index_append (xs b : Bytes) (i : ℕ) : index (xs ++ b) (xs.length+i) = index b i := by
  have hb : byteAt (xs ++ b) (xs.length+i) = byteAt b i := by
    rw [byteAt, List.getD_append_right _ _ _ _ (Nat.le_add_right _ _), Nat.add_sub_cancel_left,
      byteAt]
  simp only [index, hb, List.length_append, Nat.add_lt_add_iff_left]

/-- The first position behind a part. -/
theorem index_behind (xs : Bytes) (x : UInt8) (b : Bytes) :
    index (xs ++ x :: b) xs.length = .ok x := by
  have h := index_append xs (x :: b) 0
  rwa [Nat.add_zero, index_cons_zero] at h

theorem slice_append (xs b : Bytes) (lo hi : ℕ) :
    slice (xs ++ b) (xs.length+lo) (xs.length+hi) = slice b lo hi := by
  simp only [slice, List.length_append, Nat.add_le_add_iff_left, List.take_length_add_append,
    List.drop_length_add_append]

/-- The slice of what stands between two parts. -/
theorem slice_between (xs b rest : Bytes) :
    slice (xs ++ (b ++ rest)) xs.length (xs.length+b.length) = .ok b := by
  have hs := slice_append xs (b ++ rest) 0 b.length
  rw [Nat.add_zero, slice_eq (Nat.zero_le _) (by rw [List.length_append]; omega),
    List.take_left] at hs
  exact hs

theorem index_eq {b : Bytes} {i : ℕ} (h : i < b.length) : index b i = .ok (byteAt b i) := if_pos h

end GravitalShare
