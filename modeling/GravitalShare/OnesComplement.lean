import GravitalShare.Machine

/-! One's-complement sums of big-endian 16-bit words, as the checked loops of a
program compute them and as a residue modulo 65535. -/
namespace GravitalShare

/-- The plain sum of the words of `data`; an odd last byte is the high half of a
word whose low half is zero. -/
def wordSum : Bytes → ℕ
  | a :: b :: rest => beWord a b+wordSum rest
  | [tail] => beWord tail 0
  | [] => 0

/-- The representative of `s` modulo 65535 that repeated end-around carry reaches:
zero only for zero. -/
def ocReduce (s : ℕ) : ℕ := if s = 0 then 0 else (s-1)%65535+1

/-- `sum += word` over the exact chunks and then over the odd remainder, in `u32`. -/
def sumWords (sum : ℕ) : Bytes → Exec ℕ
  | a :: b :: rest => do
    let sum ← addU32 sum (beWord a b)
    sumWords sum rest
  | [tail] => addU32 sum (tail.toNat <<< 8)
  | [] => .ok sum

/-- `while sum >> 16 != 0 { sum = (sum & 0xFFFF) + (sum >> 16) }`, at most `fuel` turns. -/
def foldLoop : ℕ → ℕ → Exec ℕ
  | 0, sum => if sum >>> 16 ≠ 0 then .error .diverged else .ok sum
  | fuel+1, sum =>
    if sum >>> 16 ≠ 0 then foldLoop fuel ((sum &&& 0xFFFF)+(sum >>> 16)) else .ok sum

/-- A checksum routine: the words are added to a sum, the carries folded in, the low half
complemented. -/
def checksumFrom (sum : ℕ) (data : Bytes) : Exec UInt16 := do
  let sum ← sumWords sum data
  let sum ← foldLoop sum sum
  .ok (~~~(UInt16.ofNat sum))

/-- The value a correct Internet checksum routine returns on `data`. -/
def ocChecksum (data : Bytes) : UInt16 := UInt16.ofNat (65535-ocReduce (wordSum data))

theorem wordSum_le (data : Bytes) : wordSum data ≤ 65535*((data.length+1)/2) := by
  fun_induction wordSum data with
  | case1 a b rest ih =>
    have hw := beWord_lt a b
    simp only [List.length_cons]
    omega
  | case2 tail =>
    have hw := beWord_lt tail 0
    simp only [List.length_singleton]
    omega
  | case3 => simp

/-- Words do not straddle an even boundary. -/
theorem wordSum_append (xs ys : Bytes) (h : xs.length%2 = 0) :
    wordSum (xs ++ ys) = wordSum xs+wordSum ys := by
  fun_induction wordSum xs with
  | case1 a b rest ih =>
    have hr : rest.length%2 = 0 := by
      simp only [List.length_cons] at h
      omega
    simp only [List.cons_append, wordSum, ih hr]
    omega
  | case2 tail => simp at h
  | case3 => simp

theorem wordSum_u16ToBE (v : UInt16) : wordSum (u16ToBE v) = v.toNat := by
  rw [u16ToBE, wordSum, beWord_u16ToBE, wordSum, Nat.add_zero]

theorem ocReduce_le (s : ℕ) : ocReduce s ≤ 65535 := by
  unfold ocReduce
  split_ifs <;> omega

theorem ocReduce_of_lt {s : ℕ} (h : s < 2^16) : ocReduce s = s := by
  unfold ocReduce
  split_ifs with h0
  · exact h0.symm
  · omega

/-- One end-around carry does not change the residue. -/
theorem ocReduce_carry (s : ℕ) : ocReduce (s%65536+s/65536) = ocReduce s := by
  unfold ocReduce
  split_ifs with h1 h2 h2 <;> omega

theorem ocReduce_of_pos {s : ℕ} (h : 0 < s) : ocReduce s = (s-1)%65535+1 := if_neg h.ne'

/-- Adding the complement of the reduced sum gives all ones. -/
theorem ocReduce_add_complement (s : ℕ) : ocReduce (s+(65535-ocReduce s)) = 65535 := by
  rcases Nat.eq_zero_or_pos s with rfl | hs
  · rfl
  · rw [ocReduce_of_pos hs, ocReduce_of_pos (by omega)]
    omega

theorem sumWords_eq (sum : ℕ) (data : Bytes) (h : sum+wordSum data < 2^32) :
    sumWords sum data = .ok (sum+wordSum data) := by
  fun_induction wordSum data generalizing sum with
  | case1 a b rest ih =>
    -- a partial sum is at most the total, which fits
    have hadd : addU32 sum (beWord a b) = .ok (sum+beWord a b) := if_pos (by omega)
    rw [sumWords, hadd, Exec.ok_bind, ih _ (by omega), Nat.add_assoc]
  | case2 tail =>
    have hw : tail.toNat <<< 8 = beWord tail 0 := by
      simp [beWord, Nat.shiftLeft_eq]
    rw [sumWords, hw]
    exact if_pos h
  | case3 => rfl

/-- The carry loop ends and reaches the reduced sum: each turn replaces `sum` by
something smaller with the same residue. -/
theorem foldLoop_eq (fuel sum : ℕ) (h : sum ≤ fuel) : foldLoop fuel sum = .ok (ocReduce sum) := by
  induction fuel generalizing sum with
  | zero =>
    obtain rfl : sum = 0 := by omega
    rfl
  | succ fuel ih =>
    have hand : sum &&& 0xFFFF = sum%65536 := Nat.and_two_pow_sub_one_eq_mod sum 16
    rw [foldLoop, hand, Nat.shiftRight_eq_div_pow]
    split_ifs with hs
    · rw [ih _ (by omega)]
      exact congrArg Except.ok (ocReduce_carry sum)
    · rw [ocReduce_of_lt (by omega)]

theorem toNat_ocChecksum (data : Bytes) :
    (ocChecksum data).toNat = 65535-ocReduce (wordSum data) := by
  rw [ocChecksum, UInt16.toNat_ofNat']
  omega

/-- Complementing the low half of a folded `u32` is subtraction from all ones. -/
theorem complement_ofNat {r : ℕ} (h : r ≤ 65535) :
    ~~~(UInt16.ofNat r) = UInt16.ofNat (65535-r) := by
  apply UInt16.toNat_inj.mp
  rw [UInt16.toNat_not, UInt16.toNat_ofNat', UInt16.toNat_ofNat']
  have hs : UInt16.size = 65536 := rfl
  omega

theorem checksumFrom_eq {sum : ℕ} {data : Bytes} (h : sum+wordSum data < 2^32) :
    checksumFrom sum data = .ok (UInt16.ofNat (65535-ocReduce (sum+wordSum data))) := by
  simp only [checksumFrom, sumWords_eq _ _ h, foldLoop_eq _ _ (le_refl _), Exec.ok_bind,
    complement_ofNat (ocReduce_le _)]

/-- Up to 131074 bytes the words of a buffer add up inside `u32`. -/
theorem checksumFrom_zero {data : Bytes} (h : data.length ≤ 131074) :
    checksumFrom 0 data = .ok (ocChecksum data) := by
  have hs := wordSum_le data
  rw [checksumFrom_eq (by omega), Nat.zero_add, ocChecksum]

theorem ocChecksum_eq_zero_iff (data : Bytes) :
    ocChecksum data = 0 ↔ ocReduce (wordSum data) = 65535 := by
  have hle := ocReduce_le (wordSum data)
  have h0 : (0 : UInt16).toNat = 0 := by decide
  rw [← UInt16.toNat_inj, toNat_ocChecksum, h0]
  omega

theorem wordSum_writeAt (data : Bytes) (k : ℕ) (x y : UInt8) (hk : k%2 = 0)
    (hl : k+2 ≤ data.length) :
    wordSum (writeAt data k [x, y]) =
      wordSum (data.take k)+beWord x y+wordSum (data.drop (k+2)) := by
  have ht : (data.take k).length = k := by
    rw [List.length_take]
    omega
  simp only [writeAt, List.length_cons, List.length_nil, Nat.zero_add, Nat.reduceAdd]
  rw [List.append_assoc, wordSum_append _ _ (by rw [ht]; exact hk)]
  simp only [List.cons_append, List.nil_append, wordSum]
  omega

/-- Storing the checksum that was taken with a zero in its place makes the whole sum all ones. -/
theorem ocReduce_wordSum_store (data : Bytes) (k : ℕ) (hk : k%2 = 0) (hl : k+2 ≤ data.length) :
    ocReduce (wordSum (writeAt data k
      (u16ToBE (ocChecksum (writeAt data k [0, 0]))))) = 65535 := by
  have hz := wordSum_writeAt data k 0 0 hk hl
  have h0 : beWord 0 0 = 0 := rfl
  set total := wordSum (writeAt data k [0, 0]) with htotal
  rw [u16ToBE, wordSum_writeAt data k _ _ hk hl, beWord_u16ToBE, toNat_ocChecksum, ← htotal]
  -- what is not the checksum word adds up to the sum that was complemented
  have hs : wordSum (data.take k)+(65535-ocReduce total)+wordSum (data.drop (k+2)) =
      total+(65535-ocReduce total) := by
    omega
  rw [hs]
  exact ocReduce_add_complement _

/-- The same when the sum is over a pseudo header and what a packet has from `n` on. -/
theorem ocReduce_pseudo_store {pseudo pkt : Bytes} {n k : ℕ} (hp : pseudo.length%2 = 0)
    (hk : k%2 = 0) (hl : n+k+2 ≤ pkt.length) :
    ocReduce (wordSum (pseudo ++ (writeAt pkt (n+k) (u16ToBE (ocChecksum
      (pseudo ++ (writeAt pkt (n+k) [0, 0]).drop n)))).drop n)) = 65535 := by
  -- the checksum word sits at `k` behind the pseudo header
  have hseg (c : Bytes) (hc : c.length = 2) : pseudo ++ (writeAt pkt (n+k) c).drop n =
      writeAt (pseudo ++ pkt.drop n) (pseudo.length+k) c := by
    rw [drop_writeAt (Nat.le_add_right n k) (by omega), Nat.add_sub_cancel_left, append_writeAt]
  rw [hseg _ (length_u16ToBE _), hseg [0, 0] rfl]
  apply ocReduce_wordSum_store _ _ (by omega)
  rw [List.length_append, List.length_drop]
  omega

end GravitalShare
