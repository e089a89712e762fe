import GravitalShare.DigitText

/-! Texts, as the standard library of Kotlin treats them. -/
namespace GravitalShare.KotlinText

section Lines

def isWhitespace (c : Char) : Bool :=
  let n := c.toNat
  (9 ≤ n && n ≤ 13) || (28 ≤ n && n ≤ 32) || n = 0xA0 || n = 0x1680 ||
    (0x2000 ≤ n && n ≤ 0x200A) || n = 0x2028 || n = 0x2029 || n = 0x202F || n = 0x205F || n = 0x3000

def isBlank (s : List Char) : Bool := s.all isWhitespace

/-- The lines of a text of which `acc` has been read since the last line break. -/
def linesFrom (acc : List Char) : List Char → List (List Char)
  | [] => [acc]
  | '\r' :: '\n' :: s => acc :: linesFrom [] s
  | c :: s =>
    if c = '\n' ∨ c = '\r' then acc :: linesFrom [] s else linesFrom (acc ++ [c]) s

def lines (s : List Char) : List (List Char) := linesFrom [] s

def indentWidth (line : List Char) : ℕ := (line.takeWhile isWhitespace).length

/-- Takes away the indentation that all lines with text have in common, and a first and a last
line without text. -/
def trimIndent (s : List Char) : List Char :=
  let lines := lines s
  let minCommonIndent := ((lines.filter fun l => !isBlank l).map indentWidth).min?.getD 0
  let lastIndex := lines.length-1
  let kept := lines.zipIdx.filter fun (l, i) => !((i = 0 || i = lastIndex) && isBlank l)
  ['\n'].intercalate (kept.map fun (l, _) => l.drop minCommonIndent)

/-- A text without line breaks. -/
def Unbroken (s : List Char) : Prop := ∀ c ∈ s, c ≠ '\n' ∧ c ≠ '\r'

instance (s : List Char) : Decidable (Unbroken s) :=
  List.decidableBAll (fun c => c ≠ '\n' ∧ c ≠ '\r') s

theorem Unbroken.append {s t : List Char} (hs : Unbroken s) (ht : Unbroken t) : Unbroken (s ++ t) :=
  List.forall_mem_append.mpr ⟨hs, ht⟩

theorem linesFrom_append {line : List Char} (h : Unbroken line) (acc s : List Char) :
    linesFrom acc (line ++ s) = linesFrom (acc ++ line) s := by
  induction line generalizing acc with
  | nil => rw [List.append_nil]; rfl
  | cons c line ih =>
    obtain ⟨hn, hr⟩ := h c List.mem_cons_self
    rw [List.cons_append, linesFrom, if_neg (not_or.mpr ⟨hn, hr⟩),
      ih fun c hc => h c (List.mem_cons_of_mem _ hc), List.append_assoc]
    · rfl
    · intro s' hc
      exact absurd hc hr

theorem lines_append {line : List Char} (h : Unbroken line) (s : List Char) :
    lines (line ++ '\n' :: s) = line :: lines s := by
  rw [lines, linesFrom_append h, linesFrom]
  · rfl
  · intro s' hc
    cases hc

section TrimIndent

variable {s indent first last : List Char} {ls : List (List Char)}

theorem isBlank_append (s t : List Char) : isBlank (s ++ t) = (isBlank s && isBlank t) :=
  List.all_append

theorem indentWidth_append (h : isBlank indent = true) (l : List Char) :
    indentWidth (indent ++ l) = indent.length+indentWidth l := by
  rw [indentWidth, List.takeWhile_append_of_pos (List.all_eq_true.mp h), List.length_append]
  rfl

theorem filter_not_blank (hlast : isBlank last = true) (hls : ∀ l ∈ ls, isBlank l = false) :
    ([] :: (ls ++ [last])).filter (fun l => !isBlank l) = ls := by
  have hself : ls.filter (fun l => !isBlank l) = ls :=
    List.filter_eq_self.mpr fun l hl => by rw [hls l hl]; rfl
  rw [List.filter_cons_of_neg (by decide), List.filter_append, hself,
    List.filter_cons_of_neg (by rw [hlast]; decide)]
  exact List.append_nil _

/-- The first line and the last one are dropped if they are blank, and no other line is. -/
theorem filter_inner (hfirst : isBlank first = true) (hlast : isBlank last = true) :
    (first :: (ls ++ [last])).zipIdx.filter (fun (l, i) =>
      !((i = 0 || i = (first :: (ls ++ [last])).length-1) && isBlank l)) = ls.zipIdx 1 := by
  have hlength : (first :: (ls ++ [last])).length-1 = ls.length+1 := by
    rw [List.length_cons, List.length_append]
    rfl
  have hself : (ls.zipIdx 1).filter (fun (l, i) => !((i = 0 || i = ls.length+1) && isBlank l)) =
      ls.zipIdx 1 := by
    refine List.filter_eq_self.mpr ?_
    rintro ⟨l, i⟩ hq
    have hlow := List.le_snd_of_mem_zipIdx hq
    have hhigh := List.snd_lt_add_of_mem_zipIdx hq
    dsimp only at hlow hhigh ⊢
    have hzero : i ≠ 0 := by omega
    have hend : i ≠ ls.length+1 := by omega
    simp [hzero, hend]
  rw [hlength, List.zipIdx_cons, List.filter_cons_of_neg (by simp [hfirst]), List.zipIdx_append,
    List.filter_append, hself, List.zipIdx_cons, List.filter_cons_of_neg]
  · exact List.append_nil _
  · simp [hlast, Nat.add_comm]

/-- A text that begins with a line break, and whose lines are indented alike up to a last one
that is blank. -/
theorem trimIndent_eq (hlines : lines s = [] :: (ls.map (indent ++ ·) ++ [last]))
    (hindent : isBlank indent = true) (hlast : isBlank last = true)
    (hls : ∀ l ∈ ls, isBlank l = false) (hfirst : ∃ l ∈ ls, indentWidth l = 0) :
    trimIndent s = ['\n'].intercalate ls := by
  have hnot (l : List Char) (hl : l ∈ ls.map (indent ++ ·)) : isBlank l = false := by
    obtain ⟨l', hl', rfl⟩ := List.mem_map.mp hl
    rw [isBlank_append, hls l' hl', Bool.and_false]
  have hmin : ((ls.map (indent ++ ·)).map indentWidth).min? = some indent.length := by
    have hwidth : (ls.map (indent ++ ·)).map indentWidth =
        ls.map fun l => indent.length+indentWidth l := by
      rw [List.map_map]
      exact List.map_congr_left fun l _ => indentWidth_append hindent l
    obtain ⟨l, hl, hzero⟩ := hfirst
    rw [hwidth, List.min?_eq_some_iff]
    refine ⟨List.mem_map.mpr ⟨l, hl, by rw [hzero, Nat.add_zero]⟩, ?_⟩
    exact List.forall_mem_map.mpr fun _ _ => Nat.le_add_right _ _
  have hdrop : ((ls.map (indent ++ ·)).zipIdx 1).map (fun (l, _) => l.drop indent.length) = ls := by
    have h := congrArg (List.map (·.drop indent.length))
      (List.zipIdx_map_fst 1 (ls.map (indent ++ ·)))
    rw [List.map_map, List.map_map] at h
    refine h.trans ((List.map_congr_left fun l _ => ?_).trans (List.map_id _))
    exact List.drop_left
  rw [trimIndent, hlines]
  dsimp only
  rw [filter_not_blank hlast hnot, hmin, filter_inner rfl hlast]
  exact congrArg _ hdrop

end TrimIndent

section Inserted

variable {s first last line : List Char} {ls : List (List Char)}

/-- Whatever stands before the end of a line, the lines that follow are not touched by it. -/
theorem linesFrom_inserted (h : Unbroken line) (hne : line ≠ []) (acc s t : List Char) :
    ∃ before l, linesFrom acc (s ++ (line ++ '\n' :: t)) = before ++ (l ++ line) :: lines t := by
  -- a carriage return at the end of `s` does not become a part of the line break behind `line`
  have hhead {c : Char} {s : List Char} (hpair : ∀ s', c = '\r' → s = '\n' :: s' → False)
      (s' : List Char) (hc : c = '\r') (heq : s ++ (line ++ '\n' :: t) = '\n' :: s') : False := by
    cases s with
    | nil =>
      obtain ⟨c, line, rfl⟩ := List.exists_cons_of_ne_nil hne
      exact (h c List.mem_cons_self).1 (List.cons.inj heq).1
    | cons d s => exact hpair s hc (by rw [(List.cons.inj heq).1])
  induction acc, s using linesFrom.induct with
  | case1 acc =>
    refine ⟨[], acc, ?_⟩
    rw [List.nil_append, linesFrom_append h, linesFrom]
    · rfl
    · intro s' hc
      cases hc
  | case2 acc s ih =>
    obtain ⟨before, l, heq⟩ := ih
    refine ⟨acc :: before, l, ?_⟩
    rw [List.cons_append, List.cons_append, linesFrom, heq]
    rfl
  | case3 acc c s hpair hbreak ih =>
    obtain ⟨before, l, heq⟩ := ih
    refine ⟨acc :: before, l, ?_⟩
    rw [List.cons_append, linesFrom, if_pos hbreak, heq]
    · rfl
    · exact hhead hpair
  | case4 acc c s hpair hbreak ih =>
    obtain ⟨before, l, heq⟩ := ih
    refine ⟨before, l, ?_⟩
    rw [List.cons_append, linesFrom, if_neg hbreak, heq]
    exact hhead hpair

/-- A first line and a last one without text are dropped, and every other line loses the same
number of characters, no more than any line with text is indented. -/
theorem trimIndent_inner (hlines : lines s = first :: (ls ++ [last]))
    (hfirst : isBlank first = true) (hlast : isBlank last = true) :
    ∃ k, (∀ l ∈ ls, isBlank l = false → k ≤ indentWidth l) ∧
      trimIndent s = ['\n'].intercalate (ls.map (·.drop k)) := by
  have hfst (k : ℕ) : (ls.zipIdx 1).map (fun (l, _) => l.drop k) = ls.map (·.drop k) := by
    have h := congrArg (List.map (·.drop k)) (List.zipIdx_map_fst 1 ls)
    rw [List.map_map] at h
    exact h
  rw [trimIndent, hlines]
  dsimp only
  rw [filter_inner hfirst hlast, hfst]
  refine ⟨_, ?_, rfl⟩
  intro l hl hblank
  have hmem : indentWidth l ∈
      ((first :: (ls ++ [last])).filter fun l => !isBlank l).map indentWidth := by
    apply List.mem_map_of_mem
    apply List.mem_filter.mpr
    exact ⟨List.mem_cons_of_mem _ (List.mem_append_left _ hl), by rw [hblank]; rfl⟩
  match hmin : (((first :: (ls ++ [last])).filter fun l => !isBlank l).map indentWidth).min? with
  | none =>
    rw [List.min?_eq_none_iff.mp hmin] at hmem
    exact absurd hmem List.not_mem_nil
  | some k => exact (List.min?_eq_some_iff.mp hmin).2 _ hmem

theorem isBlank_text {c : Char} (hc : isWhitespace c = false) (x l : List Char) :
    isBlank (x ++ c :: l) = false := by
  rw [isBlank_append, isBlank, isBlank, List.all_cons, hc, Bool.false_and, Bool.and_false]

/-- A line loses nothing from its first character with text on. -/
theorem drop_line {c : Char} (hc : isWhitespace c = false) {x l : List Char} {k : ℕ}
    (hk : k ≤ indentWidth (x ++ c :: l)) : (x ++ c :: l).drop k = x.drop k ++ c :: l := by
  have hnone : (c :: l).takeWhile isWhitespace = [] :=
    List.takeWhile_cons_of_neg (by rw [hc]; exact Bool.false_ne_true)
  have hwidth : indentWidth (x ++ c :: l) ≤ x.length := by
    rw [indentWidth, List.takeWhile_append, hnone]
    split_ifs
    · rw [List.append_nil]
    · exact (List.takeWhile_prefix _).length_le
  exact List.drop_append_of_le_length (hk.trans hwidth)

theorem intercalate_cons_append (l : List Char) {ls : List (List Char)} (hne : ls ≠ []) :
    ['\n'].intercalate (l :: ls) = l ++ '\n' :: ['\n'].intercalate ls := by
  obtain ⟨l', ls, rfl⟩ := List.exists_cons_of_ne_nil hne
  rfl

theorem intercalate_append (before : List (List Char)) {ls : List (List Char)} (hne : ls ≠ []) :
    ∃ text, ['\n'].intercalate (before ++ ls) = text ++ ['\n'].intercalate ls := by
  induction before with
  | nil => exact ⟨[], rfl⟩
  | cons l before ih =>
    obtain ⟨text, heq⟩ := ih
    refine ⟨l ++ '\n' :: text, ?_⟩
    rw [List.cons_append, intercalate_cons_append l (by simp [hne]), heq, List.append_assoc]
    rfl

end Inserted

/-- A line with something put into it. -/
theorem lines_insert {before inserted after : List Char} (hb : Unbroken before)
    (hi : Unbroken inserted) (ha : Unbroken after) (s : List Char) :
    lines (before ++ (inserted ++ (after ++ '\n' :: s))) =
      (before ++ (inserted ++ after)) :: lines s := by
  rw [← lines_append (hb.append (hi.append ha)), List.append_assoc, List.append_assoc]

end Lines

section Numbers

/-- The zeros of the decimal digits that are one code unit each. -/
def digitZeros : List ℕ :=
  [0x0030, 0x0660, 0x06F0, 0x07C0, 0x0966, 0x09E6, 0x0A66, 0x0AE6, 0x0B66, 0x0BE6, 0x0C66, 0x0CE6,
    0x0D66, 0x0DE6, 0x0E50, 0x0ED0, 0x0F20, 0x1040, 0x1090, 0x17E0, 0x1810, 0x1946, 0x19D0, 0x1A80,
    0x1A90, 0x1B50, 0x1BB0, 0x1C40, 0x1C50, 0xA620, 0xA8D0, 0xA900, 0xA9D0, 0xA9F0, 0xAA50, 0xABF0,
    0xFF10]

def digit (c : Char) : Option ℕ :=
  (digitZeros.find? fun z => z ≤ c.toNat && c.toNat < z+10).map (c.toNat - ·)

def digits (s : List Char) : Option ℕ := s.foldlM (fun n c => (digit c).map (10*n + ·)) 0

/-- A sign and digits, within the range of an `Int`. -/
def toInt (s : List Char) : Option ℤ :=
  let (sign, s) : ℤ × List Char :=
    match s with
    | '-' :: s => (-1, s)
    | '+' :: s => (1, s)
    | s => (1, s)
  if s = [] then none
  else (digits s).bind fun n =>
    if -2^31 ≤ sign*n ∧ sign*n < 2^31 then some (sign*n) else none

theorem digit_of_isDigit {c : Char} (h : c.isDigit = true) : digit c = toDigit 10 c := by
  obtain ⟨hlow, hhigh, hdigit⟩ := toDigit_of_isDigit h
  have hfind : digitZeros.find? (fun z => z ≤ c.toNat && c.toNat < z+10) = some 48 :=
    List.find?_cons_of_pos (by simp only [Bool.and_eq_true, decide_eq_true_eq]; omega)
  rw [hdigit, digit, hfind]
  rfl

theorem digits_eq {s : List Char} (h : ∀ c ∈ s, c.isDigit = true) :
    digits s = some (digitsValue 10 s) := by
  -- for every number that has been read so far
  have hfold (n : ℕ) : s.foldlM (fun n c => (digit c).map (10*n + ·)) n =
      some (s.foldl (fun n c => 10*n+(toDigit 10 c).getD 0) n) := by
    induction s generalizing n with
    | nil => rfl
    | cons c s ih =>
      have hc := h c List.mem_cons_self
      rw [List.foldlM_cons, digit_of_isDigit hc, (toDigit_of_isDigit hc).2.2, List.foldl_cons,
        (toDigit_of_isDigit hc).2.2]
      exact ih (fun c hc => h c (List.mem_cons_of_mem _ hc)) _
  exact hfold 0

theorem toInt_toDigits {n : ℕ} (hn : n < 2^31) : toInt (Nat.toDigits 10 n) = some (n : ℤ) := by
  have hdigit (c : Char) (hc : c ∈ Nat.toDigits 10 n) : c.isDigit = true :=
    Nat.isDigit_of_mem_toDigits (by decide) (by decide) hc
  have hdigits := digits_eq hdigit
  rw [digitsValue_toDigits] at hdigits
  obtain ⟨c, rest, hcons, -⟩ := toDigits_cons n
  rw [hcons] at hdigit hdigits ⊢
  have hsign (sign : Char) (hs : sign.isDigit = false) (s : List Char)
      (heq : c :: rest = sign :: s) : False := by
    have hc := hdigit c List.mem_cons_self
    rw [(List.cons.inj heq).1, hs] at hc
    cases hc
  rw [toInt]
  · rw [if_neg (List.cons_ne_nil _ _), hdigits, Option.bind_some, Int.one_mul, if_pos (by omega)]
  · exact hsign '-' (by decide)
  · exact hsign '+' (by decide)

end Numbers

/-- The position of the last `c`. -/
def lastIndexOf (c : Char) (s : List Char) : Option ℕ :=
  (s.reverse.findIdx? fun c' => c' = c).map fun k => s.length-1-k

theorem lastIndexOf_append {c : Char} {after : List Char} (h : c ∉ after) (before : List Char) :
    lastIndexOf c (before ++ c :: after) = some before.length := by
  have hreverse : (before ++ c :: after).reverse = after.reverse ++ c :: before.reverse := by
    rw [List.reverse_append, List.reverse_cons, List.append_assoc]
    rfl
  have hfind : after.reverse.findIdx? (fun c' => c' = c) = none := by
    rw [List.findIdx?_eq_none_iff]
    intro c' hc'
    rw [decide_eq_false_iff_not]
    rintro rfl
    exact h (List.mem_reverse.mp hc')
  rw [lastIndexOf, hreverse, List.findIdx?_append, hfind, List.findIdx?_cons, List.length_reverse,
    List.length_append, List.length_cons]
  simp only [decide_true, if_true, Option.none_or, Option.map_some, Nat.zero_add]
  congr 1
  omega

end GravitalShare.KotlinText
