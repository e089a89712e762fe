import GravitalShare.DigitText

/-! JSON texts, read one character at a time by a machine with a stack of the arrays and objects
that are still open. -/
namespace GravitalShare.JsonText

/-- A number is told apart by whether it is a machine integer. -/
inductive Value where
  | null
  | bool (b : Bool)
  | int (n : ℤ)
  | float
  | str (s : List Char)
  | arr (elements : List Value)
  | obj (members : List (List Char × Value))

def isSpace (c : Char) : Bool := c = ' ' || c = '\n' || c = '\t' || c = '\r'

section Strings

/-- Where the machine is in a string. A code unit that is the first half of a pair has to be
followed by the second half. -/
inductive StringPos where
  | plain
  | escape
  | hex (high : Option ℕ) (digits n : ℕ)
  | lowEscape (high : ℕ)
  | lowHex (high : ℕ)

/-- The code unit `n` of a `\u` escape is complete. -/
def codeUnit (high : Option ℕ) (n : ℕ) (acc : List Char) : Option (StringPos × List Char) :=
  let isLow := 0xDC00 ≤ n ∧ n ≤ 0xDFFF
  match high with
  | none =>
    if isLow then none
    else if 0xD800 ≤ n ∧ n ≤ 0xDBFF then some (.lowEscape n, acc)
    else some (.plain, acc ++ [Char.ofNat n])
  | some high =>
    if isLow then
      some (.plain, acc ++ [Char.ofNat (0x10000+(high-0xD800)*0x400+(n-0xDC00))])
    else none

/-- What a letter behind a backslash stands for. -/
def unescape : Char → Option Char
  | '"' => some '"'
  | '\\' => some '\\'
  | '/' => some '/'
  | 'b' => some '\x08'
  | 'f' => some '\x0c'
  | 'n' => some '\n'
  | 'r' => some '\r'
  | 't' => some '\t'
  | _ => none

/-- One character of a string, the closing quote apart. -/
def stringStep (acc : List Char) (c : Char) : StringPos → Option (StringPos × List Char)
  | .plain =>
    if c = '\\' then some (.escape, acc)
    -- control characters have to be escaped
    else if c.toNat < 0x20 then none
    else some (.plain, acc ++ [c])
  | .escape =>
    if c = 'u' then some (.hex none 0 0, acc)
    else (unescape c).map fun c => (.plain, acc ++ [c])
  | .hex high digits n =>
    match toDigit 16 c with
    | none => none
    | some d =>
      if digits < 3 then some (.hex high (digits+1) (16*n+d), acc)
      else codeUnit high (16*n+d) acc
  | .lowEscape high => if c = '\\' then some (.lowHex high, acc) else none
  | .lowHex high => if c = 'u' then some (.hex (some high) 0 0, acc) else none

end Strings

section Numbers

inductive NumberPos where
  | minus
  | zero
  | integer
  | point
  | fraction
  | exponent
  | exponentSign
  | exponentDigits
  deriving DecidableEq, Repr

def numberStart (c : Char) : Option NumberPos :=
  if c = '-' then some .minus
  else if c = '0' then some .zero
  else if c.isDigit then some .integer
  else none

/-- The number goes on with `c`. -/
def numberStep (c : Char) : NumberPos → Option NumberPos
  | .minus => if c = '0' then some .zero else if c.isDigit then some .integer else none
  | .zero =>
    if c = '.' then some .point else if c = 'e' ∨ c = 'E' then some .exponent else none
  | .integer =>
    if c.isDigit then some .integer
    else if c = '.' then some .point
    else if c = 'e' ∨ c = 'E' then some .exponent
    else none
  | .point => if c.isDigit then some .fraction else none
  | .fraction =>
    if c.isDigit then some .fraction else if c = 'e' ∨ c = 'E' then some .exponent else none
  | .exponent =>
    if c = '+' ∨ c = '-' then some .exponentSign
    else if c.isDigit then some .exponentDigits
    else none
  | .exponentSign | .exponentDigits => if c.isDigit then some .exponentDigits else none

/-- An integer is one that fits into 64 bits, with a sign if it is negative. Whether any other
number is within the range of a float is left to `isFinite`. -/
def numberValue (isFinite : List Char → Bool) (text : List Char) : NumberPos → Option Value
  | .zero | .integer =>
    match text with
    | '-' :: digits =>
      let n := digitsValue 10 digits
      if 0 < n ∧ n ≤ 2^63 then some (.int (-n))
      else if n < 2^64 ∨ isFinite text then some .float
      else none
    | digits =>
      let n := digitsValue 10 digits
      if n < 2^64 then some (.int n) else if isFinite text then some .float else none
  | .fraction | .exponentDigits => if isFinite text then some .float else none
  | _ => none

end Numbers

/-- An open array or object. The value that comes next in an object belongs to `key`. -/
inductive Frame where
  | arr (elements : List Value)
  | obj (members : List (List Char × Value)) (key : List Char)

inductive Mode where
  -- a value is due, or the end of an empty array
  | value (first : Bool)
  -- a key is due, or the end of an empty object
  | key (first : Bool)
  | colon
  -- a value is complete: a comma is due, or the end of what is open
  | complete
  | finished (v : Value)
  | string (isKey : Bool) (pos : StringPos) (acc : List Char)
  | number (pos : NumberPos) (acc : List Char)
  | literal (rest : List Char) (v : Value)

structure State where
  mode : Mode
  stack : List Frame

/-- The machine has read the value `v`. -/
def deliver (v : Value) : List Frame → State
  | [] => ⟨.finished v, []⟩
  | .arr elements :: stack => ⟨.complete, .arr (elements ++ [v]) :: stack⟩
  | .obj members key :: stack => ⟨.complete, .obj (members ++ [(key, v)]) key :: stack⟩

/-- Arrays and objects may be nested up to a limit. -/
def openFrame (f : Frame) (mode : Mode) (stack : List Frame) : Option State :=
  if stack.length < 127 then some ⟨mode, f :: stack⟩ else none

def closeArray : List Frame → Option State
  | .arr elements :: stack => some (deliver (.arr elements) stack)
  | _ => none

def closeObject : List Frame → Option State
  | .obj members _ :: stack => some (deliver (.obj members) stack)
  | _ => none

section Machine

variable (isFinite : List Char → Bool)

def valueStep (first : Bool) (stack : List Frame) (c : Char) : Option State :=
  if isSpace c then some ⟨.value first, stack⟩
  else if c = '"' then some ⟨.string false .plain [], stack⟩
  else if c = '{' then openFrame (.obj [] []) (.key true) stack
  else if c = '[' then openFrame (.arr []) (.value true) stack
  else if c = ']' then if first then closeArray stack else none
  else if c = 't' then some ⟨.literal ['r', 'u', 'e'] (.bool true), stack⟩
  else if c = 'f' then some ⟨.literal ['a', 'l', 's', 'e'] (.bool false), stack⟩
  else if c = 'n' then some ⟨.literal ['u', 'l', 'l'] .null, stack⟩
  else (numberStart c).map fun pos => ⟨.number pos [c], stack⟩

def keyStep (first : Bool) (stack : List Frame) (c : Char) : Option State :=
  if isSpace c then some ⟨.key first, stack⟩
  else if c = '"' then some ⟨.string true .plain [], stack⟩
  else if c = '}' then if first then closeObject stack else none
  else none

/-- What may follow a complete value. -/
def completeStep (s : State) (c : Char) : Option State :=
  if isSpace c then some s
  else if c = ',' then
    match s.stack with
    | .arr _ :: _ => some ⟨.value false, s.stack⟩
    | .obj _ _ :: _ => some ⟨.key false, s.stack⟩
    | [] => none
  else if c = ']' then closeArray s.stack
  else if c = '}' then closeObject s.stack
  else none

/-- The closing quote of a string. -/
def closeString (isKey : Bool) (acc : List Char) (stack : List Frame) : Option State :=
  if isKey then
    match stack with
    | .obj members _ :: stack => some ⟨.colon, .obj members acc :: stack⟩
    | _ => none
  else some (deliver (.str acc) stack)

def step (s : State) (c : Char) : Option State :=
  match s.mode with
  | .value first => valueStep first s.stack c
  | .key first => keyStep first s.stack c
  | .colon =>
    if isSpace c then some s else if c = ':' then some ⟨.value false, s.stack⟩ else none
  | .complete | .finished _ => completeStep s c
  | .string isKey .plain acc =>
    if c = '"' then closeString isKey acc s.stack
    else (stringStep acc c .plain).map fun (pos, acc) => ⟨.string isKey pos acc, s.stack⟩
  | .string isKey pos acc =>
    (stringStep acc c pos).map fun (pos, acc) => ⟨.string isKey pos acc, s.stack⟩
  | .number pos acc =>
    match numberStep c pos with
    | some pos => some ⟨.number pos (acc ++ [c]), s.stack⟩
    -- the character after a number is not a part of it
    | none => (numberValue isFinite acc pos).bind fun v => completeStep (deliver v s.stack) c
  | .literal [] _ => none
  | .literal (expected :: rest) v =>
    if c ≠ expected then none
    else if rest = [] then some (deliver v s.stack)
    else some ⟨.literal rest v, s.stack⟩

def run (s : State) (text : List Char) : Option State := text.foldlM (step isFinite) s

/-- The end of the text. -/
def finish (s : State) : Option Value :=
  match s.mode, s.stack with
  | .finished v, _ => some v
  | .number pos acc, [] => numberValue isFinite acc pos
  | _, _ => none

def parse (text : List Char) : Option Value :=
  (run isFinite ⟨.value false, []⟩ text).bind (finish isFinite)

end Machine

section Runs

variable {isFinite : List Char → Bool}

theorem run_cons (s : State) (c : Char) (text : List Char) :
    run isFinite s (c :: text) = (step isFinite s c).bind (run isFinite · text) :=
  List.foldlM_cons

theorem run_append (s : State) (text text' : List Char) :
    run isFinite s (text ++ text') = (run isFinite s text).bind (run isFinite · text') :=
  List.foldlM_append

/-- A character that stands for itself in a string. -/
def IsPlain (c : Char) : Prop := c ≠ '"' ∧ c ≠ '\\' ∧ 0x20 ≤ c.toNat

instance (c : Char) : Decidable (IsPlain c) := inferInstanceAs (Decidable (_ ∧ _ ∧ _))

theorem isPlain_of_all {s : List Char} (h : s.all (fun c => decide (IsPlain c)) = true) :
    ∀ c ∈ s, IsPlain c := fun c hc => of_decide_eq_true (List.all_eq_true.mp h c hc)

theorem step_plain {c : Char} (h : IsPlain c) (isKey : Bool) (acc : List Char)
    (stack : List Frame) : step isFinite ⟨.string isKey .plain acc, stack⟩ c =
      some ⟨.string isKey .plain (acc ++ [c]), stack⟩ := by
  obtain ⟨hquote, hslash, hcontrol⟩ := h
  dsimp only [step]
  rw [if_neg hquote, stringStep, if_neg hslash, if_neg (Nat.not_lt.mpr hcontrol)]
  rfl

theorem run_plain {text : List Char} (h : ∀ c ∈ text, IsPlain c) (isKey : Bool)
    (acc : List Char) (stack : List Frame) :
    run isFinite ⟨.string isKey .plain acc, stack⟩ text =
      some ⟨.string isKey .plain (acc ++ text), stack⟩ := by
  induction text generalizing acc with
  | nil => rw [List.append_nil]; rfl
  | cons c text ih =>
    rw [run_cons, step_plain (h c List.mem_cons_self), Option.bind_some,
      ih fun c hc => h c (List.mem_cons_of_mem _ hc), List.append_assoc]
    rfl

/-- A string in quotes. -/
theorem run_string {text : List Char} (h : ∀ c ∈ text, IsPlain c) (stack : List Frame)
    (rest : List Char) : run isFinite ⟨.string false .plain [], stack⟩ (text ++ '"' :: rest) =
      run isFinite (deliver (.str text) stack) rest := by
  rw [run_append, run_plain h]
  rfl

theorem run_digits {digits : List Char} (h : ∀ c ∈ digits, c.isDigit = true) (acc : List Char)
    (stack : List Frame) : run isFinite ⟨.number .integer acc, stack⟩ digits =
      some ⟨.number .integer (acc ++ digits), stack⟩ := by
  induction digits generalizing acc with
  | nil => rw [List.append_nil]; rfl
  | cons c digits ih =>
    have hstep : step isFinite ⟨.number .integer acc, stack⟩ c =
        some ⟨.number .integer (acc ++ [c]), stack⟩ := by
      dsimp only [step, numberStep]
      rw [if_pos (h c List.mem_cons_self)]
    rw [run_cons, hstep, Option.bind_some, ih fun c hc => h c (List.mem_cons_of_mem _ hc),
      List.append_assoc]
    rfl

variable (isFinite) in
/-- The decimal digits of a number, from a state in which it may begin. -/
theorem run_toDigits {s : State} {acc : List Char} (n : ℕ)
    (hs : ∀ c : Char, c.isDigit = true → step isFinite s c =
      some ⟨.number (if c = '0' then .zero else .integer) (acc ++ [c]), s.stack⟩) :
    ∃ pos, (pos = .zero ∨ pos = .integer) ∧ run isFinite s (Nat.toDigits 10 n) =
      some ⟨.number pos (acc ++ Nat.toDigits 10 n), s.stack⟩ := by
  have hdigit (c : Char) (hc : c ∈ Nat.toDigits 10 n) : c.isDigit = true :=
    Nat.isDigit_of_mem_toDigits (by decide) (by decide) hc
  obtain ⟨c, rest, hcons, hzero⟩ := toDigits_cons n
  rw [hcons] at hdigit ⊢
  rw [run_cons, hs c (hdigit c List.mem_cons_self), Option.bind_some]
  by_cases hc : c = '0'
  · -- nothing may follow a zero, and nothing does
    rw [(hzero hc).2, if_pos hc]
    exact ⟨.zero, Or.inl rfl, rfl⟩
  · rw [if_neg hc, run_digits fun c hc => hdigit c (List.mem_cons_of_mem _ hc), List.append_assoc]
    exact ⟨.integer, Or.inr rfl, rfl⟩

theorem step_number_start {c : Char} (hc : c.isDigit = true ∨ c = '-') (stack : List Frame) :
    step isFinite ⟨.value false, stack⟩ c =
      (numberStart c).map fun pos => ⟨.number pos [c], stack⟩ := by
  have hne (d : Char) (hd : d.isDigit = false ∧ d ≠ '-') : c ≠ d := by
    rintro rfl
    rcases hc with hc | hc
    · exact Bool.noConfusion (hd.1.symm.trans hc)
    · exact hd.2 hc
  have hspace : isSpace c = false := by
    simp [isSpace, hne ' ' (by decide), hne '\n' (by decide), hne '\t' (by decide),
      hne '\r' (by decide)]
  dsimp only [step, valueStep]
  rw [hspace, if_neg Bool.false_ne_true, if_neg (hne _ (by decide)), if_neg (hne _ (by decide)),
    if_neg (hne _ (by decide)), if_neg (hne _ (by decide)), if_neg (hne _ (by decide)),
    if_neg (hne _ (by decide)), if_neg (hne _ (by decide))]

theorem step_digit_start {c : Char} (hc : c.isDigit = true) (stack : List Frame) :
    step isFinite ⟨.value false, stack⟩ c =
      some ⟨.number (if c = '0' then .zero else .integer) ([] ++ [c]), stack⟩ := by
  have hminus : c ≠ '-' := by
    rintro rfl
    cases hc
  rw [step_number_start (Or.inl hc), numberStart, if_neg hminus, if_pos hc]
  split_ifs <;> rfl

theorem step_digit_minus {c : Char} (hc : c.isDigit = true) (stack : List Frame) :
    step isFinite ⟨.number .minus ['-'], stack⟩ c =
      some ⟨.number (if c = '0' then .zero else .integer) (['-'] ++ [c]), stack⟩ := by
  dsimp only [step, numberStep]
  rw [if_pos hc]
  split_ifs <;> rfl

variable (isFinite) in
theorem numberValue_toDigits {n : ℕ} (hn : n < 2^64) {pos : NumberPos}
    (hpos : pos = .zero ∨ pos = .integer) :
    numberValue isFinite (Nat.toDigits 10 n) pos = some (.int n) := by
  have hminus (digits : List Char) : Nat.toDigits 10 n ≠ '-' :: digits := by
    intro h
    have hmem : '-' ∈ Nat.toDigits 10 n := by rw [h]; exact List.mem_cons_self
    cases Nat.isDigit_of_mem_toDigits (by decide) (by decide) hmem
  rcases hpos with rfl | rfl
  all_goals
    dsimp only [numberValue]
    split
    · next h => exact absurd h (hminus _)
    · rw [digitsValue_toDigits, if_pos hn]

variable (isFinite) in
theorem numberValue_neg {n : ℕ} (hpos : 0 < n) (hn : n ≤ 2^63) {pos : NumberPos}
    (hp : pos = .zero ∨ pos = .integer) :
    numberValue isFinite ('-' :: Nat.toDigits 10 n) pos = some (.int (-n)) := by
  have hvalue := digitsValue_toDigits n
  rw [← hvalue] at hpos hn
  rcases hp with rfl | rfl
  all_goals
    refine (if_pos ⟨hpos, hn⟩).trans ?_
    rw [hvalue]

theorem toList_toString_int (z : ℤ) : (toString z).toList =
    if z < 0 then '-' :: Nat.toDigits 10 z.natAbs else Nat.toDigits 10 z.natAbs := by
  cases z with
  | ofNat n =>
    rw [if_neg (by simp)]
    exact Nat.toList_repr
  | negSucc n =>
    rw [if_pos (Int.negSucc_lt_zero n)]
    have hrepr : toString (Int.negSucc n) = "-" ++ Nat.repr (n+1) := rfl
    rw [hrepr, String.toList_append, Nat.toList_repr]
    rfl

/-- An integer, and a character behind it that ends it. -/
theorem run_int {z : ℤ} (hlow : -2^63 ≤ z) (hhigh : z < 2^64) (stack : List Frame) {c : Char}
    (hc : ∀ pos, pos = .zero ∨ pos = .integer → numberStep c pos = none) (rest : List Char) :
    run isFinite ⟨.value false, stack⟩ ((toString z).toList ++ c :: rest) =
      (completeStep (deliver (.int z) stack) c).bind (run isFinite · rest) := by
  have hread : ∃ pos text, (pos = .zero ∨ pos = .integer) ∧
      run isFinite ⟨.value false, stack⟩ (toString z).toList = some ⟨.number pos text, stack⟩ ∧
      numberValue isFinite text pos = some (.int z) := by
    rw [toList_toString_int]
    split_ifs with hz
    · obtain ⟨pos, hpos, hrun⟩ := run_toDigits isFinite z.natAbs
        fun _ hc => step_digit_minus hc stack
      refine ⟨pos, '-' :: Nat.toDigits 10 z.natAbs, hpos, ?_, ?_⟩
      · rw [run_cons, step_number_start (Or.inr rfl)]
        exact hrun
      · have hneg : -(z.natAbs : ℤ) = z := by omega
        rw [numberValue_neg isFinite (by omega) (by omega) hpos, hneg]
    · obtain ⟨pos, hpos, hrun⟩ := run_toDigits isFinite z.natAbs
        fun _ hc => step_digit_start hc stack
      refine ⟨pos, _, hpos, hrun, ?_⟩
      have hnat : (z.natAbs : ℤ) = z := by omega
      rw [List.nil_append, numberValue_toDigits isFinite (by omega) hpos, hnat]
  obtain ⟨pos, text, hpos, hrun, hval⟩ := hread
  have hstep : step isFinite ⟨.number pos text, stack⟩ c =
      completeStep (deliver (.int z) stack) c := by
    dsimp only [step]
    rw [hc pos hpos, hval]
    rfl
  rw [run_append, hrun, Option.bind_some, run_cons, hstep]

end Runs

end GravitalShare.JsonText
