import GravitalShare.SortedAssoc
import Mathlib.Data.List.TakeWhile
import Mathlib.Tactic.Common

/-! Fields of a flat object of texts, found by a search for the first place where a key in
quotes is followed by a colon and a value. -/
namespace GravitalShare.QuotedFields

/-- The white space that a pattern may skip. -/
def isSpace (c : Char) : Bool :=
  c = ' ' || c = '\t' || c = '\n' || c = '\x0b' || c = '\x0c' || c = '\r'

section Search

variable {α : Type} (value : List Char → Option α) (key : List Char)

/-- What follows the key: a colon and the value, with white space before each. -/
def afterKey (s : List Char) : Option α :=
  match s.dropWhile isSpace with
  | ':' :: t => value (t.dropWhile isSpace)
  | _ => none

/-- The field at the beginning of a text. -/
def fieldAt (s : List Char) : Option α :=
  if '"' :: (key ++ ['"']) <+: s then afterKey value (s.drop (key.length+2)) else none

/-- The leftmost field of a text. -/
def find : List Char → Option α
  | [] => none
  | c :: s =>
    match fieldAt value key (c :: s) with
    | some v => some v
    | none => find s

end Search

/-- A value in quotes, of one character or more. -/
def quoted : List Char → Option (List Char)
  | '"' :: s =>
    let v := s.takeWhile (· ≠ '"')
    if v ≠ [] ∧ '"' ∈ s then some v else none
  | _ => none

/-- A value of decimal digits, one or more. -/
def digits (s : List Char) : Option (List Char) :=
  let v := s.takeWhile Char.isDigit
  if v ≠ [] then some v else none

section Text

def field (f : List Char × List Char) : List Char :=
  '"' :: (f.1 ++ '"' :: ':' :: '"' :: (f.2 ++ ['"']))

/-- An object after its first field. -/
def others : List (List Char × List Char) → List Char
  | [] => ['}']
  | f :: fs => ',' :: (field f ++ others fs)

def object (f : List Char × List Char) (fs : List (List Char × List Char)) : List Char :=
  '{' :: (field f ++ others fs)

/-- The key and the value have no quotes in them, and the value is not empty. -/
structure Plain (f : List Char × List Char) : Prop where
  key : '"' ∉ f.1
  value : '"' ∉ f.2
  value_ne_nil : f.2 ≠ []

end Text

section Search

variable {α : Type} {value : List Char → Option α} {key : List Char}

theorem takeWhile_quote {w : List Char} (h : '"' ∉ w) (s : List Char) :
    (w ++ '"' :: s).takeWhile (· ≠ '"') = w := by
  have hall : ∀ c ∈ w, decide (c ≠ '"') = true := by
    intro c hc
    apply decide_eq_true
    rintro rfl
    exact h hc
  rw [List.takeWhile_append_of_pos hall, List.takeWhile_cons_of_neg (by decide), List.append_nil]

theorem find_of_none {c : Char} {s : List Char} (h : fieldAt value key (c :: s) = none) :
    find value key (c :: s) = find value key s := by
  rw [find, h]

/-- A search does not stop before the next quote. -/
theorem find_append {w : List Char} (h : '"' ∉ w) (s : List Char) :
    find value key (w ++ s) = find value key s := by
  induction w with
  | nil => rfl
  | cons c w ih =>
    rw [List.mem_cons, not_or] at h
    have hnone : fieldAt value key (c :: (w ++ s)) = none := by
      apply if_neg
      intro hpre
      exact h.1 (List.cons_prefix_cons.mp hpre).1
    rw [List.cons_append, find_of_none hnone, ih h.2]

theorem quoted_prefix_iff (hkey : '"' ∉ key) {w : List Char} (hw : '"' ∉ w) (s : List Char) :
    '"' :: (key ++ ['"']) <+: '"' :: (w ++ '"' :: s) ↔ key = w := by
  rw [List.cons_prefix_cons]
  constructor
  · rintro ⟨-, t, ht⟩
    rw [List.append_assoc, List.singleton_append] at ht
    calc key = (key ++ '"' :: t).takeWhile (· ≠ '"') := (takeWhile_quote hkey t).symm
      _ = (w ++ '"' :: s).takeWhile (· ≠ '"') := by rw [ht]
      _ = w := takeWhile_quote hw s
  · rintro rfl
    refine ⟨rfl, s, ?_⟩
    rw [List.append_assoc, List.singleton_append]

variable (value) in
theorem fieldAt_quoted (hkey : '"' ∉ key) {w : List Char} (hw : '"' ∉ w) (s : List Char) :
    fieldAt value key ('"' :: (w ++ '"' :: s)) = if key = w then afterKey value s else none := by
  simp only [fieldAt, quoted_prefix_iff hkey hw]
  split_ifs with h
  · have hdrop : ('"' :: (w ++ '"' :: s)).drop (key.length+2) = s := by
      rw [h, List.drop_succ_cons, List.drop_length_add_append, List.drop_succ_cons, List.drop_zero]
    rw [hdrop]
  · rfl

/-- The quote that ends a value does not begin a field. -/
theorem find_others (hkey : '"' ∉ key) (hcomma : key ≠ [',']) (fs : List (List Char × List Char)) :
    find value key ('"' :: others fs) = find value key (others fs) := by
  apply find_of_none
  cases fs with
  | nil =>
    apply if_neg
    intro hpre
    have hmem : '"' ∈ ['}'] := by
      apply (List.cons_prefix_cons.mp hpre).2.subset
      exact List.mem_append_right _ (List.mem_singleton_self _)
    exact absurd hmem (by decide)
  | cons f fs =>
    have hfield := fieldAt_quoted value hkey (w := [',']) (by decide)
      (f.1 ++ '"' :: ':' :: '"' :: (f.2 ++ ['"']) ++ others fs)
    rw [if_neg hcomma] at hfield
    exact hfield

end Search

section Object

variable {key : List Char} (hkey : '"' ∉ key) (hcolon : key ≠ [':']) (hcomma : key ≠ [','])

theorem quoted_value {v : List Char} (h : '"' ∉ v) (hne : v ≠ []) (s : List Char) :
    quoted ('"' :: (v ++ '"' :: s)) = some v := by
  have hmem : '"' ∈ v ++ '"' :: s := List.mem_append_right _ List.mem_cons_self
  rw [quoted, takeWhile_quote h]
  exact if_pos ⟨hne, hmem⟩

theorem afterKey_others {α : Type} (value : List Char → Option α)
    (fs : List (List Char × List Char)) : afterKey value (others fs) = none := by
  cases fs <;> rfl

include hkey hcolon hcomma

/-- A search in an object looks at one field after the other. -/
theorem find_field {f : List Char × List Char} (hf : Plain f)
    (fs : List (List Char × List Char)) :
    find quoted key (field f ++ others fs) =
      if key = f.1 then some f.2 else find quoted key (others fs) := by
  obtain ⟨k, v⟩ := f
  have htext : field (k, v) ++ others fs =
      '"' :: (k ++ '"' :: ([':'] ++ '"' :: (v ++ '"' :: others fs))) := by
    simp only [field, List.cons_append, List.append_assoc, List.nil_append]
  have hfield := fieldAt_quoted quoted hkey hf.key
    ([':'] ++ '"' :: (v ++ '"' :: others fs))
  rw [htext]
  split_ifs with h
  · have hval : afterKey quoted ([':'] ++ '"' :: (v ++ '"' :: others fs)) = some v :=
      quoted_value hf.value hf.value_ne_nil _
    rw [if_pos h, hval] at hfield
    rw [find, hfield]
  · -- neither the end of the key nor the value in its quotes is the key
    rw [if_neg h] at hfield
    have hend := fieldAt_quoted quoted hkey (w := [':']) (by decide)
      (v ++ '"' :: others fs)
    rw [if_neg hcolon] at hend
    have hvalue := fieldAt_quoted quoted hkey hf.value (others fs)
    rw [afterKey_others, ite_self] at hvalue
    rw [find_of_none hfield, find_append hf.key, find_of_none hend, find_append (by decide),
      find_of_none hvalue, find_append hf.value, find_others hkey hcomma]

theorem find_fields {fs : List (List Char × List Char)} (h : ∀ f ∈ fs, Plain f) :
    find quoted key (others fs) = fs.lookup key := by
  induction fs with
  | nil => exact find_append (w := ['}']) (by decide) []
  | cons f fs ih =>
    rw [List.forall_mem_cons] at h
    have hsep : find quoted key ([','] ++ (field f ++ others fs)) =
        find quoted key (field f ++ others fs) := find_append (by decide) _
    rw [others, ← List.singleton_append, hsep, find_field hkey hcolon hcomma h.1, ih h.2,
      SortedAssoc.lookup_cons]

/-- The search finds the first field with the key. -/
theorem find_object {f : List Char × List Char} {fs : List (List Char × List Char)}
    (h : ∀ g ∈ f :: fs, Plain g) : find quoted key (object f fs) = (f :: fs).lookup key := by
  rw [List.forall_mem_cons] at h
  have hopen : find quoted key (['{'] ++ (field f ++ others fs)) =
      find quoted key (field f ++ others fs) := find_append (by decide) _
  rw [object, ← List.singleton_append, hopen, find_field hkey hcolon hcomma h.1,
    find_fields hkey hcolon hcomma h.2, SortedAssoc.lookup_cons]

end Object

end GravitalShare.QuotedFields
