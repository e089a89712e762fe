import GravitalShare.JsonNesting

/-! What a program relies on if it has JSON texts read that it lays out with one member to a line.
It is stated for any reader, and the machine is one of them. -/
namespace GravitalShare.JsonText

section Layout

/-- A text of white space. -/
def Spaces (w : List Char) : Prop := ∀ c ∈ w, isSpace c = true

inductive Scalar where
  | str (s : List Char)
  | int (z : ℤ)

namespace Scalar

def text : Scalar → List Char
  | .str s => '"' :: (s ++ ['"'])
  | .int z => (toString z).toList

def value : Scalar → Value
  | .str s => .str s
  | .int z => .int z

/-- The characters stand for themselves, the number is a machine integer. -/
def Plain : Scalar → Prop
  | .str s => ∀ c ∈ s, IsPlain c
  | .int z => -2^63 ≤ z ∧ z < 2^64

end Scalar

/-- A member of an object that can be written as it is. -/
structure Member where
  name : List Char
  scalar : Scalar
  name_plain : ∀ c ∈ name, IsPlain c
  scalar_plain : scalar.Plain

namespace Member

def pair (m : Member) : List Char × Value := (m.name, m.scalar.value)

def line (indent : List Char) (m : Member) : List Char :=
  '\n' :: (indent ++ '"' :: (m.name ++ '"' :: ':' :: ' ' :: m.scalar.text))

end Member

/-- Members that others follow. -/
def commaLines (indent : List Char) (ms : List Member) : List Char :=
  ms.flatMap fun m => m.line indent ++ [',']

/-- The last member of an object, and the end of the object. -/
def lastLines (indent close : List Char) (m : Member) : List Char :=
  m.line indent ++ '\n' :: (close ++ ['}'])

/-- What is relied on of a reader: it reads an object of such members, and whatever it accepts
between the first and the last lines of an object, the object begins and ends with their members. -/
structure IsReader (read : List Char → Option Value) : Prop where
  whole : ∀ indent close ms m, Spaces indent → Spaces close →
    read ('{' :: (commaLines indent ms ++ lastLines indent close m)) =
      some (.obj ((ms ++ [m]).map Member.pair))
  framed : ∀ before indent close first last m text v,
    Spaces before → Spaces indent → Spaces close →
    read (before ++ '{' :: (commaLines indent first ++
      (text ++ (commaLines indent last ++ lastLines indent close m)))) = some v →
    ∃ more, v = .obj (first.map Member.pair ++ more ++ (last ++ [m]).map Member.pair)

theorem text_str_append (s rest : List Char) :
    (Scalar.str s).text ++ rest = '"' :: (s ++ '"' :: rest) := by
  simp [Scalar.text]

theorem commaLines_cons_append (indent : List Char) (m : Member) (ms : List Member)
    (rest : List Char) : commaLines indent (m :: ms) ++ rest =
      '\n' :: (indent ++ '"' :: (m.name ++ '"' :: ':' :: ' ' :: (m.scalar.text ++
        ',' :: (commaLines indent ms ++ rest)))) := by
  simp [commaLines, Member.line]

theorem lastLines_eq (indent close : List Char) (m : Member) : lastLines indent close m =
    '\n' :: (indent ++ '"' :: (m.name ++ '"' :: ':' :: ' ' :: (m.scalar.text ++
      '\n' :: (close ++ ['}'])))) := by
  simp [lastLines, Member.line]

end Layout

section Machine

variable (isFinite : List Char → Bool) {indent close : List Char} (stack : List Frame)

/-- A character that ends a number. -/
def EndsNumber (c : Char) : Prop := ∀ pos, pos = .zero ∨ pos = .integer → numberStep c pos = none

theorem endsNumber_comma : EndsNumber ',' := by
  rintro _ (rfl | rfl) <;> rfl

theorem endsNumber_break : EndsNumber '\n' := by
  rintro _ (rfl | rfl) <;> rfl

theorem run_scalar {x : Scalar} (hx : x.Plain) {c : Char} (hc : EndsNumber c)
    (rest : List Char) :
    run isFinite ⟨.value false, stack⟩ (x.text ++ c :: rest) =
      (completeStep (deliver x.value stack) c).bind (run isFinite · rest) := by
  cases x with
  | str s =>
    have hopen : step isFinite ⟨.value false, stack⟩ '"' =
        some ⟨.string false .plain [], stack⟩ := rfl
    rw [Scalar.text, List.cons_append, run_cons, hopen, Option.bind_some, List.append_assoc,
      List.singleton_append, run_string hx, run_cons, step_deliver]
    rfl
  | int z => exact run_int hx.1 hx.2 stack hc rest

/-- Such lines begin with a name. -/
theorem exists_name (indent close : List Char) (ms : List Member) (m : Member) :
    ∃ name rest, (∀ c ∈ name, IsPlain c) ∧ commaLines indent ms ++ lastLines indent close m =
      '\n' :: (indent ++ '"' :: (name ++ '"' :: ':' :: rest)) := by
  cases ms with
  | nil => exact ⟨m.name, _, m.name_plain, lastLines_eq indent close m⟩
  | cons m' ms => exact ⟨m'.name, _, m'.name_plain, commaLines_cons_append indent m' ms _⟩

variable (hindent : Spaces indent) (hclose : Spaces close)

include hindent

theorem run_line (m : Member) {c : Char} (hc : EndsNumber c) (first : Bool)
    (members : List (List Char × Value)) (key rest : List Char) :
    run isFinite ⟨.key first, .obj members key :: stack⟩ (m.line indent ++ c :: rest) =
      (completeStep ⟨.complete, .obj (members ++ [m.pair]) m.name :: stack⟩ c).bind
        (run isFinite · rest) := by
  have hbreak : Spaces ('\n' :: indent) := List.forall_mem_cons.mpr ⟨rfl, hindent⟩
  have hline : m.line indent ++ c :: rest = ('\n' :: indent) ++ '"' :: (m.name ++ '"' :: ':' ::
      (' ' :: (m.scalar.text ++ c :: rest))) := by
    simp [Member.line]
  have hblank (text : List Char) : run isFinite ⟨.value false, .obj members m.name :: stack⟩
      (' ' :: text) = run isFinite ⟨.value false, .obj members m.name :: stack⟩ text := rfl
  rw [hline, run_name first hbreak m.name_plain, hblank, run_scalar isFinite _ m.scalar_plain hc]
  rfl

theorem run_commaLines (ms : List Member) (first : Bool) (members : List (List Char × Value))
    (key rest : List Char) : ∃ first' key',
      run isFinite ⟨.key first, .obj members key :: stack⟩ (commaLines indent ms ++ rest) =
        run isFinite ⟨.key first', .obj (members ++ ms.map Member.pair) key' :: stack⟩ rest := by
  induction ms generalizing first members key with
  | nil =>
    refine ⟨first, key, ?_⟩
    rw [List.map_nil, List.append_nil]
    rfl
  | cons m ms ih =>
    obtain ⟨first', key', hrun⟩ := ih false (members ++ [m.pair]) m.name
    refine ⟨first', key', ?_⟩
    have htext : commaLines indent (m :: ms) ++ rest =
        m.line indent ++ ',' :: (commaLines indent ms ++ rest) := by
      simp [commaLines]
    rw [htext, run_line isFinite stack hindent m endsNumber_comma, List.map_cons,
      List.append_cons members m.pair (ms.map _), ← hrun]
    rfl

include hclose

theorem run_lastLines (m : Member) (first : Bool) (members : List (List Char × Value))
    (key : List Char) :
    run isFinite ⟨.key first, .obj members key :: stack⟩ (lastLines indent close m) =
      some (deliver (.obj (members ++ [m.pair])) stack) := by
  have hspace (c : Char) (hc : isSpace c = true) :
      step isFinite ⟨.complete, .obj (members ++ [m.pair]) m.name :: stack⟩ c =
        some ⟨.complete, .obj (members ++ [m.pair]) m.name :: stack⟩ := if_pos hc
  have hbreak : completeStep ⟨.complete, .obj (members ++ [m.pair]) m.name :: stack⟩ '\n' =
      some ⟨.complete, .obj (members ++ [m.pair]) m.name :: stack⟩ := rfl
  rw [lastLines, run_line isFinite stack hindent m endsNumber_break, hbreak, Option.bind_some,
    run_spaces hspace hclose]
  rfl

/-- The last lines of an object, from where a name is due. -/
theorem run_lines (ms : List Member) (m : Member) (first : Bool)
    (members : List (List Char × Value)) (key : List Char) :
    run isFinite ⟨.key first, .obj members key :: stack⟩
        (commaLines indent ms ++ lastLines indent close m) =
      some (deliver (.obj (members ++ (ms ++ [m]).map Member.pair)) stack) := by
  obtain ⟨first', key', hrun⟩ := run_commaLines isFinite stack hindent ms first members
    key (lastLines indent close m)
  rw [hrun, run_lastLines isFinite stack hindent hclose, List.map_append, List.append_assoc]
  rfl

/-- If the last lines of an object are the end of a text, it is the outermost object that they
close, whatever came before them. -/
theorem rooted_lines {first : List (List Char × Value)} {s t : State} (hs : Rooted first s)
    (ms : List Member) (m : Member)
    (hrun : run isFinite s (commaLines indent ms ++ lastLines indent close m) = some t)
    {v : Value} (hfinish : finish isFinite t = some v) :
    ∃ more, v = .obj (first ++ more ++ (ms ++ [m]).map Member.pair) := by
  obtain ⟨name, rest, hname, htext⟩ := exists_name indent close ms m
  have hline := hrun
  rw [htext] at hline
  cases hs with
  | @closed members hm =>
    -- nothing but blanks may follow the outermost object
    have hbreak : Spaces ('\n' :: indent) := List.forall_mem_cons.mpr ⟨rfl, hindent⟩
    have hblank (c : Char) (hc : isSpace c = true) :
        step isFinite ⟨.finished (.obj members), []⟩ c =
          some ⟨.finished (.obj members), []⟩ := if_pos hc
    cases (run_quote_none hblank rfl hbreak).symm.trans hline
  | @going mode upper members key hmode hm =>
    obtain ⟨b, members', key', stack, hstate⟩ := key_of_run hmode hindent hname hline
    rw [hstate, run_lines isFinite stack hindent hclose] at hrun
    cases hrun
    match stack with
    | .arr _ :: _ | .obj _ _ :: _ =>
      -- something else is still open at the end of the text
      cases hfinish
    | [] =>
      have hroot : members = members' := by
        have hframe := congrArg (fun s => s.stack.getLast?) hstate
        rw [List.getLast?_concat, List.getLast?_singleton] at hframe
        cases hframe
        rfl
      obtain ⟨more, rfl⟩ := hm
      cases hfinish
      exact ⟨more, by rw [← hroot]⟩

end Machine

/-- The machine can be relied on. -/
theorem isReader_parse (isFinite : List Char → Bool) : IsReader (parse isFinite) where
  whole indent close ms m hindent hclose := by
    have hopen : step isFinite ⟨.value false, []⟩ '{' = some ⟨.key true, [.obj [] []]⟩ := rfl
    rw [parse, run_cons, hopen, Option.bind_some, run_lines isFinite [] hindent hclose,
      List.nil_append]
    rfl
  framed before indent close first last m text v hbefore hindent hclose h := by
    have hspace (c : Char) (hc : isSpace c = true) : step isFinite ⟨.value false, []⟩ c =
        some ⟨.value false, []⟩ := if_pos hc
    have hopen : step isFinite ⟨.value false, []⟩ '{' = some ⟨.key true, [.obj [] []]⟩ := rfl
    obtain ⟨t, hrun, hfinish⟩ := Option.bind_eq_some_iff.mp h
    obtain ⟨b, key, hfirst⟩ := run_commaLines isFinite [] hindent first true [] []
      (text ++ (commaLines indent last ++ lastLines indent close m))
    rw [run_spaces hspace hbefore, run_cons, hopen, Option.bind_some, hfirst, run_append] at hrun
    obtain ⟨s, hs, hlast⟩ := Option.bind_eq_some_iff.mp hrun
    have hbegins : Rooted (first.map Member.pair)
        ⟨.key b, [.obj ([] ++ first.map Member.pair) key]⟩ :=
      .going [] key trivial (List.prefix_refl _)
    exact rooted_lines isFinite hindent hclose (rooted_run hbegins hs) last m hlast hfinish

end GravitalShare.JsonText
