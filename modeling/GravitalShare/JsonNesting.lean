import GravitalShare.JsonText

/-! What a text that is put between two others can do to the whole. It cannot take back a member
of the outermost object, and if a line with a member follows, it must have left the machine in an
object. -/
namespace GravitalShare.JsonText

variable {isFinite : List Char → Bool} {s t : State} {c : Char}

/-- A mode in which the outermost value is still being read. No literal has a line break in it. -/
def Mode.Going : Mode → Prop
  | .finished _ => False
  | .literal rest _ => '\n' ∉ rest
  | _ => True

/-- The outermost value is an object that begins with the members `ms`. -/
inductive Rooted (ms : List (List Char × Value)) : State → Prop
  | going {mode : Mode} (upper : List Frame) {members : List (List Char × Value)}
      (key : List Char) (hmode : mode.Going) (hm : ms <+: members) :
    Rooted ms ⟨mode, upper ++ [.obj members key]⟩
  | closed {members : List (List Char × Value)} (hm : ms <+: members) :
    Rooted ms ⟨.finished (.obj members), []⟩

section Keep

variable {ms members : List (List Char × Value)}

/-- A value for what is open leaves the beginning of the outermost object alone. -/
theorem rooted_deliver (v : Value) (upper : List Frame) (key : List Char) (hm : ms <+: members) :
    Rooted ms (deliver v (upper ++ [.obj members key])) := by
  match upper with
  | [] => exact .going [] key trivial (hm.trans (List.prefix_append _ _))
  | .arr elements :: upper => exact .going (.arr (elements ++ [v]) :: upper) key trivial hm
  | .obj members' key' :: upper =>
    exact .going (.obj (members' ++ [(key', v)]) key' :: upper) key trivial hm

theorem rooted_closeArray {upper : List Frame} {key : List Char} (hm : ms <+: members)
    (h : closeArray (upper ++ [.obj members key]) = some t) : Rooted ms t := by
  match upper with
  | [] | .obj _ _ :: _ => cases h
  | .arr elements :: upper =>
    cases h
    exact rooted_deliver _ upper key hm

theorem rooted_closeObject {upper : List Frame} {key : List Char} (hm : ms <+: members)
    (h : closeObject (upper ++ [.obj members key]) = some t) : Rooted ms t := by
  match upper with
  | [] =>
    cases h
    exact .closed hm
  | .arr _ :: _ => cases h
  | .obj members' key' :: upper =>
    cases h
    exact rooted_deliver _ upper key hm

theorem rooted_openFrame {upper : List Frame} {key : List Char} {f : Frame} {mode : Mode}
    (hmode : mode.Going) (hm : ms <+: members)
    (h : openFrame f mode (upper ++ [.obj members key]) = some t) : Rooted ms t := by
  rw [openFrame] at h
  split_ifs at h
  cases h
  exact .going (f :: upper) key hmode hm

theorem rooted_valueStep {first : Bool} {upper : List Frame} {key : List Char}
    (hm : ms <+: members) (h : valueStep first (upper ++ [.obj members key]) c = some t) :
    Rooted ms t := by
  have hliteral (rest : List Char) (v : Value) (hq : '\n' ∉ rest)
      (h : some (State.mk (.literal rest v) (upper ++ [.obj members key])) = some t) :
      Rooted ms t := by
    cases h
    exact .going upper key hq hm
  rw [valueStep] at h
  split_ifs at h
  · cases h
    exact .going upper key trivial hm
  · cases h
    exact .going upper key trivial hm
  · exact rooted_openFrame (by exact trivial) hm h
  · exact rooted_openFrame (by exact trivial) hm h
  · exact rooted_closeArray hm h
  · exact hliteral _ _ (by decide) h
  · exact hliteral _ _ (by decide) h
  · exact hliteral _ _ (by decide) h
  · obtain ⟨pos, -, rfl⟩ := Option.map_eq_some_iff.mp h
    exact .going upper key trivial hm

theorem rooted_keyStep {first : Bool} {upper : List Frame} {key : List Char}
    (hm : ms <+: members) (h : keyStep first (upper ++ [.obj members key]) c = some t) :
    Rooted ms t := by
  rw [keyStep] at h
  split_ifs at h
  · cases h
    exact .going upper key trivial hm
  · cases h
    exact .going upper key trivial hm
  · exact rooted_closeObject hm h

theorem rooted_completeStep (hs : Rooted ms s) (h : completeStep s c = some t) : Rooted ms t := by
  rw [completeStep] at h
  cases hs with
  | going upper key hmode hm =>
    split_ifs at h
    · cases h
      exact .going upper key hmode hm
    · dsimp only at h
      split at h
      · cases h
        exact .going upper key trivial hm
      · cases h
        exact .going upper key trivial hm
      · cases h
    · exact rooted_closeArray hm h
    · exact rooted_closeObject hm h
  | closed hm =>
    split_ifs at h
    · cases h
      exact .closed hm
    all_goals cases h

theorem rooted_closeString {isKey : Bool} {acc : List Char} {upper : List Frame} {key : List Char}
    (hm : ms <+: members) (h : closeString isKey acc (upper ++ [.obj members key]) = some t) :
    Rooted ms t := by
  cases isKey with
  | false =>
    cases h
    exact rooted_deliver _ upper key hm
  | true =>
    match upper with
    | [] =>
      cases h
      exact .going [] acc trivial hm
    | .arr _ :: _ => cases h
    | .obj members' _ :: upper =>
      cases h
      exact .going (.obj members' acc :: upper) key trivial hm

theorem rooted_step (hs : Rooted ms s) (h : step isFinite s c = some t) : Rooted ms t := by
  cases hs with
  | closed hm => exact rooted_completeStep (.closed hm) h
  | @going mode upper members key hmode hm =>
    match mode with
    | .value first => exact rooted_valueStep hm h
    | .key first => exact rooted_keyStep hm h
    | .colon =>
      dsimp only [step] at h
      split_ifs at h
      · cases h
        exact .going upper key trivial hm
      · cases h
        exact .going upper key trivial hm
    | .complete => exact rooted_completeStep (.going upper key hmode hm) h
    | .finished v => exact hmode.elim
    | .string isKey pos acc =>
      have hgoes (h : (stringStep acc c pos).map (fun q =>
          State.mk (.string isKey q.1 q.2) (upper ++ [.obj members key])) = some t) :
          Rooted ms t := by
        obtain ⟨_, -, rfl⟩ := Option.map_eq_some_iff.mp h
        exact .going upper key trivial hm
      cases pos with
      | plain =>
        dsimp only [step] at h
        split_ifs at h
        · exact rooted_closeString hm h
        · exact hgoes h
      | escape | hex _ _ _ | lowEscape _ | lowHex _ => exact hgoes h
    | .number pos acc =>
      dsimp only [step] at h
      split at h
      · cases h
        exact .going upper key trivial hm
      · obtain ⟨v, -, hv⟩ := Option.bind_eq_some_iff.mp h
        exact rooted_completeStep (rooted_deliver v upper key hm) hv
    | .literal [] v => cases h
    | .literal (expected :: rest) v =>
      dsimp only [step] at h
      split_ifs at h
      · cases h
        exact rooted_deliver v upper key hm
      · cases h
        exact .going upper key (fun hq => hmode (List.mem_cons_of_mem _ hq)) hm

/-- No text takes back what the outermost object begins with. -/
theorem rooted_run {text : List Char} (hs : Rooted ms s) (h : run isFinite s text = some t) :
    Rooted ms t := by
  induction text generalizing s with
  | nil =>
    cases h
    exact hs
  | cons c text ih =>
    rw [run_cons] at h
    obtain ⟨u, hu, hrest⟩ := Option.bind_eq_some_iff.mp h
    exact ih (rooted_step hs hu) hrest

end Keep

section Line

variable {members : List (List Char × Value)} {key : List Char} {stack : List Frame}
  {w name rest : List Char}

theorem run_spaces (hs : ∀ c, isSpace c = true → step isFinite s c = some s)
    (hw : ∀ c ∈ w, isSpace c = true) (rest : List Char) :
    run isFinite s (w ++ rest) = run isFinite s rest := by
  induction w with
  | nil => rfl
  | cons c w ih =>
    rw [List.forall_mem_cons] at hw
    rw [List.cons_append, run_cons, hs c hw.1]
    exact ih hw.2

/-- The name of a member, at the beginning of an object or behind a comma. -/
theorem run_name (first : Bool) (hw : ∀ c ∈ w, isSpace c = true)
    (hname : ∀ c ∈ name, IsPlain c) :
    run isFinite ⟨.key first, .obj members key :: stack⟩
        (w ++ '"' :: (name ++ '"' :: ':' :: rest)) =
      run isFinite ⟨.value false, .obj members name :: stack⟩ rest := by
  have hspace (c : Char) (hc : isSpace c = true) :
      step isFinite ⟨.key first, .obj members key :: stack⟩ c =
        some ⟨.key first, .obj members key :: stack⟩ := if_pos hc
  have hopen : step isFinite ⟨.key first, .obj members key :: stack⟩ '"' =
      some ⟨.string true .plain [], .obj members key :: stack⟩ := rfl
  rw [run_spaces hspace hw, run_cons, hopen, Option.bind_some, run_append, run_plain hname]
  rfl

theorem step_deliver (v : Value) (stack : List Frame) (c : Char) :
    step isFinite (deliver v stack) c = completeStep (deliver v stack) c := by
  match stack with
  | [] | .arr _ :: _ | .obj _ _ :: _ => rfl

/-- Where neither a name nor a text is due, blanks do not help. -/
theorem run_quote_none (hs : ∀ c, isSpace c = true → step isFinite s c = some s)
    (hquote : step isFinite s '"' = none) (hw : ∀ c ∈ w, isSpace c = true) :
    run isFinite s (w ++ '"' :: rest) = none := by
  rw [run_spaces hs hw, run_cons, hquote]
  rfl

/-- If a line that begins with a name follows, whatever came before has left the machine in an
object, where a name is due. -/
theorem key_of_run (hmode : s.mode.Going) (hw : ∀ c ∈ w, isSpace c = true)
    (hname : ∀ c ∈ name, IsPlain c)
    (h : run isFinite s ('\n' :: (w ++ '"' :: (name ++ '"' :: ':' :: rest))) = some t) :
    ∃ first members key stack, s = ⟨.key first, .obj members key :: stack⟩ := by
  obtain ⟨mode, stack⟩ := s
  obtain ⟨u, hu, hrun⟩ := Option.bind_eq_some_iff.mp ((run_cons _ _ _).symm.trans h)
  match mode with
  | .value first =>
    -- the name would be a text, and no text is followed by a colon
    cases hu
    have hspace (c : Char) (hc : isSpace c = true) : step isFinite ⟨.value first, stack⟩ c =
        some ⟨.value first, stack⟩ := if_pos hc
    have hopen : step isFinite ⟨.value first, stack⟩ '"' =
        some ⟨.string false .plain [], stack⟩ := rfl
    rw [run_spaces hspace hw, run_cons, hopen, Option.bind_some, run_string hname, run_cons,
      step_deliver] at hrun
    cases hrun
  | .key first =>
    cases hu
    have hspace (c : Char) (hc : isSpace c = true) : step isFinite ⟨.key first, stack⟩ c =
        some ⟨.key first, stack⟩ := if_pos hc
    have hopen : step isFinite ⟨.key first, stack⟩ '"' =
        some ⟨.string true .plain [], stack⟩ := rfl
    rw [run_spaces hspace hw, run_cons, hopen, Option.bind_some, run_append, run_plain hname,
      Option.bind_some] at hrun
    match stack with
    | [] | .arr _ :: _ => cases hrun
    | .obj members key :: stack => exact ⟨first, members, key, stack, rfl⟩
  | .colon =>
    cases hu
    have hspace (c : Char) (hc : isSpace c = true) : step isFinite ⟨.colon, stack⟩ c =
        some ⟨.colon, stack⟩ := if_pos hc
    cases (run_quote_none hspace rfl hw).symm.trans hrun
  | .complete =>
    cases hu
    have hspace (c : Char) (hc : isSpace c = true) : step isFinite ⟨.complete, stack⟩ c =
        some ⟨.complete, stack⟩ := if_pos hc
    cases (run_quote_none hspace rfl hw).symm.trans hrun
  | .finished _ => exact hmode.elim
  | .string isKey pos acc => cases pos <;> cases hu
  | .number pos acc =>
    have hpos : numberStep '\n' pos = none := by cases pos <;> rfl
    dsimp only [step] at hu
    rw [hpos] at hu
    obtain ⟨v, -, hv⟩ := Option.bind_eq_some_iff.mp hu
    cases hv
    have hspace (c : Char) (hc : isSpace c = true) : step isFinite (deliver v stack) c =
        some (deliver v stack) := (step_deliver v stack c).trans (if_pos hc)
    cases (run_quote_none hspace (step_deliver v stack '"') hw).symm.trans hrun
  | .literal [] _ => cases hu
  | .literal (expected :: _) _ =>
    have hne : '\n' ≠ expected := by
      rintro rfl
      exact hmode List.mem_cons_self
    dsimp only [step] at hu
    rw [if_pos hne] at hu
    cases hu

end Line

end GravitalShare.JsonText
