import Mathlib
import SignalScript.Layout

namespace SignalScript

/-!
The parts of a notation, and a layout that works on parts.

A notation is made of characters that stand outside quotation marks and of quoted texts.  A quoted
text is one part from its opening mark to its closing one, where a character behind a backslash
closes nothing, and to the end of the notation if no mark closes it.  Every text has parts in this
sense, and they are determined by the text.

The layout of a text goes character by character and keeps track of the quotation marks as it
goes.  Here it is compared with a layout that is given the parts and moves a quoted text as a
whole.  The two agree on every text, and what comes out has the parts that the second one writes.
So nothing inside a quoted text is ever touched, and no quotation mark comes to stand differently.
-/

namespace Layout

/-! ## Quoted texts -/

/-- What stands behind the opening mark of a quoted text that is closed.  It ends with a mark that
has no backslash of its own. -/
inductive Closed : List Char -> Prop
  | mark : Closed ['\'']
  | escape {rest : List Char} (c : Char) : Closed rest -> Closed ('\\' :: c :: rest)
  | plain {c : Char} {rest : List Char} :
      c ≠ '\'' -> c ≠ '\\' -> Closed rest -> Closed (c :: rest)

/-- What stands behind the opening mark of a quoted text that the end of the notation cuts off. -/
inductive CutOff : List Char -> Prop
  | ended : CutOff []
  | backslash : CutOff ['\\']
  | escape {rest : List Char} (c : Char) : CutOff rest -> CutOff ('\\' :: c :: rest)
  | plain {c : Char} {rest : List Char} :
      c ≠ '\'' -> c ≠ '\\' -> CutOff rest -> CutOff (c :: rest)

/-- The number of characters that belong to a quoted text, behind its opening mark. -/
def quotedWidth : List Char -> Nat
  | [] => 0
  | '\'' :: _ => 1
  | '\\' :: _ :: rest => quotedWidth rest + 2
  | _ :: rest => quotedWidth rest + 1

theorem quotedWidth_plain {c : Char} (mark : c ≠ '\'') (backslash : c ≠ '\\') (rest : List Char) :
    quotedWidth (c :: rest) = quotedWidth rest + 1 := by
  cases rest with
  | nil => simp [quotedWidth]
  | cons d rest => simp [quotedWidth, backslash]

/-- A quoted text that is closed ends there, whatever follows. -/
theorem Closed.quotedWidth_append {inside : List Char} (closed : Closed inside)
    (after : List Char) : quotedWidth (inside ++ after) = inside.length := by
  induction closed with
  | mark => rfl
  | escape c _ inductionHypothesis =>
      rw [List.cons_append, List.cons_append, quotedWidth, inductionHypothesis]
      rfl
  | plain mark backslash _ inductionHypothesis =>
      rw [List.cons_append, quotedWidth_plain mark backslash, inductionHypothesis]
      rfl

theorem Closed.ends {inside : List Char} (closed : Closed inside) :
    exists front, inside = front ++ ['\''] := by
  induction closed with
  | mark => exact ⟨[], rfl⟩
  | escape c _ inductionHypothesis =>
      rcases inductionHypothesis with ⟨front, rfl⟩
      exact ⟨'\\' :: c :: front, rfl⟩
  | @plain c _ _ _ _ inductionHypothesis =>
      rcases inductionHypothesis with ⟨front, rfl⟩
      exact ⟨c :: front, rfl⟩

/-- A quoted text that is cut off takes everything. -/
theorem CutOff.quotedWidth_eq {inside : List Char} (cutOff : CutOff inside) :
    quotedWidth inside = inside.length := by
  induction cutOff with
  | ended => rfl
  | backslash => rfl
  | escape c _ inductionHypothesis =>
      rw [quotedWidth, inductionHypothesis]
      rfl
  | plain mark backslash _ inductionHypothesis =>
      rw [quotedWidth_plain mark backslash, inductionHypothesis]
      rfl

/-- Every text continues a quoted text, up to its mark or to the end. -/
theorem closed_or_cutOff (text : List Char) :
    Closed (text.take (quotedWidth text)) ∨ CutOff text := by
  fun_induction quotedWidth text with
  | case1 => exact Or.inr .ended
  | case2 rest => exact Or.inl .mark
  | case3 c rest inductionHypothesis =>
      exact inductionHypothesis.imp (.escape c) (.escape c)
  | case4 c rest mark backslash inductionHypothesis =>
      by_cases alone : c = '\\'
      · cases rest with
        | nil => exact Or.inr (alone ▸ .backslash)
        | cons d rest => exact absurd rfl (backslash d rest alone)
      · exact inductionHypothesis.imp (.plain mark alone) (.plain mark alone)

/-! ## Parts -/

/-- A part of a notation: a character outside quotation marks, or a quoted text with its marks. -/
inductive Part where
  | bare (c : Char)
  | quoted (text : List Char)
deriving DecidableEq

namespace Part

/-- A part as it stands in the notation. -/
def text : Part -> List Char
  | bare c => [c]
  | quoted text => text

/-- Blanks count only outside quotation marks. -/
def isBlank : Part -> Bool
  | bare c => Text.isBlank c
  | quoted _ => false

/-- A part that means the same whatever follows it. -/
def Whole : Part -> Prop
  | bare c => c ≠ '\''
  | quoted text => exists inside, text = '\'' :: inside ∧ Closed inside

end Part

/-- The parts of a text in order. -/
def parts : List Char -> List Part
  | [] => []
  | c :: rest =>
      if c = '\'' then
        .quoted (c :: rest.take (quotedWidth rest)) :: parts (rest.drop (quotedWidth rest))
      else
        .bare c :: parts rest
termination_by text => text.length
decreasing_by
  all_goals simp only [List.length_drop, List.length_cons]
  all_goals omega

/-- Parts that can stand in a row.  Only the last of them may be cut off. -/
inductive Legible : List Part -> Prop
  | nothing : Legible []
  | cutOff {inside : List Char} : CutOff inside -> Legible [.quoted ('\'' :: inside)]
  | whole {part : Part} {row : List Part} : part.Whole -> Legible row -> Legible (part :: row)

/-- A row of parts as one text. -/
def unparted (row : List Part) : List Char :=
  row.flatMap Part.text

@[simp] theorem unparted_nil : unparted [] = [] := rfl

@[simp] theorem unparted_cons (part : Part) (row : List Part) :
    unparted (part :: row) = part.text ++ unparted row := rfl

theorem parts_bare {c : Char} (plain : c ≠ '\'') (rest : List Char) :
    parts (c :: rest) = .bare c :: parts rest := by
  rw [parts, if_neg plain]

theorem parts_closed {inside : List Char} (closed : Closed inside) (after : List Char) :
    parts ('\'' :: (inside ++ after)) = .quoted ('\'' :: inside) :: parts after := by
  rw [parts, if_pos rfl, closed.quotedWidth_append, List.take_left, List.drop_left]

theorem parts_cutOff {inside : List Char} (cutOff : CutOff inside) :
    parts ('\'' :: inside) = [.quoted ('\'' :: inside)] := by
  rw [parts, if_pos rfl, cutOff.quotedWidth_eq, List.take_length, List.drop_length, parts]

theorem legible_parts (text : List Char) : Legible (parts text) := by
  fun_induction parts text with
  | case1 => exact .nothing
  | case2 rest inductionHypothesis =>
      rcases closed_or_cutOff rest with closed | cutOff
      · exact .whole ⟨_, rfl, closed⟩ inductionHypothesis
      · rw [cutOff.quotedWidth_eq, List.take_length, List.drop_length, parts]
        exact .cutOff cutOff
  | case3 c rest plain inductionHypothesis => exact .whole plain inductionHypothesis

theorem unparted_parts (text : List Char) : unparted (parts text) = text := by
  fun_induction parts text with
  | case1 => rfl
  | case2 rest inductionHypothesis =>
      rw [unparted_cons, inductionHypothesis, Part.text, List.cons_append,
        List.take_append_drop]
  | case3 c rest plain inductionHypothesis =>
      rw [unparted_cons, inductionHypothesis, Part.text, List.singleton_append]

theorem parts_unparted {row : List Part} (legible : Legible row) :
    parts (unparted row) = row := by
  induction legible with
  | nothing => rw [unparted_nil, parts]
  | cutOff cutOff =>
      rw [unparted_cons, unparted_nil, List.append_nil, Part.text, parts_cutOff cutOff]
  | @whole part row whole _ inductionHypothesis =>
      rw [unparted_cons]
      cases part with
      | bare c => rw [Part.text, List.singleton_append, parts_bare whole, inductionHypothesis]
      | quoted text =>
          rcases whole with ⟨inside, rfl, closed⟩
          rw [Part.text, List.cons_append, parts_closed closed, inductionHypothesis]

/-! ## Parts laid out -/

/-- What has been laid out so far, part by part and in reverse, and the number of brackets that are
still open. -/
structure Draft where
  written : List Part
  opened : Nat

/-- Start a new line in place of the blanks written last. -/
def newRow (opened : Nat) (written : List Part) : List Part :=
  List.replicate (2 * opened) (.bare ' ') ++ .bare '\n' :: written.dropWhile Part.isBlank

/-- Lay out one more part. -/
def Draft.put (draft : Draft) (part : Part) : Draft :=
  if part = .bare '[' then
    { written := part ::
        if 0 < draft.opened then newRow draft.opened draft.written else draft.written
      opened := draft.opened + 1 }
  else if part = .bare ']' then
    { written := part :: draft.written, opened := draft.opened - 1 }
  else
    { written := part :: draft.written, opened := draft.opened }

/-- Lay out a row of parts. -/
def draftOf (row : List Part) : Draft :=
  row.foldl Draft.put { written := [], opened := 0 }

/-- The parts of a layout in order. -/
def lay (row : List Part) : List Part :=
  (draftOf row).written.reverse

theorem put_bracket (draft : Draft) :
    draft.put (.bare '[') =
      { written := .bare '[' ::
          if 0 < draft.opened then newRow draft.opened draft.written else draft.written
        opened := draft.opened + 1 } :=
  if_pos rfl

theorem put_quoted (draft : Draft) (text : List Char) :
    draft.put (.quoted text) =
      { written := .quoted text :: draft.written, opened := draft.opened } := by
  rw [Draft.put, if_neg nofun, if_neg nofun]

theorem put_other {part : Part} (draft : Draft) (opens : part ≠ .bare '[')
    (closes : part ≠ .bare ']') :
    draft.put part = { written := part :: draft.written, opened := draft.opened } := by
  rw [Draft.put, if_neg opens, if_neg closes]

/-- Whatever is put, it is written behind what was there or behind a new row. -/
theorem written_put (draft : Draft) (part : Part) :
    (draft.put part).written = part :: draft.written ∨
      part = .bare '[' ∧ 0 < draft.opened ∧
        (draft.put part).written = part :: newRow draft.opened draft.written := by
  by_cases opens : part = .bare '['
  · subst opens
    rw [put_bracket]
    by_cases inner : 0 < draft.opened
    · rw [if_pos inner]
      exact Or.inr ⟨rfl, inner, rfl⟩
    · rw [if_neg inner]
      exact Or.inl rfl
  · rw [Draft.put, if_neg opens]
    split <;> exact Or.inl rfl

/-- Nothing but whole parts are written while whole parts are put. -/
theorem whole_put {draft : Draft} {part : Part}
    (earlier : forall other, other ∈ draft.written -> other.Whole) (whole : part.Whole) :
    forall other, other ∈ (draft.put part).written -> other.Whole := by
  intro other member
  rcases written_put draft part with same | ⟨_, _, same⟩
  · rw [same, List.mem_cons] at member
    rcases member with rfl | member
    · exact whole
    · exact earlier other member
  · rw [same, List.mem_cons, newRow, List.mem_append, List.mem_cons] at member
    rcases member with rfl | spaces | rfl | member
    · exact whole
    · rw [(List.mem_replicate.mp spaces).2]
      exact (by decide : ' ' ≠ '\'')
    · exact (by decide : '\n' ≠ '\'')
    · exact earlier other ((List.dropWhile_sublist _).subset member)

theorem Legible.append {front back : List Part} (whole : forall part, part ∈ front -> part.Whole)
    (legible : Legible back) : Legible (front ++ back) := by
  induction front with
  | nil => exact legible
  | cons part front inductionHypothesis =>
      exact .whole (whole part List.mem_cons_self)
        (inductionHypothesis fun other member => whole other (List.mem_cons_of_mem _ member))

/-- Putting a legible row behind whole parts gives a legible row. -/
theorem Legible.foldl_put {row : List Part} (legible : Legible row) {draft : Draft}
    (earlier : forall part, part ∈ draft.written -> part.Whole) :
    Legible (row.foldl Draft.put draft).written.reverse := by
  induction legible generalizing draft with
  | nothing =>
      rw [List.foldl_nil, ← List.append_nil draft.written.reverse]
      exact Legible.append (fun part member => earlier part (List.mem_reverse.mp member)) .nothing
  | cutOff cutOff =>
      rw [List.foldl_cons, List.foldl_nil, put_quoted, List.reverse_cons]
      exact Legible.append (fun part member => earlier part (List.mem_reverse.mp member))
        (.cutOff cutOff)
  | whole whole _ inductionHypothesis =>
      exact inductionHypothesis (whole_put earlier whole)

theorem legible_lay {row : List Part} (legible : Legible row) : Legible (lay row) :=
  legible.foldl_put nofun

/-! ## Characters and parts -/

/-- Parts in reverse, read backward. -/
def backward (written : List Part) : List Char :=
  written.flatMap fun part => part.text.reverse

@[simp] theorem backward_cons (part : Part) (written : List Part) :
    backward (part :: written) = part.text.reverse ++ backward written := rfl

theorem backward_reverse (written : List Part) :
    (backward written).reverse = unparted written.reverse := by
  rw [backward, unparted, List.reverse_flatMap]
  simp [Function.comp_def]

/-- What a layout of characters has written is what a layout of parts has written. -/
structure Keeps (state : State) (draft : Draft) : Prop where
  written : state.written = backward draft.written
  opened : state.opened = draft.opened
  mode : state.mode = .outside
  whole : forall part, part ∈ draft.written -> part.Whole

/-- Trimming stops at a quoted text, because that ends with a mark. -/
theorem dropWhile_written {written : List Part}
    (whole : forall part, part ∈ written -> part.Whole) :
    (backward written).dropWhile Text.isBlank = backward (written.dropWhile Part.isBlank) := by
  induction written with
  | nil => rfl
  | cons part written inductionHypothesis =>
      have earlier := inductionHypothesis fun other member =>
        whole other (List.mem_cons_of_mem _ member)
      cases part with
      | bare c =>
          cases blank : Text.isBlank c with
          | true => simpa [Part.text, Part.isBlank, blank] using earlier
          | false => simp [Part.text, Part.isBlank, blank]
      | quoted text =>
          rcases whole (.quoted text) List.mem_cons_self with ⟨inside, rfl, closed⟩
          rcases closed.ends with ⟨front, rfl⟩
          have mark : Text.isBlank '\'' = false := by decide
          simp [Part.text, Part.isBlank, mark]

theorem step_plain {c : Char} (mark : c ≠ '\'') (backslash : c ≠ '\\') (written : List Char)
    (opened : Nat) :
    step ⟨written, opened, .quoted⟩ c = ⟨c :: written, opened, .quoted⟩ := by
  rw [step, Mode.after, if_neg backslash, if_neg mark]

/-- Quoted characters are copied, and the closing mark ends the quotation. -/
theorem Closed.foldl_step {inside : List Char} (closed : Closed inside) (written : List Char)
    (opened : Nat) :
    inside.foldl step ⟨written, opened, .quoted⟩ =
      ⟨inside.reverse ++ written, opened, .outside⟩ := by
  induction closed generalizing written with
  | mark => rfl
  | escape c _ inductionHypothesis =>
      rw [List.foldl_cons, List.foldl_cons, List.reverse_cons, List.reverse_cons,
        List.append_assoc, List.append_assoc]
      exact inductionHypothesis (c :: '\\' :: written)
  | plain mark backslash _ inductionHypothesis =>
      rw [List.foldl_cons, List.reverse_cons, List.append_assoc, step_plain mark backslash]
      exact inductionHypothesis (_ :: written)

theorem CutOff.foldl_step {inside : List Char} (cutOff : CutOff inside) (written : List Char)
    (opened : Nat) :
    (inside.foldl step ⟨written, opened, .quoted⟩).written = inside.reverse ++ written := by
  induction cutOff generalizing written with
  | ended => rfl
  | backslash => rfl
  | escape c _ inductionHypothesis =>
      rw [List.foldl_cons, List.foldl_cons, List.reverse_cons, List.reverse_cons,
        List.append_assoc, List.append_assoc]
      exact inductionHypothesis (c :: '\\' :: written)
  | plain mark backslash _ inductionHypothesis =>
      rw [List.foldl_cons, List.reverse_cons, List.append_assoc, step_plain mark backslash]
      exact inductionHypothesis (_ :: written)

/-- A new line is started in the same place. -/
theorem breakLine_eq {written : List Part} (opened : Nat)
    (whole : forall part, part ∈ written -> part.Whole) :
    breakLine opened (backward written) = backward (newRow opened written) := by
  rw [breakLine, newRow, dropWhile_written whole, backward, backward, List.flatMap_append]
  simp [Part.text, List.flatMap_replicate]

theorem step_mark (written : List Char) (opened : Nat) :
    step ⟨written, opened, .outside⟩ '\'' = ⟨'\'' :: written, opened, .quoted⟩ := rfl

/-- Outside quotation marks only brackets are not just copied. -/
theorem step_outside {c : Char} (mark : c ≠ '\'') (opens : c ≠ '[') (closes : c ≠ ']')
    (written : List Char) (opened : Nat) :
    step ⟨written, opened, .outside⟩ c = ⟨c :: written, opened, .outside⟩ := by
  rw [step, if_neg opens, if_neg closes, Mode.after, if_neg mark]

theorem step_bracket (draft : Draft) (whole : forall part, part ∈ draft.written -> part.Whole) :
    step ⟨backward draft.written, draft.opened, .outside⟩ '[' =
      ⟨backward (draft.put (.bare '[')).written, draft.opened + 1, .outside⟩ := by
  rw [put_bracket, backward_cons]
  split
  next inner =>
    rw [← breakLine_eq draft.opened whole, step, if_pos rfl, if_pos inner]
    rfl
  next outer =>
    rw [step, if_pos rfl, if_neg outer]
    rfl

/-- The layout of characters passes over a whole part as the layout of parts does. -/
theorem Keeps.put {state : State} {draft : Draft} {part : Part} (keeps : Keeps state draft)
    (whole : part.Whole) : Keeps (part.text.foldl step state) (draft.put part) := by
  have earlier := whole_put keeps.whole whole
  rcases state with ⟨written, opened, mode⟩
  rcases keeps with ⟨rfl, rfl, rfl, before⟩
  cases part with
  | bare c =>
      rw [Part.text, List.foldl_cons, List.foldl_nil]
      by_cases opens : c = '['
      · subst opens
        rw [step_bracket draft before]
        exact ⟨rfl, rfl, rfl, earlier⟩
      · by_cases closes : c = ']'
        · subst closes
          exact ⟨rfl, rfl, rfl, earlier⟩
        · have put := put_other draft (mt Part.bare.inj opens) (mt Part.bare.inj closes)
          rw [put] at earlier ⊢
          rw [step_outside whole opens closes]
          exact ⟨rfl, rfl, rfl, earlier⟩
  | quoted text =>
      rcases whole with ⟨inside, rfl, closed⟩
      rw [put_quoted] at earlier ⊢
      rw [Part.text, List.foldl_cons, step_mark, closed.foldl_step]
      refine ⟨?_, rfl, rfl, earlier⟩
      rw [backward_cons, Part.text, List.reverse_cons, List.append_assoc]
      rfl

/-- The layouts write the same. -/
theorem Keeps.foldl {row : List Part} (legible : Legible row) {state : State} {draft : Draft}
    (keeps : Keeps state draft) :
    ((unparted row).foldl step state).written = backward (row.foldl Draft.put draft).written := by
  induction legible generalizing state draft with
  | nothing => exact keeps.written
  | cutOff cutOff =>
      rcases state with ⟨written, opened, mode⟩
      rcases keeps with ⟨rfl, rfl, rfl, _⟩
      rw [unparted_cons, unparted_nil, List.append_nil, Part.text, List.foldl_cons, step_mark,
        cutOff.foldl_step, List.foldl_cons, List.foldl_nil, put_quoted, backward_cons, Part.text,
        List.reverse_cons, List.append_assoc]
      rfl
  | whole whole _ inductionHypothesis =>
      rw [unparted_cons, List.foldl_append, List.foldl_cons]
      exact inductionHypothesis (keeps.put whole)

/-- A text is laid out part by part. -/
theorem spread_eq (text : List Char) : spread text = unparted (lay (parts text)) := by
  have begun : Keeps ⟨[], 0, .outside⟩ ⟨[], 0⟩ := ⟨rfl, rfl, rfl, nofun⟩
  have written := begun.foldl (legible_parts text)
  rw [unparted_parts] at written
  rw [spread, written, backward_reverse]
  rfl

/-- The parts of a layout are those that were laid out. -/
theorem parts_spread (text : List Char) : parts (spread text) = lay (parts text) := by
  rw [spread_eq]
  exact parts_unparted (legible_lay (legible_parts text))

end Layout
end SignalScript
