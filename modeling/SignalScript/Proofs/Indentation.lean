import Mathlib
import SignalScript.Proofs.Notation
import SignalScript.Proofs.Spreading

namespace SignalScript

/-!
The layout of the notation of a tree.

Every form inside another one stands behind a comma and one space.  The layout makes a new line of
that space, and this is all it does to the notation of a tree.  So the notation is got back when
every new line is joined to the line before it, and a new line is always the one of a bracket,
indented by the brackets around it.

A name or a literal text may hold brackets, commas, backslashes and quotation marks.  They do not
matter, because every such text is one quoted part of the notation.
-/

namespace Layout

/-! ## How a page is judged -/

/-- A page on one line.  A new line and the spaces behind it become one space, outside quotation
marks. -/
def joined : List Part -> List Part
  | [] => []
  | part :: rest =>
      if part = .bare '\n' then .bare ' ' :: joined (rest.dropWhile (· = .bare ' '))
      else part :: joined rest
termination_by row => row.length
decreasing_by
  · exact Nat.lt_succ_of_le (List.dropWhile_sublist _).length_le
  · exact Nat.lt_succ_self _

/-- The number of brackets that are still open behind a row. -/
def unclosed (row : List Part) : Nat :=
  row.foldl
    (fun count part =>
      if part = .bare '[' then count + 1 else if part = .bare ']' then count - 1 else count) 0

/-- A part that stands on a page as it should, between what is in front of it and what follows. -/
structure Placed (front : List Part) (part : Part) (rest : List Part) : Prop where
  /-- A bracket that is not the first starts its line, indented by the brackets around it. -/
  bracket : part = .bare '[' -> .bare '[' ∈ front ->
    exists earlier, front = earlier ++ rowStart (unclosed front)
  /-- A new line is the one of such a bracket. -/
  newline : part = .bare '\n' -> .bare '[' ∈ front ∧
    exists later, part :: rest = rowStart (unclosed front) ++ .bare '[' :: later

/-- A page that lays out a text. -/
structure LaysOut (text page : List Char) : Prop where
  restored : unparted (joined (parts page)) = text
  placed : forall front part rest, parts page = front ++ part :: rest -> Placed front part rest

theorem joined_newline (rest : List Part) :
    joined (.bare '\n' :: rest) =
      .bare ' ' :: joined (rest.dropWhile (· = .bare ' ')) := by
  rw [joined, if_pos rfl]

theorem joined_other {part : Part} (other : part ≠ .bare '\n') (rest : List Part) :
    joined (part :: rest) = part :: joined rest := by
  rw [joined, if_neg other]

theorem unclosed_snoc (row : List Part) (part : Part) :
    unclosed (row ++ [part]) =
      if part = .bare '[' then unclosed row + 1
      else if part = .bare ']' then unclosed row - 1
      else unclosed row := by
  rw [unclosed, List.foldl_append]
  rfl

theorem unclosed_append_blanks {row blanks : List Part}
    (blank : forall part, part ∈ blanks -> part.isBlank = true) :
    unclosed (row ++ blanks) = unclosed row := by
  induction blanks using List.reverseRecOn with
  | nil => rw [List.append_nil]
  | append_singleton blanks part inductionHypothesis =>
      have last := blank part (by simp)
      rw [← List.append_assoc, unclosed_snoc, if_neg, if_neg, inductionHypothesis]
      · exact fun other member => blank other (List.mem_append_left _ member)
      · rintro rfl
        exact absurd last (by decide)
      · rintro rfl
        exact absurd last (by decide)

/-! ## Rows and their pages -/

/-- How a row is laid out inside brackets.  The numbers are those of the open brackets before and
behind it. -/
inductive Lays : Nat -> List Part -> List Part -> Nat -> Prop
  | nothing (depth : Nat) : Lays depth [] [] depth
  | copied {part : Part} {row page : List Part} {depth last : Nat} :
      part ≠ .bare '[' -> part ≠ .bare ']' -> part ≠ .bare '\n' -> Lays depth row page last ->
      Lays depth (part :: row) (part :: page) last
  | broken {row page : List Part} {depth last : Nat} : Lays (depth + 2) row page last ->
      Lays (depth + 1) (.bare ',' :: .bare ' ' :: .bare '[' :: row)
        (.bare ',' :: (rowStart (depth + 1) ++ .bare '[' :: page)) last
  | closed {row page : List Part} {depth last : Nat} : Lays depth row page last ->
      Lays (depth + 1) (.bare ']' :: row) (.bare ']' :: page) last

namespace Lays

variable {row page otherRow otherPage : List Part} {depth middle last : Nat}

theorem append (first : Lays depth row page middle) (second : Lays middle otherRow otherPage last) :
    Lays depth (row ++ otherRow) (page ++ otherPage) last := by
  induction first with
  | nothing => exact second
  | copied opens closes newline _ inductionHypothesis =>
      exact .copied opens closes newline (inductionHypothesis second)
  | broken _ inductionHypothesis =>
      simp only [List.cons_append, List.append_assoc]
      exact .broken (inductionHypothesis second)
  | closed _ inductionHypothesis => exact .closed (inductionHypothesis second)

/-- The page is what the layout writes. -/
theorem foldl_put (lays : Lays depth row page last) (written : List Part) :
    row.foldl Draft.put { written := written, opened := depth } =
      { written := page.reverse ++ written, opened := last } := by
  induction lays generalizing written with
  | nothing => rfl
  | copied opens closes _ _ inductionHypothesis =>
      rw [List.foldl_cons, put_other _ opens closes, inductionHypothesis, List.reverse_cons,
        List.append_assoc, List.singleton_append]
  | @broken row page depth last _ inductionHypothesis =>
      have trimmed : newRow (depth + 1) (.bare ' ' :: .bare ',' :: written) =
          (rowStart (depth + 1)).reverse ++ .bare ',' :: written := by
        rw [newRow_eq]
        rfl
      have comma : Draft.put { written := written, opened := depth + 1 } (.bare ',') =
        { written := .bare ',' :: written, opened := depth + 1 } := rfl
      have space : Draft.put { written := .bare ',' :: written, opened := depth + 1 } (.bare ' ') =
        { written := .bare ' ' :: .bare ',' :: written, opened := depth + 1 } := rfl
      rw [List.foldl_cons, comma, List.foldl_cons, space, List.foldl_cons, put_bracket,
        if_pos (Nat.succ_pos depth), trimmed, inductionHypothesis]
      simp
  | @closed row page depth last _ inductionHypothesis =>
      have closing : Draft.put { written := written, opened := depth + 1 } (.bare ']') =
        { written := .bare ']' :: written, opened := depth } := rfl
      rw [List.foldl_cons, closing, inductionHypothesis, List.reverse_cons, List.append_assoc,
        List.singleton_append]

/-- The row is got back by joining the lines of the page. -/
theorem joined_eq (lays : Lays depth row page last) : joined page = row := by
  induction lays with
  | nothing => rw [joined]
  | copied _ _ newline _ inductionHypothesis => rw [joined_other newline, inductionHypothesis]
  | broken _ inductionHypothesis =>
      rw [joined_other (by decide), rowStart, List.cons_append, joined_newline,
        List.dropWhile_append_of_pos (by simp), List.dropWhile_cons_of_neg (by decide),
        joined_other (by decide), inductionHypothesis]
  | closed _ inductionHypothesis => rw [joined_other (by decide), inductionHypothesis]

end Lays

/-- Every part of a page is placed, given what stands in front of the page. -/
def AllPlaced (front page : List Part) : Prop :=
  forall before part rest, page = before ++ part :: rest -> Placed (front ++ before) part rest

theorem AllPlaced.nil (front : List Part) : AllPlaced front [] :=
  fun _ _ _ same => absurd same (by simp)

theorem AllPlaced.cons {front page : List Part} {part : Part} (first : Placed front part page)
    (others : AllPlaced (front ++ [part]) page) : AllPlaced front (part :: page) := by
  intro before other rest same
  cases before with
  | nil =>
      rcases List.cons.inj same with ⟨rfl, rfl⟩
      rw [List.append_nil]
      exact first
  | cons _ before =>
      rcases List.cons.inj same with ⟨rfl, behind⟩
      have placed := others before other rest behind
      rw [List.append_assoc] at placed
      exact placed

theorem placed_of_ne {part : Part} (opens : part ≠ .bare '[') (newline : part ≠ .bare '\n')
    (front rest : List Part) : Placed front part rest :=
  ⟨fun same => absurd same opens, fun same => absurd same newline⟩

theorem placed_first {part : Part} (newline : part ≠ .bare '\n') (rest : List Part) :
    Placed [] part rest :=
  ⟨fun _ inner => absurd inner List.not_mem_nil, fun same => absurd same newline⟩

theorem quoted_ne_bare (text : List Char) (c : Char) : Part.quoted text ≠ .bare c := by
  intro same
  cases same

theorem AllPlaced.replicate {front page : List Part} (count : Nat)
    (others : AllPlaced (front ++ List.replicate count (.bare ' ')) page) :
    AllPlaced front (List.replicate count (.bare ' ') ++ page) := by
  induction count generalizing front with
  | zero =>
      rw [List.replicate_zero, List.append_nil] at others
      exact others
  | succ count inductionHypothesis =>
      rw [List.replicate_succ, List.append_cons] at others
      exact .cons (placed_of_ne (by decide) (by decide) _ _) (inductionHypothesis others)

/-- A page is placed wherever as many brackets are open as it was laid out for. -/
theorem Lays.allPlaced {row page front : List Part} {depth last : Nat}
    (lays : Lays depth row page last) (inner : .bare '[' ∈ front)
    (opened : unclosed front = depth) : AllPlaced front page := by
  induction lays generalizing front with
  | nothing => exact .nil front
  | copied opens closes newline _ inductionHypothesis =>
      refine .cons (placed_of_ne opens newline _ _) (inductionHypothesis ?_ ?_)
      · exact List.mem_append_left _ inner
      · rw [unclosed_snoc, if_neg opens, if_neg closes, opened]
  | @broken row page depth last _ inductionHypothesis =>
      -- Neither the comma nor a blank is counted, so the bracket finds in front of it the start of
      -- the very row that its own depth asks for.
      have behindComma : unclosed (front ++ [.bare ',']) = depth + 1 := by
        rw [unclosed_snoc, if_neg (by decide), if_neg (by decide), opened]
      have behindStart : unclosed (front ++ [.bare ','] ++ rowStart (depth + 1)) = depth + 1 := by
        rw [unclosed_append_blanks fun part member => isBlank_of_mem_rowStart member, behindComma]
      have innerStart : .bare '[' ∈ front ++ [.bare ','] ++ rowStart (depth + 1) :=
        List.mem_append_left _ (List.mem_append_left _ inner)
      have newline : Placed (front ++ [.bare ',']) (.bare '\n')
          (List.replicate (2 * (depth + 1)) (.bare ' ') ++ .bare '[' :: page) :=
        ⟨fun same => absurd same (by decide),
          fun _ => ⟨List.mem_append_left _ inner, page, by rw [behindComma]; rfl⟩⟩
      have bracket : Placed (front ++ [.bare ','] ++ rowStart (depth + 1)) (.bare '[') page :=
        ⟨fun _ _ => ⟨front ++ [.bare ','], by rw [behindStart]⟩,
          fun same => absurd same (by decide)⟩
      refine .cons (placed_of_ne (by decide) (by decide) _ _) (.cons newline (.replicate _ ?_))
      rw [← List.append_cons]
      refine .cons bracket (inductionHypothesis (List.mem_append_left _ innerStart) ?_)
      rw [unclosed_snoc, if_pos rfl]
      exact congrArg (· + 1) behindStart
  | closed _ inductionHypothesis =>
      refine .cons (placed_of_ne (by decide) (by decide) _ _) (inductionHypothesis ?_ ?_)
      · exact List.mem_append_left _ inner
      · rw [unclosed_snoc, if_neg (by decide), if_pos rfl, opened, Nat.add_sub_cancel]

/-! ## What stands inside brackets -/

/-- Something that can be written inside brackets.  Its parts do not depend on what follows, and it
leaves as many brackets open as there were. -/
def Inside (write : List Char -> List Char) : Prop :=
  exists row, (forall after, parts (write after) = row ++ parts after) ∧
    forall depth, exists page, Lays (depth + 1) row page (depth + 1)

/-- The marks inside are escaped, so that the last one is the first to close the text. -/
theorem closed_escaped (contents : List Char) :
    Closed (contents.flatMap Tree.escape ++ ['\'']) := by
  induction contents with
  | nil => exact .mark
  | cons c contents inductionHypothesis =>
      rw [List.flatMap_cons, List.append_assoc, Tree.escape]
      split
      next => exact .escape c inductionHypothesis
      next plain =>
        exact .plain (fun mark => plain (Or.inr mark)) (fun backslash => plain (Or.inl backslash))
          inductionHypothesis

/-- A quoted name or literal is one part of a notation, whatever it holds. -/
theorem parts_quote (contents after : List Char) :
    parts (Tree.quote contents ++ after) = .quoted (Tree.quote contents) :: parts after := by
  have written := parts_closed (closed_escaped contents) after
  rw [List.append_assoc, List.singleton_append, ← Tree.quote_append, ← Tree.quote_append,
    List.append_nil] at written
  exact written

namespace Inside

variable {first second : List Char -> List Char}

theorem nothing : Inside id :=
  ⟨[], fun _ => rfl, fun _ => ⟨[], .nothing _⟩⟩

theorem comp (front : Inside first) (back : Inside second) : Inside (first ∘ second) := by
  rcases front with ⟨row, written, laid⟩
  rcases back with ⟨otherRow, otherWritten, otherLaid⟩
  refine ⟨row ++ otherRow, ?parts, ?laid⟩
  case parts =>
    intro after
    rw [Function.comp_apply, written, otherWritten, List.append_assoc]
  case laid =>
    intro depth
    rcases laid depth with ⟨page, lays⟩
    rcases otherLaid depth with ⟨otherPage, otherLays⟩
    exact ⟨page ++ otherPage, lays.append otherLays⟩

/-- A part that the layout copies. -/
theorem of_part {write : List Char -> List Char} {part : Part}
    (written : forall after, parts (write after) = part :: parts after) (opens : part ≠ .bare '[')
    (closes : part ≠ .bare ']') (newline : part ≠ .bare '\n') : Inside write :=
  ⟨[part], written, fun _ => ⟨[part], .copied opens closes newline (.nothing _)⟩⟩

/-- Characters that mean nothing to the layout. -/
theorem text {text : List Char}
    (plain : forall c, c ∈ text -> c ∉ ['\'', '[', ']', '\n']) : Inside (text ++ ·) := by
  induction text with
  | nil => exact nothing
  | cons c text inductionHypothesis =>
      have others := inductionHypothesis fun d member => plain d (List.mem_cons_of_mem _ member)
      have foreign := plain c List.mem_cons_self
      simp only [List.mem_cons, List.not_mem_nil, or_false, not_or] at foreign
      rcases foreign with ⟨mark, opens, closes, newline⟩
      have alone : Inside (c :: ·) :=
        of_part (fun after => parts_bare mark after) (mt Part.bare.inj opens)
          (mt Part.bare.inj closes) (mt Part.bare.inj newline)
      exact alone.comp others

theorem quote (contents : List Char) : Inside (Tree.quote contents ++ ·) :=
  of_part (parts_quote contents) (quoted_ne_bare _ _) (quoted_ne_bare _ _) (quoted_ne_bare _ _)

/-- Something behind a comma and one space. -/
theorem separated {write : List Char -> List Char} (inside : Inside write) :
    Inside (fun after => ',' :: ' ' :: write after) := by
  have separator : Inside ([',', ' '] ++ ·) := text (by simp)
  exact separator.comp inside

/-- A bracket behind a comma and one space. -/
theorem bracket {write : List Char -> List Char} (inside : Inside write) :
    Inside (fun after => ',' :: ' ' :: '[' :: write (']' :: after)) := by
  rcases inside with ⟨row, written, laid⟩
  refine ⟨.bare ',' :: .bare ' ' :: .bare '[' :: (row ++ [.bare ']']), ?parts, ?laid⟩
  case parts =>
    intro after
    rw [parts_bare (by decide), parts_bare (by decide), parts_bare (by decide), written,
      parts_bare (by decide)]
    simp
  case laid =>
    intro depth
    rcases laid (depth + 1) with ⟨page, lays⟩
    exact ⟨_, .broken (lays.append (.closed (.nothing _)))⟩

end Inside

/-! ## Trees -/

/-- Digits mean nothing to the layout. -/
theorem not_mem_of_isDigit {c : Char} (digit : c.isDigit = true) :
    c ∉ ['\'', '[', ']', '\n'] := by
  intro member
  simp only [List.mem_cons, List.not_mem_nil, or_false] at member
  rcases member with rfl | rfl | rfl | rfl <;> exact absurd digit (by decide)

theorem inside_int (value : Int) : Inside ((toString value).toList ++ ·) := by
  refine .text fun c member => ?_
  rcases Tree.mem_toString member with digit | rfl
  · exact not_mem_of_isDigit digit
  · decide

theorem inside_double (value : Number.Double) : Inside (value.text ++ ·) := by
  refine .text fun c member => ?_
  rcases Number.Double.mem_text member with digit | listed
  · exact not_mem_of_isDigit digit
  · simp only [List.mem_cons, List.not_mem_nil, or_false] at listed
    rcases listed with rfl | rfl | rfl | rfl | rfl | rfl | rfl <;> decide

mutual

/-- A tree that is no name is something in brackets. -/
theorem name_or_bracket (tree : Tree) :
    (exists name, tree = .ident name) ∨ exists write, Inside write ∧
      forall after, tree.renderOnto after = '[' :: write (']' :: after) := by
  cases tree with
  | ident name => exact Or.inl ⟨name, rfl⟩
  | int value =>
      exact Or.inr ⟨_, (Inside.quote "int".toList).comp (inside_int value).separated,
        Tree.renderOnto_int value⟩
  | float value =>
      exact Or.inr ⟨_, (Inside.quote "float".toList).comp (inside_double value).separated,
        Tree.renderOnto_float value⟩
  | string value =>
      exact Or.inr ⟨_, (Inside.quote "'".toList).comp (Inside.quote value.toList).separated,
        Tree.renderOnto_string value⟩
  | form tag children =>
      exact Or.inr ⟨_, (Inside.quote tag.spelling.toList).comp (inside_children children),
        Tree.renderOnto_form tag children⟩

/-- Children stand inside a bracket, each of them with a bracket of its own or quoted. -/
theorem inside_children (children : List Tree) : Inside (Tree.renderEachOnto children) := by
  cases children with
  | nil => exact .nothing
  | cons child children =>
      have others := inside_children children
      rcases name_or_bracket child with ⟨name, rfl⟩ | ⟨write, inside, written⟩
      · exact ((Inside.quote name.toList).comp others).separated
      · have whole := inside.bracket.comp others
        have same : Tree.renderEachOnto (child :: children) =
            (fun after => ',' :: ' ' :: '[' :: write (']' :: after)) ∘
              Tree.renderEachOnto children := by
          funext after
          rw [Tree.renderEachOnto_cons, written]
          rfl
        rw [same]
        exact whole

end

theorem laysOut_of_page {text : List Char} (page : List Part) (laid : lay (parts text) = page)
    (restored : joined page = parts text) (placed : AllPlaced [] page) :
    LaysOut text (spread text) where
  restored := by rw [parts_spread, laid, restored, unparted_parts]
  placed := by
    rw [parts_spread, laid]
    exact placed

/-- A quoted text is a page by itself. -/
theorem laysOut_quote (contents : List Char) :
    LaysOut (Tree.quote contents) (spread (Tree.quote contents)) := by
  have text : parts (Tree.quote contents) = [.quoted (Tree.quote contents)] := by
    have written := parts_quote contents []
    rw [List.append_nil, parts] at written
    exact written
  have first : Placed [] (.quoted (Tree.quote contents)) [] :=
    placed_first (quoted_ne_bare _ _) []
  refine laysOut_of_page [.quoted (Tree.quote contents)] ?laid ?restored ?placed
  case laid =>
    rw [text, lay, draftOf, List.foldl_cons, List.foldl_nil, put_quoted]
    rfl
  case restored => rw [text, joined_other (quoted_ne_bare _ _), joined]
  case placed => exact .cons first (.nil _)

/-- Something in brackets is laid out on a page. -/
theorem laysOut_bracket {write : List Char -> List Char} (inside : Inside write) :
    LaysOut ('[' :: write [']']) (spread ('[' :: write [']'])) := by
  rcases inside with ⟨row, written, laid⟩
  rcases laid 0 with ⟨page, lays⟩
  have whole : Lays 1 (row ++ [.bare ']']) (page ++ [.bare ']']) 0 :=
    lays.append (.closed (.nothing 0))
  have text : parts ('[' :: write [']']) = .bare '[' :: (row ++ [.bare ']']) := by
    rw [parts_bare (by decide), written, parts_bare (by decide), parts]
  refine laysOut_of_page (.bare '[' :: (page ++ [.bare ']'])) ?laid ?restored ?placed
  case laid =>
    rw [text, lay, draftOf, List.foldl_cons, put_bracket, if_neg (by decide), whole.foldl_put,
      List.reverse_append, List.reverse_reverse]
    rfl
  case restored => rw [text, joined_other (by decide), whole.joined_eq]
  case placed => exact .cons (placed_first (by decide) _) (whole.allPlaced (by simp) rfl)

/-- The layout only lays out the notation of a tree. -/
theorem spread_render (tree : Tree) : LaysOut tree.render.toList (spread tree.render.toList) := by
  rw [Tree.render, String.toList_ofList]
  rcases name_or_bracket tree with ⟨name, rfl⟩ | ⟨write, inside, written⟩
  · rw [Tree.renderOnto_ident, List.append_nil]
    exact laysOut_quote name.toList
  · rw [written]
    exact laysOut_bracket inside

example : spread (Tree.form .add [.ident "a", .string "']"]).render.toList =
    "['+', 'a',\n  ['\\'', '\\']']]".toList := by decide

end Layout
end SignalScript
