import SignalScript.Proofs.ShortestText
import SignalScript.Proofs.Soundness

namespace SignalScript

/-!
The notation of trees can be read in only one way.

Names, literals and forms share brackets, commas and quotation marks, and a quoted
text may hold any of them.  Two things keep the notation apart: a quoted text ends
at the first mark without a backslash in front, and the first word inside a bracket
says what the bracket is.  Products and declarations have the same first word, so
the notation cannot tell them apart, and it shows all values that are no number
alike.  Nothing else is lost, and neither exception can occur between two trees that
were parsed.
-/

/-- Equal tags, or the two that share a spelling. -/
def Tag.Alike (left right : Tag) : Prop :=
  left = right ∨ (left = .multiply ∧ right = .declaring) ∨
    (left = .declaring ∧ right = .multiply)

namespace Tree

mutual

/-- The same tree, up to an exchange of products and declarations and up to the
payload of values that are no number. -/
def Alike : Tree -> Tree -> Prop
  | .ident left, .ident right => left = right
  | .int left, .int right => left = right
  | .float left, .float right => left = right ∨ (left.isNaN = true ∧ right.isNaN = true)
  | .string left, .string right => left = right
  | .form leftTag left, .form rightTag right => leftTag.Alike rightTag ∧ AlikeEach left right
  | _, _ => False

/-- Trees that are alike in the same order. -/
def AlikeEach : List Tree -> List Tree -> Prop
  | [], [] => True
  | left :: lefts, right :: rights => Alike left right ∧ AlikeEach lefts rights
  | _, _ => False

end

/-! ## Quoted texts -/

/-- How a character is written between quotation marks. -/
def escape (c : Char) : List Char :=
  if c = '\\' ∨ c = '\'' then ['\\', c] else [c]

theorem quote_append (text after : List Char) :
    quote text ++ after = '\'' :: (text.flatMap escape ++ '\'' :: after) := by
  rw [quote, List.append_assoc, List.singleton_append, List.cons_append]
  rfl

/-- An escaped character is never a mark by itself, and it says what it stands
for. -/
theorem escape_append_inj {c d : Char} {left right : List Char}
    (same : escape c ++ left = escape d ++ right) : c = d ∧ left = right := by
  unfold escape at same
  by_cases special : c = '\\' ∨ c = '\''
  · rw [if_pos special] at same
    by_cases other : d = '\\' ∨ d = '\''
    · rw [if_pos other] at same
      simpa using same
    · rw [if_neg other] at same
      simp only [List.cons_append, List.nil_append, List.cons.injEq] at same
      exact absurd (Or.inl same.1.symm) other
  · rw [if_neg special] at same
    by_cases other : d = '\\' ∨ d = '\''
    · rw [if_pos other] at same
      simp only [List.cons_append, List.nil_append, List.cons.injEq] at same
      exact absurd (Or.inl same.1) special
    · rw [if_neg other] at same
      simpa using same

theorem mark_ne_escape_append {c : Char} {left right : List Char} :
    '\'' :: left ≠ escape c ++ right := by
  unfold escape
  split
  · simp
  next plain =>
    intro same
    rw [List.singleton_append, List.cons.injEq] at same
    exact plain (Or.inr same.1.symm)

theorem escaped_inj {first second left right : List Char}
    (same : first.flatMap escape ++ '\'' :: left = second.flatMap escape ++ '\'' :: right) :
    first = second ∧ left = right := by
  induction first generalizing second with
  | nil =>
      cases second with
      | nil => simpa using same
      | cons d second =>
          rw [List.flatMap_cons, List.append_assoc] at same
          exact absurd same mark_ne_escape_append
  | cons c first inductionHypothesis =>
      cases second with
      | nil =>
          rw [List.flatMap_cons, List.append_assoc] at same
          exact absurd same.symm mark_ne_escape_append
      | cons d second =>
          rw [List.flatMap_cons, List.flatMap_cons, List.append_assoc, List.append_assoc] at same
          rcases escape_append_inj same with ⟨rfl, behind⟩
          rcases inductionHypothesis behind with ⟨rfl, after⟩
          exact ⟨rfl, after⟩

/-- A quoted text ends where its contents do. -/
theorem quote_append_inj {first second left right : List Char}
    (same : quote first ++ left = quote second ++ right) : first = second ∧ left = right := by
  rw [quote_append, quote_append, List.cons.injEq] at same
  exact escaped_inj same.2

/-! ## Literals -/

/-- A text without a closing bracket ends at the first one. -/
theorem closed_inj {first second left right : List Char} (inFirst : ']' ∉ first)
    (inSecond : ']' ∉ second) (same : first ++ ']' :: left = second ++ ']' :: right) :
    first = second ∧ left = right := by
  induction first generalizing second with
  | nil =>
      cases second with
      | nil => simpa using same
      | cons d second =>
          rw [List.nil_append, List.cons_append, List.cons.injEq] at same
          exact absurd (by rw [same.1]; exact List.mem_cons_self) inSecond
  | cons c first inductionHypothesis =>
      cases second with
      | nil =>
          rw [List.nil_append, List.cons_append, List.cons.injEq] at same
          exact absurd (by rw [same.1]; exact List.mem_cons_self) inFirst
      | cons d second =>
          rw [List.cons_append, List.cons_append, List.cons.injEq] at same
          rcases inductionHypothesis (fun member => inFirst (List.mem_cons_of_mem _ member))
            (fun member => inSecond (List.mem_cons_of_mem _ member)) same.2 with ⟨rest, after⟩
          exact ⟨by rw [same.1, rest], after⟩

theorem toList_toString_ofNat (n : Nat) :
    (toString (Int.ofNat n)).toList = Nat.toDigits 10 n := by
  change (Nat.repr n).toList = _
  rw [Nat.repr_eq_ofList_toDigits, String.toList_ofList]

theorem toList_toString_negSucc (n : Nat) :
    (toString (Int.negSucc n)).toList = '-' :: Nat.toDigits 10 (n + 1) := by
  change ("-" ++ Nat.repr (n + 1)).toList = _
  rw [String.toList_append, Nat.repr_eq_ofList_toDigits]
  exact congrArg ('-' :: ·) String.toList_ofList

/-- The text of a whole number is made of digits and a sign. -/
theorem mem_toString {value : Int} {c : Char} (member : c ∈ (toString value).toList) :
    c.isDigit = true ∨ c = '-' := by
  cases value with
  | ofNat n =>
      rw [toList_toString_ofNat] at member
      exact Or.inl (Number.allDigits_toDigits n c member)
  | negSucc n =>
      rw [toList_toString_negSucc, List.mem_cons] at member
      exact member.symm.imp_left (Number.allDigits_toDigits (n + 1) c)

theorem not_mem_toString (value : Int) : ']' ∉ (toString value).toList := by
  intro member
  rcases mem_toString member with digit | sign
  · exact absurd digit (by decide)
  · exact absurd sign (by decide)

/-- A whole number is shown by its digits, and by a sign if it is negative. -/
theorem toString_inj {left right : Int}
    (same : (toString left).toList = (toString right).toList) : left = right := by
  have unsigned : forall n : Nat, '-' ∉ Nat.toDigits 10 n :=
    fun n member => absurd (Number.allDigits_toDigits n _ member) (by decide)
  have numbers : forall {n m : Nat}, Nat.toDigits 10 n = Nat.toDigits 10 m -> n = m := by
    intro n m digits
    rw [← Number.ofDigits_toDigits n, digits, Number.ofDigits_toDigits]
  cases left with
  | ofNat n =>
      cases right with
      | ofNat m =>
          rw [toList_toString_ofNat, toList_toString_ofNat] at same
          rw [numbers same]
      | negSucc m =>
          rw [toList_toString_ofNat, toList_toString_negSucc] at same
          exact absurd (by rw [same]; exact List.mem_cons_self) (unsigned n)
  | negSucc n =>
      cases right with
      | ofNat m =>
          rw [toList_toString_ofNat, toList_toString_negSucc] at same
          exact absurd (by rw [← same]; exact List.mem_cons_self) (unsigned m)
      | negSucc m =>
          rw [toList_toString_negSucc, toList_toString_negSucc, List.cons.injEq] at same
          rw [Nat.succ.inj (numbers same.2)]

theorem not_mem_text (value : Number.Double) : ']' ∉ value.text := by
  intro member
  rcases Number.Double.mem_text member with digit | listed
  · exact absurd digit (by decide)
  · exact absurd listed (by decide)

/-! ## Trees -/

/-- The first word inside the bracket of a tree.  A name has no bracket. -/
def word? : Tree -> Option String
  | .ident _ => none
  | .int _ => some "int"
  | .float _ => some "float"
  | .string _ => some "'"
  | .form tag _ => some tag.spelling

theorem renderOnto_ident (name : String) (after : List Char) :
    (ident name).renderOnto after = quote name.toList ++ after := rfl

theorem renderOnto_int (value : Int) (after : List Char) :
    (int value).renderOnto after =
      '[' :: (quote "int".toList ++ ',' :: ' ' :: ((toString value).toList ++ ']' :: after)) := by
  have opened : "['int', ".toList = '[' :: (quote "int".toList ++ [',', ' ']) := by decide
  change "['int', ".toList ++ (toString value).toList ++ ']' :: after = _
  rw [opened]
  simp only [List.append_assoc, List.cons_append, List.nil_append]

theorem renderOnto_float (value : Number.Double) (after : List Char) :
    (float value).renderOnto after =
      '[' :: (quote "float".toList ++ ',' :: ' ' :: (value.text ++ ']' :: after)) := by
  have opened : "['float', ".toList = '[' :: (quote "float".toList ++ [',', ' ']) := by decide
  change "['float', ".toList ++ value.text ++ ']' :: after = _
  rw [opened]
  simp only [List.append_assoc, List.cons_append, List.nil_append]

theorem renderOnto_string (value : String) (after : List Char) :
    (string value).renderOnto after =
      '[' :: (quote "'".toList ++ ',' :: ' ' :: (quote value.toList ++ ']' :: after)) := by
  have mark : "'".toList = ['\''] := by decide
  change '[' :: quote ['\''] ++ ',' :: ' ' :: quote value.toList ++ ']' :: after = _
  rw [mark]
  simp only [List.append_assoc, List.cons_append]

theorem renderOnto_form (tag : Tag) (children : List Tree) (after : List Char) :
    (form tag children).renderOnto after =
      '[' :: (quote tag.spelling.toList ++ renderEachOnto children (']' :: after)) := rfl

theorem renderEachOnto_cons (child : Tree) (children : List Tree) (after : List Char) :
    renderEachOnto (child :: children) after =
      ',' :: ' ' :: child.renderOnto (renderEachOnto children after) := rfl

theorem renderOnto_of_word? {tree : Tree} {word : String} (found : tree.word? = some word)
    (after : List Char) :
    exists rest, tree.renderOnto after = '[' :: (quote word.toList ++ rest) := by
  cases tree with
  | ident name => cases found
  | int value =>
      cases found
      exact ⟨_, renderOnto_int value after⟩
  | float value =>
      cases found
      exact ⟨_, renderOnto_float value after⟩
  | string value =>
      cases found
      exact ⟨_, renderOnto_string value after⟩
  | form tag children =>
      cases found
      exact ⟨_, renderOnto_form tag children after⟩

theorem renderOnto_of_word?_none {tree : Tree} (absent : tree.word? = none)
    (after : List Char) : exists rest, tree.renderOnto after = '\'' :: rest := by
  cases tree with
  | ident name =>
      rw [renderOnto_ident]
      exact ⟨_, quote_append name.toList after⟩
  | int value => cases absent
  | float value => cases absent
  | string value => cases absent
  | form tag children => cases absent

/-- The notation shows the first word. -/
theorem word?_eq {left right : Tree} {after other : List Char}
    (same : left.renderOnto after = right.renderOnto other) : left.word? = right.word? := by
  cases leftWord : left.word? with
  | none =>
      cases rightWord : right.word? with
      | none => rfl
      | some word =>
          rcases renderOnto_of_word?_none leftWord after with ⟨_, leftShown⟩
          rcases renderOnto_of_word? rightWord other with ⟨_, rightShown⟩
          rw [leftShown, rightShown] at same
          cases same
  | some word =>
      rcases renderOnto_of_word? leftWord after with ⟨rest, leftShown⟩
      cases rightWord : right.word? with
      | none =>
          rcases renderOnto_of_word?_none rightWord other with ⟨_, rightShown⟩
          rw [leftShown, rightShown] at same
          cases same
      | some otherWord =>
          rcases renderOnto_of_word? rightWord other with ⟨otherRest, rightShown⟩
          rw [leftShown, rightShown, List.cons.injEq] at same
          have words := (quote_append_inj same.2).1
          rw [String.toList_inj.mp words]

theorem spelling_not_mem (tag : Tag) : tag.spelling ∉ ["int", "float", "'"] := by
  cases tag <;> decide

theorem alike_iff_spelling {left right : Tag} :
    left.Alike right <-> left.spelling = right.spelling := by
  unfold Tag.Alike
  cases left <;> cases right <;> decide

theorem word?_form_ne {tag : Tag} {children : List Tree} {tree : Tree}
    (atom : tree.isAtom = true) : tree.word? ≠ (form tag children).word? := by
  have foreign := spelling_not_mem tag
  intro same
  cases tree with
  | ident name => cases same
  | int value => exact foreign (by rw [← Option.some.inj same]; decide)
  | float value => exact foreign (by rw [← Option.some.inj same]; decide)
  | string value => exact foreign (by rw [← Option.some.inj same]; decide)
  | form tag children => cases atom

/-- The notation of an atom ends where the atom does, and it shows the atom. -/
theorem renderOnto_atom_inj {left right : Tree} {after other : List Char}
    (atom : left.isAtom = true) (same : left.renderOnto after = right.renderOnto other) :
    Alike left right ∧ after = other := by
  have words := word?_eq same
  cases right with
  | form tag children => exact absurd words (word?_form_ne atom)
  | ident name =>
      cases left with
      | ident leftName =>
          rcases quote_append_inj same with ⟨names, rest⟩
          exact ⟨String.toList_inj.mp names, rest⟩
      | int value => cases words
      | float value => cases words
      | string value => cases words
      | form tag children => cases atom
  | int value =>
      cases left with
      | int leftValue =>
          rw [renderOnto_int, renderOnto_int, List.cons.injEq] at same
          have behind := (quote_append_inj same.2).2
          rw [List.cons.injEq, List.cons.injEq] at behind
          rcases closed_inj (not_mem_toString leftValue) (not_mem_toString value) behind.2.2 with
            ⟨shown, rest⟩
          exact ⟨toString_inj shown, rest⟩
      | ident name => cases words
      | float value => exact absurd (Option.some.inj words) (by decide)
      | string value => exact absurd (Option.some.inj words) (by decide)
      | form tag children => cases atom
  | float value =>
      cases left with
      | float leftValue =>
          rw [renderOnto_float, renderOnto_float, List.cons.injEq] at same
          have behind := (quote_append_inj same.2).2
          rw [List.cons.injEq, List.cons.injEq] at behind
          rcases closed_inj (not_mem_text leftValue) (not_mem_text value) behind.2.2 with
            ⟨shown, rest⟩
          exact ⟨Number.Double.eq_of_text shown, rest⟩
      | ident name => cases words
      | int value => exact absurd (Option.some.inj words) (by decide)
      | string value => exact absurd (Option.some.inj words) (by decide)
      | form tag children => cases atom
  | string value =>
      cases left with
      | string leftValue =>
          rw [renderOnto_string, renderOnto_string, List.cons.injEq] at same
          have behind := (quote_append_inj same.2).2
          rw [List.cons.injEq, List.cons.injEq] at behind
          rcases quote_append_inj behind.2.2 with ⟨shown, rest⟩
          exact ⟨String.toList_inj.mp shown, (List.cons.inj rest).2⟩
      | ident name => cases words
      | int value => exact absurd (Option.some.inj words) (by decide)
      | float value => exact absurd (Option.some.inj words) (by decide)
      | form tag children => cases atom

mutual

/-- The notation of a tree ends where the tree does, and it shows the tree. -/
theorem renderOnto_inj (left right : Tree) (after other : List Char)
    (same : left.renderOnto after = right.renderOnto other) :
    Alike left right ∧ after = other := by
  cases left with
  | ident name => exact renderOnto_atom_inj rfl same
  | int value => exact renderOnto_atom_inj rfl same
  | float value => exact renderOnto_atom_inj rfl same
  | string value => exact renderOnto_atom_inj rfl same
  | form tag children =>
      have words := word?_eq same
      cases right with
      | form rightTag rightChildren =>
          rw [renderOnto_form, renderOnto_form, List.cons.injEq] at same
          have behind := (quote_append_inj same.2).2
          rcases renderEachOnto_inj children rightChildren after other behind with ⟨each, rest⟩
          exact ⟨⟨alike_iff_spelling.mpr (Option.some.inj words), each⟩, rest⟩
      | ident name => exact absurd words.symm (word?_form_ne rfl)
      | int value => exact absurd words.symm (word?_form_ne rfl)
      | float value => exact absurd words.symm (word?_form_ne rfl)
      | string value => exact absurd words.symm (word?_form_ne rfl)

/-- Children in a row end at the closing bracket. -/
theorem renderEachOnto_inj (lefts rights : List Tree) (after other : List Char)
    (same : renderEachOnto lefts (']' :: after) = renderEachOnto rights (']' :: other)) :
    AlikeEach lefts rights ∧ after = other := by
  cases lefts with
  | nil =>
      cases rights with
      | nil => exact ⟨True.intro, (List.cons.inj same).2⟩
      | cons right rights => exact absurd (List.cons.inj same).1 (by decide)
  | cons left lefts =>
      cases rights with
      | nil => exact absurd (List.cons.inj same).1 (by decide)
      | cons right rights =>
          rw [renderEachOnto_cons, renderEachOnto_cons, List.cons.injEq, List.cons.injEq] at same
          rcases renderOnto_inj left right _ _ same.2.2 with ⟨alike, behind⟩
          rcases renderEachOnto_inj lefts rights after other behind with ⟨each, rest⟩
          exact ⟨⟨alike, each⟩, rest⟩

end

mutual

/-- The notation shows nothing in which trees that are alike differ. -/
theorem renderOnto_of_alike (left right : Tree) (after : List Char)
    (alike : Alike left right) : left.renderOnto after = right.renderOnto after := by
  cases left with
  | ident name =>
      cases right with
      | ident rightName => rw [show name = rightName from alike]
      | _ => cases alike
  | int value =>
      cases right with
      | int rightValue => rw [show value = rightValue from alike]
      | _ => cases alike
  | float value =>
      cases right with
      | float rightValue =>
          rcases alike with same | ⟨left, right⟩
          · rw [same]
          · rw [renderOnto_float, renderOnto_float, Number.Double.text, if_pos left,
              Number.Double.text, if_pos right]
      | _ => cases alike
  | string value =>
      cases right with
      | string rightValue => rw [show value = rightValue from alike]
      | _ => cases alike
  | form tag children =>
      cases right with
      | form rightTag rightChildren =>
          rcases alike with ⟨tags, each⟩
          rw [renderOnto_form, renderOnto_form, alike_iff_spelling.mp tags,
            renderEachOnto_of_alike children rightChildren _ each]
      | _ => cases alike

theorem renderEachOnto_of_alike (lefts rights : List Tree) (after : List Char)
    (alike : AlikeEach lefts rights) :
    renderEachOnto lefts after = renderEachOnto rights after := by
  cases lefts with
  | nil =>
      cases rights with
      | nil => rfl
      | cons right rights => cases alike
  | cons left lefts =>
      cases rights with
      | nil => cases alike
      | cons right rights =>
          rw [renderEachOnto_cons, renderEachOnto_cons,
            renderEachOnto_of_alike lefts rights _ alike.2,
            renderOnto_of_alike left right _ alike.1]

end

/-- Two trees have the same notation exactly when they are alike. -/
theorem render_eq_iff {left right : Tree} :
    left.render = right.render <-> Alike left right := by
  unfold render
  rw [← String.toList_inj, String.toList_ofList, String.toList_ofList]
  exact ⟨fun same => (renderOnto_inj left right [] [] same).1, renderOnto_of_alike left right []⟩

/-! ## Parsed trees -/

theorem AlikeEach.length_eq {lefts rights : List Tree} (alike : AlikeEach lefts rights) :
    lefts.length = rights.length := by
  induction lefts generalizing rights with
  | nil =>
      cases rights with
      | nil => rfl
      | cons right rights => cases alike
  | cons left lefts inductionHypothesis =>
      cases rights with
      | nil => cases alike
      | cons right rights =>
          rw [List.length_cons, List.length_cons, inductionHypothesis alike.2]

/-- A product has two children and a declaration has one. -/
theorem tag_eq_of_alike {leftTag rightTag : Tag} {lefts rights : List Tree}
    (left : (form leftTag lefts).Arranged) (right : (form rightTag rights).Arranged)
    (tags : leftTag.Alike rightTag) (length : lefts.length = rights.length) :
    leftTag = rightTag := by
  rcases tags with same | ⟨rfl, rfl⟩ | ⟨rfl, rfl⟩
  · exact same
  · rcases left with ⟨_, _, rfl, _⟩
    rcases right with ⟨_, rfl⟩
    cases length
  · rcases left with ⟨_, rfl⟩
    rcases right with ⟨_, _, rfl, _⟩
    cases length

mutual

/-- Shaped trees that are alike are equal. -/
theorem eq_of_alike (left right : Tree) (leftShaped : left.Shaped) (rightShaped : right.Shaped)
    (alike : Alike left right) : left = right := by
  cases left with
  | ident name =>
      cases right with
      | ident rightName => rw [show name = rightName from alike]
      | _ => cases alike
  | int value =>
      cases right with
      | int rightValue => rw [show value = rightValue from alike]
      | _ => cases alike
  | float value =>
      cases right with
      | float rightValue =>
          rcases alike with same | ⟨noNumber, _⟩
          · rw [same]
          · have number := ((everywhere_atom_iff rfl).mp leftShaped).2.2
            exact absurd (noNumber.symm.trans number) (by decide)
      | _ => cases alike
  | string value =>
      cases right with
      | string rightValue => rw [show value = rightValue from alike]
      | _ => cases alike
  | form tag children =>
      cases right with
      | form rightTag rightChildren =>
          rcases alike with ⟨tags, each⟩
          rcases everywhere_form_iff.mp leftShaped with ⟨leftFits, leftBelow⟩
          rcases everywhere_form_iff.mp rightShaped with ⟨rightFits, rightBelow⟩
          rw [tag_eq_of_alike leftFits.1 rightFits.1 tags each.length_eq,
            eq_of_alikeEach children rightChildren leftBelow rightBelow each]
      | _ => cases alike

theorem eq_of_alikeEach (lefts rights : List Tree)
    (leftShaped : forall child, child ∈ lefts -> child.Shaped)
    (rightShaped : forall child, child ∈ rights -> child.Shaped)
    (alike : AlikeEach lefts rights) : lefts = rights := by
  cases lefts with
  | nil =>
      cases rights with
      | nil => rfl
      | cons right rights => cases alike
  | cons left lefts =>
      cases rights with
      | nil => cases alike
      | cons right rights =>
          rw [eq_of_alike left right (leftShaped left List.mem_cons_self)
              (rightShaped right List.mem_cons_self) alike.1,
            eq_of_alikeEach lefts rights
              (fun child member => leftShaped child (List.mem_cons_of_mem _ member))
              (fun child member => rightShaped child (List.mem_cons_of_mem _ member)) alike.2]

end

end Tree

/-- The notation of a tree tells it apart from every other, except that it exchanges
products with declarations and values that are no number with each other.  Parsed
trees it tells apart without exception. -/
theorem render_unambiguous (left right : Tree) :
    (left.render = right.render <-> Tree.Alike left right) ∧
    forall file source otherFile otherSource, parse file source = .ok left ->
      parse otherFile otherSource = .ok right -> left.render = right.render -> left = right := by
  refine ⟨Tree.render_eq_iff, ?_⟩
  intro file source otherFile otherSource parsed otherParsed same
  exact Tree.eq_of_alike left right (spelled_of_parseWithin parsed).1
    (spelled_of_parseWithin otherParsed).1 (Tree.render_eq_iff.mp same)

theorem render_unambiguous_star :
    (Tree.form .multiply [.string "]\\'"]).render = (Tree.form .declaring [.string "]\\'"]).render ∧
    parse "shell" "a*b" = .ok (.form .multiply [.ident "a", .ident "b"]) ∧
    parse "shell" "A * B // c" = .ok (.form .multiply [.ident "a", .ident "b"]) ∧
    Tree.form .multiply [.ident "a", .ident "b"] = .form .multiply [.ident "a", .ident "b"] := by
  have first : parse "shell" "a*b" = .ok (.form .multiply [.ident "a", .ident "b"]) := by cbv
  have second : parse "shell" "A * B // c" = .ok (.form .multiply [.ident "a", .ident "b"]) := by
    cbv
  refine ⟨(render_unambiguous _ _).1.mpr ⟨Or.inr (Or.inl ⟨rfl, rfl⟩), rfl, True.intro⟩, first,
    second, ?_⟩
  exact (render_unambiguous _ _).2 _ _ _ _ first second rfl

end SignalScript
