import Mathlib
import SignalScript.Proofs.Spelling
import SignalScript.Proofs.Trail

namespace SignalScript

/-!
The texts that tokens hold, and the atoms made from them.

A token gets its value from a lexeme, and the class of the lexeme restricts that
value.  What matters for trees is that names are words and that strings hold no
quotation mark.  Words are made of characters that the case table treats one by
one, so lowering a word gives a word again.
-/

namespace Lexeme

theorem take_run (holds : Char -> Bool) (text : List Char) :
    text.take (run holds text) = text.takeWhile holds :=
  (List.prefix_iff_eq_take.mp (List.takeWhile_prefix holds)).symm

theorem of_mem_takeWhile {holds : Char -> Bool} {text : List Char} {c : Char}
    (member : c ∈ text.takeWhile holds) : holds c = true :=
  List.all_eq_true.mp List.all_takeWhile c member

/-- What a word takes from the front of a text is a word, or the marker `@`. -/
theorem isWord_take {text : List Char} (positive : 0 < word.width text)
    (other : text.take (word.width text) ≠ ['@']) : IsWord (text.take (word.width text)) := by
  cases text with
  | nil => cases positive
  | cons first rest =>
      have starts : startsWord first = true := by
        by_cases starts : startsWord first = true
        · exact starts
        · simp [width, starts] at positive
      have taken : (first :: rest).take (word.width (first :: rest)) =
          first :: rest.takeWhile continuesWord := by
        rw [width, if_pos starts, Nat.add_comm, List.take_succ_cons, take_run]
      rw [taken] at other ⊢
      exact ⟨other, first, _, rfl, starts, fun c member => of_mem_takeWhile member⟩

theorem string_width_eq {text : List Char} (positive : 0 < string.width text) :
    exists rest, text = '\'' :: rest ∧ run (· != '\'') rest < rest.length ∧
      string.width text = run (· != '\'') rest + 2 := by
  cases text with
  | nil => cases positive
  | cons c rest =>
      by_cases mark : c = '\''
      · subst mark
        by_cases ended : run (· != '\'') rest < rest.length
        · exact ⟨rest, rfl, ended, by simp [width, ended]⟩
        · simp [width, ended] at positive
      · simp [width, mark] at positive

/-- The contents of a string literal end at the first quotation mark. -/
theorem quote_not_mem_value {text : List Char} (positive : 0 < string.width text) :
    '\'' ∉ string.value (text.take (string.width text)) := by
  rcases string_width_eq positive with ⟨rest, rfl, ended, same⟩
  have contents : string.value (('\'' :: rest).take (run (· != '\'') rest + 2)) =
      rest.takeWhile (· != '\'') := by
    rw [value, List.take_succ_cons, List.drop_succ_cons, List.drop_zero,
      List.take_succ_eq_append_getElem ended, List.dropLast_concat, take_run]
  rw [same, contents]
  intro member
  have different := of_mem_takeWhile member
  simp at different

/-- The first lexeme is one of those in the list, so it is no fixed spelling of a
name or a string. -/
theorem mem_order_of_first? {text : List Char} {lexeme : Lexeme}
    (found : first? text = some lexeme) : lexeme ∈ order :=
  List.mem_of_find?_eq_some found

end Lexeme

/-- The value of a name is a word, and the value of a string holds no quotation
mark. -/
def Token.Worded (token : Token) : Prop :=
  (token.kind = .identifier -> Lexeme.IsWord token.value.toList) ∧
    (token.kind = .string -> '\'' ∉ token.value.toList)

theorem Token.worded_of_other {token : Token} (unnamed : token.kind ≠ .identifier)
    (unquoted : token.kind ≠ .string) : token.Worded :=
  ⟨fun same => absurd same unnamed, fun same => absurd same unquoted⟩

/-- Every lexeme yields a token that holds what its kind allows. -/
theorem Scanner.worded_of_token? {scanner : Scanner} {lexeme : Lexeme} {token : Token}
    (found : Lexeme.first? scanner.rest = some lexeme)
    (yielded : scanner.token? lexeme (lexeme.width scanner.rest) = some token) :
    token.Worded := by
  have positive := Lexeme.width_pos_of_first? found
  have listed := Lexeme.mem_order_of_first? found
  rcases Option.map_eq_some_iff.mp yielded with ⟨kind, isKind, rfl⟩
  cases lexeme with
  | blanks => cases isKind
  | comment => cases isKind
  | word =>
      by_cases marker : scanner.rest.take (Lexeme.word.width scanner.rest) = ['@']
      · simp only [Lexeme.kind?, if_pos marker] at isKind
        cases isKind
        exact Token.worded_of_other nofun nofun
      · simp only [Lexeme.kind?, if_neg marker] at isKind
        cases isKind
        refine ⟨fun _ => ?_, nofun⟩
        rw [String.toList_ofList]
        exact Lexeme.isWord_take positive marker
  | number =>
      simp only [Lexeme.kind?, Option.some.injEq] at isKind
      subst isKind
      refine Token.worded_of_other ?_ ?_
      · simp only
        split <;> decide
      · simp only
        split <;> decide
  | string =>
      cases isKind
      refine ⟨nofun, fun _ => ?_⟩
      rw [String.toList_ofList]
      exact Lexeme.quote_not_mem_value positive
  | fixed fixedKind =>
      cases isKind
      refine Token.worded_of_other ?_ ?_
      · intro same
        cases same
        exact absurd listed (by decide)
      · intro same
        cases same
        exact absurd listed (by decide)

theorem Scanner.worded_of_next {scanner after : Scanner} {token : Token}
    (read : scanner.next = .done token after) : token.Worded := by
  fun_induction Scanner.next scanner with
  | case1 scanner unread =>
      cases read
      exact Token.worded_of_other (by decide : Kind.endOfInput ≠ .identifier)
        (by decide : Kind.endOfInput ≠ .string)
  | case2 => cases read
  | case3 scanner c rest unread lexeme found count yielded isToken =>
      cases read
      exact Scanner.worded_of_token? found isToken
  | case4 scanner c rest unread lexeme found count noToken inductionHypothesis =>
      exact inductionHypothesis read

namespace Parser

theorem worded_of_ofSource {file source : String} {parser : Parser}
    (opened : ofSource file source = .ok parser) : parser.ahead.Worded :=
  Scanner.worded_of_next (ofSource_eq_ok_iff.mp opened).2

/-- All tokens on a trail hold what their kinds allow. -/
theorem Trail.worded {parser last : Parser} {tokens : List Token}
    (trail : Trail parser tokens last) (held : parser.ahead.Worded) :
    forall token, token ∈ tokens -> token.Worded := by
  induction trail with
  | stay =>
      intro token member
      cases member
  | onward more taken _ inductionHypothesis =>
      intro token member
      rcases List.mem_cons.mp member with same | later
      · rw [same]
        exact held
      · rcases advance_eq_done_iff.mp taken with ⟨_, _, read⟩
        exact inductionHypothesis (Scanner.worded_of_next read) token later

end Parser

/-! ## Lowered words -/

namespace Text

open Lexeme

/-- What the case table makes of a single character. -/
def lowered (c : Char) : Char :=
  Char.ofNat (lowerCode caseRuns c.toNat)

theorem continuesWord_of_startsWord {c : Char} (starts : startsWord c = true) :
    continuesWord c = true := by
  simp only [startsWord, continuesWord, Char.isAlphanum, Bool.or_eq_true] at starts ⊢
  rcases starts with letter | mark
  · exact Or.inl (Or.inl letter)
  · exact Or.inr mark

theorem toNat_lt_of_continuesWord {c : Char} (continues : continuesWord c = true) :
    c.toNat < 128 := by
  simp only [continuesWord, isMark, Char.isAlphanum, Char.isAlpha, Char.isUpper, Char.isLower,
    Char.isDigit, Bool.or_eq_true, Bool.and_eq_true, decide_eq_true_eq, beq_iff_eq] at continues
  have below : forall {last : Char}, c.val ≤ last.val -> c.toNat ≤ last.toNat := fun le => le
  rcases continues with ((capital | small) | digit) | (((sign | hash) | dollar) | line)
  · exact Nat.lt_of_le_of_lt (below capital.2) (by decide)
  · exact Nat.lt_of_le_of_lt (below small.2) (by decide)
  · exact Nat.lt_of_le_of_lt (below digit.2) (by decide)
  · subst sign; decide
  · subst hash; decide
  · subst dollar; decide
  · subst line; decide

/-- On the first 128 characters the case table keeps words, removes capitals and
brings in no import marker. -/
theorem lowered_of_lt : forall code, code < 128 ->
    (startsWord (Char.ofNat code) = true -> startsWord (lowered (Char.ofNat code)) = true) ∧
      (continuesWord (Char.ofNat code) = true ->
        continuesWord (lowered (Char.ofNat code)) = true) ∧
      (lowered (Char.ofNat code)).isUpper = false ∧
      (lowered (Char.ofNat code) = '@' -> Char.ofNat code = '@') := by
  decide +kernel

theorem lowered_of_continuesWord {c : Char} (continues : continuesWord c = true) :
    (startsWord c = true -> startsWord (lowered c) = true) ∧
      continuesWord (lowered c) = true ∧ (lowered c).isUpper = false ∧
      (lowered c = '@' -> c = '@') := by
  have facts := lowered_of_lt c.toNat (toNat_lt_of_continuesWord continues)
  rw [Char.ofNat_toNat] at facts
  exact ⟨facts.1, facts.2.1 continues, facts.2.2.1, facts.2.2.2⟩

theorem lowerBetween_eq {c : Char} (before after : List Char)
    (continues : continuesWord c = true) : lowerBetween before c after = [lowered c] := by
  have low := toNat_lt_of_continuesWord continues
  have notSigma : c ≠ 'Σ' := by
    rintro rfl
    exact absurd low (by decide)
  have notDotted : c ≠ '\u0130' := by
    rintro rfl
    exact absurd low (by decide)
  rw [lowerBetween, if_neg notSigma, lowerChar, if_neg notDotted, lowered]

theorem lowerAfter_eq {after : List Char} (before done : List Char)
    (continues : forall c, c ∈ after -> continuesWord c = true) :
    lowerAfter before done after = done.reverse ++ after.map lowered := by
  induction after generalizing before done with
  | nil => simp [lowerAfter]
  | cons c after inductionHypothesis =>
      rw [lowerAfter, lowerBetween_eq before after (continues c List.mem_cons_self),
        inductionHypothesis]
      · simp
      · intro other member
        exact continues other (List.mem_cons_of_mem _ member)

theorem lower_eq_map {text : List Char}
    (continues : forall c, c ∈ text -> continuesWord c = true) :
    lower text = text.map lowered :=
  lowerAfter_eq [] [] continues

theorem continuesWord_of_isWord {text : List Char} (isWord : IsWord text) :
    forall c, c ∈ text -> continuesWord c = true := by
  rcases isWord with ⟨_, first, rest, rfl, starts, continues⟩
  intro c member
  rcases List.mem_cons.mp member with same | later
  · rw [same]
    exact continuesWord_of_startsWord starts
  · exact continues c later

/-- A lowered word is a word without capitals. -/
theorem isWord_lower {text : List Char} (isWord : IsWord text) :
    IsWord (lower text) ∧ forall c, c ∈ lower text -> c.isUpper = false := by
  have all := continuesWord_of_isWord isWord
  rcases isWord with ⟨other, first, rest, rfl, starts, continues⟩
  have continuesFirst := continuesWord_of_startsWord starts
  rw [lower_eq_map all]
  refine ⟨⟨?_, lowered first, rest.map lowered, rfl, ?_, ?_⟩, ?_⟩
  · intro same
    rw [List.map_cons, List.cons.injEq, List.map_eq_nil_iff] at same
    have marker := (lowered_of_continuesWord continuesFirst).2.2.2 same.1
    exact other (by rw [marker, same.2])
  · exact (lowered_of_continuesWord continuesFirst).1 starts
  · intro c member
    rcases List.mem_map.mp member with ⟨origin, listed, rfl⟩
    exact (lowered_of_continuesWord (continues origin listed)).2.1
  · intro c member
    rcases List.mem_map.mp member with ⟨origin, listed, rfl⟩
    exact (lowered_of_continuesWord (all origin listed)).2.2.1

end Text

/-! ## Atoms -/

namespace Number

theorem Double.word_ofQuotient_le (dividend divisor : Nat) :
    (Double.ofQuotient dividend divisor).word ≤ Double.infinity.word := by
  unfold Double.ofQuotient
  split
  · decide
  · rw [Double.word]
    simp only [UInt64.toNat_ofNat']
    exact Nat.le_trans (Nat.mod_le _ _) (Nat.min_le_right _ _)

/-- A literal denotes a number without a sign, or infinity. -/
theorem Double.legal_ofLiteral (literal : List Char) :
    (Double.ofLiteral literal).isNegative = false ∧ (Double.ofLiteral literal).isNaN = false := by
  have bounded : (Double.ofLiteral literal).word ≤ 0x7FF0000000000000 :=
    Double.word_ofQuotient_le _ _
  constructor
  · rw [Double.isNegative, decide_eq_false_iff_not]
    omega
  · rw [Double.isNaN, Bool.and_eq_false_iff, beq_eq_false_iff_ne, bne_eq_false_iff_eq,
      Double.exponentField, Double.fractionField, Double.hiddenBit]
    omega

end Number

theorem Tree.legalAtom_ofName {token : Token} (worded : token.Worded)
    (isName : token.kind = .identifier) : (Tree.ofName token.value).LegalAtom := by
  have lowered := Text.isWord_lower (worded.1 isName)
  simp only [Tree.ofName, Tree.LegalAtom, String.toList_ofList]
  exact lowered

/-- The atoms of a tree are those that tokens can stand for. -/
theorem Spells.legalAtoms {tree : Tree} {levels : Nat} {tokens : List Token}
    (spelled : Spells tree levels tokens)
    (worded : forall token, token ∈ tokens -> token.Worded) :
    tree.Everywhere Tree.LegalAtom := by
  induction spelled with
  | name token isName =>
      exact (Tree.everywhere_atom_iff rfl).mpr
        (Tree.legalAtom_ofName (worded token List.mem_cons_self) isName)
  | int token isInt inRange =>
      exact (Tree.everywhere_atom_iff rfl).mpr
        ⟨Int.natCast_nonneg _, Int.ofNat_le.mpr inRange⟩
  | float token isFloat =>
      exact (Tree.everywhere_atom_iff rfl).mpr (Number.Double.legal_ofLiteral _)
  | string token isString =>
      exact (Tree.everywhere_atom_iff rfl).mpr ((worded token List.mem_cons_self).2 isString)
  | importing marker path isMarker isString =>
      refine Tree.everywhere_single True.intro ((Tree.everywhere_atom_iff rfl).mpr ?_)
      exact (worded path (by simp)).2 isString
  | declaring marker name isMarker isName =>
      refine Tree.everywhere_single True.intro ((Tree.everywhere_atom_iff rfl).mpr ?_)
      exact Tree.legalAtom_ofName (worded name (by simp)) isName
  | group opened closed isOpened isClosed content inductionHypothesis =>
      refine Tree.everywhere_single True.intro (inductionHypothesis ?_)
      intro token member
      exact worded token (by simp [member])
  | emptyCall name opened closed isName isOpened isClosed adjacent =>
      refine Tree.everywhere_single True.intro ((Tree.everywhere_atom_iff rfl).mpr ?_)
      exact Tree.legalAtom_ofName (worded name (by simp)) isName
  | call name opened closed isName isOpened isClosed adjacent content inductionHypothesis =>
      refine Tree.everywhere_pair True.intro ((Tree.everywhere_atom_iff rfl).mpr ?_)
        (inductionHypothesis ?_)
      · exact Tree.legalAtom_ofName (worded name (by simp)) isName
      · intro token member
        exact worded token (by simp [member])
  | emptyBracket opened closed isOpened isClosed =>
      exact Tree.everywhere_form_iff.mpr
        ⟨True.intro, fun child member => absurd member List.not_mem_nil⟩
  | bracket opened closed isOpened isClosed content inductionHypothesis =>
      refine Tree.everywhere_single True.intro (inductionHypothesis ?_)
      intro token member
      exact worded token (by simp [member])
  | pair sign joins pairs isSign left right leftLegal rightLegal =>
      refine Tree.everywhere_pair True.intro (leftLegal ?_) (rightLegal ?_)
      · intro token member
        exact worded token (by simp [member])
      · intro token member
        exact worded token (by simp [member])
  | siblings later trailing sequence first signs laterSpelled some trailed firstLegal
      laterLegal =>
      refine Tree.everywhere_form_iff.mpr ⟨True.intro, ?_⟩
      intro child member
      rcases List.mem_cons.mp member with same | behind
      · rw [same]
        apply firstLegal
        intro token listed
        exact worded token (by simp [listed])
      · rcases List.mem_map.mp behind with ⟨sibling, listed, rfl⟩
        apply laterLegal sibling listed
        intro token inside
        apply worded token
        have spread : token ∈ Sibling.spread later :=
          List.mem_flatMap.mpr ⟨sibling, listed, List.mem_cons_of_mem _ inside⟩
        simp [spread]

end SignalScript
