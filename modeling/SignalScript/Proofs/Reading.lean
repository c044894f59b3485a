import SignalScript.Proofs.Wording

namespace SignalScript

/-!
What the scanner passes over when it reads a token.

In front of a token stands a gap, which is made of blanks and comments and may be
empty.  Then follows the token as it is written in the source.  A reading that
succeeds passes over both, and a reading that fails passes over the gap and stops
at a character with which no lexeme starts.

Whether a text is a gap depends on what follows it, because a comment reaches as
far as its line does.
-/

/-- The text in front of the given one holds nothing but blanks and comments.  A
comment ends in front of a newline or with the source. -/
inductive Gap : List Char -> List Char -> Prop
  | nothing (after : List Char) : Gap [] after
  | blank {c : Char} {gap after : List Char} :
      Text.isBlank c = true -> Gap gap after -> Gap (c :: gap) after
  | comment {text gap after : List Char} :
      '\n' ∉ text -> (forall c, (gap ++ after).head? = some c -> c = '\n') -> Gap gap after ->
      Gap ('/' :: '/' :: text ++ gap) after

namespace Gap

theorem append {first second after : List Char} (front : Gap first (second ++ after))
    (back : Gap second after) : Gap (first ++ second) after := by
  generalize following : second ++ after = rest at front
  induction front with
  | nothing => exact back
  | blank isBlank _ inductionHypothesis => exact .blank isBlank (inductionHypothesis following)
  | @comment text gap _ single ends _ inductionHypothesis =>
      have joined := Gap.comment single (by rw [List.append_assoc, following]; exact ends)
        (inductionHypothesis following)
      rw [List.append_assoc]
      exact joined

theorem of_blanks {gap : List Char} (after : List Char)
    (blanks : forall c, c ∈ gap -> Text.isBlank c = true) : Gap gap after := by
  induction gap with
  | nil => exact .nothing after
  | cons c gap inductionHypothesis =>
      refine .blank (blanks c List.mem_cons_self) (inductionHypothesis ?_)
      intro other member
      exact blanks other (List.mem_cons_of_mem _ member)

end Gap

namespace Lexeme

/-- A run of decimal digits with at least one of them. -/
def IsDigits (text : List Char) : Prop :=
  text ≠ [] ∧ forall c, c ∈ text -> c.isDigit = true

end Lexeme

/-- The values that the tokens of a kind can have.  Where all tokens of a kind are
spelled alike, this is the spelling. -/
def Kind.Admits (kind : Kind) (value : List Char) : Prop :=
  match kind with
  | .identifier => Lexeme.IsWord value
  | .int => Lexeme.IsDigits value
  | .float =>
      exists whole places, value = whole ++ '.' :: places ∧ Lexeme.IsDigits whole ∧
        Lexeme.IsDigits places
  | .string => '\'' ∉ value
  | fixed => value = fixed.symbol.toList

/-- A token as it stands in the source.  A string has its quotation marks back, and
the end of the input is no text at all. -/
def Token.written (token : Token) : List Char :=
  match token.kind with
  | .endOfInput => []
  | .string => '\'' :: token.value.toList ++ ['\'']
  | _ => token.value.toList

namespace Lexeme

theorem drop_run (holds : Char -> Bool) (text : List Char) :
    text.drop (run holds text) = text.dropWhile holds := by
  have whole := List.take_append_drop (run holds text) text
  rw [take_run] at whole
  exact List.append_cancel_left (whole.trans List.takeWhile_append_dropWhile.symm)

theorem of_head?_dropWhile {holds : Char -> Bool} {text : List Char} {c : Char}
    (first : (text.dropWhile holds).head? = some c) : holds c = false := by
  have stops := List.head?_dropWhile_not holds text
  rw [first] at stops
  exact stops

theorem comment_width_eq {text : List Char} (positive : 0 < comment.width text) :
    exists rest, text = '/' :: '/' :: rest ∧
      comment.width text = run (· != '\n') rest + 2 := by
  by_cases slashed : exists rest, text = '/' :: '/' :: rest
  · rcases slashed with ⟨rest, rfl⟩
    exact ⟨rest, rfl, Nat.add_comm _ _⟩
  · have nothing : comment.width text = 0 :=
      width.eq_3 text fun rest same => slashed ⟨rest, same⟩
    omega

/-- A lexeme that yields no token is a gap. -/
theorem gap_of_silent {lexeme : Lexeme} {text : List Char} (positive : 0 < lexeme.width text)
    (silent : lexeme.kind? (text.take (lexeme.width text)) = none) :
    Gap (text.take (lexeme.width text)) (text.drop (lexeme.width text)) := by
  cases lexeme with
  | blanks =>
      rw [width, take_run]
      exact Gap.of_blanks _ fun c member => of_mem_takeWhile member
  | comment =>
      rcases comment_width_eq positive with ⟨rest, rfl, same⟩
      rw [same, List.take_succ_cons, List.take_succ_cons, List.drop_succ_cons,
        List.drop_succ_cons, take_run, drop_run]
      have single : '\n' ∉ rest.takeWhile (· != '\n') := by
        intro member
        have different := of_mem_takeWhile member
        simp at different
      have ends : forall c, ([] ++ rest.dropWhile (· != '\n')).head? = some c -> c = '\n' := by
        intro c first
        have stops := of_head?_dropWhile first
        simpa using stops
      have commented := Gap.comment single ends (.nothing _)
      rw [List.append_nil] at commented
      exact commented
  | word => cases silent
  | number => cases silent
  | string => cases silent
  | fixed kind => cases silent

/-! ## Tokens as they are written -/

theorem isDigits_takeWhile {text : List Char} (some : run Char.isDigit text ≠ 0) :
    IsDigits (text.takeWhile Char.isDigit) :=
  ⟨fun empty => some (by rw [run, empty]; rfl), fun _ member => of_mem_takeWhile member⟩

theorem fractionWidth_eq {text : List Char} (positive : fractionWidth text ≠ 0) :
    exists digits, text = '.' :: digits ∧ run Char.isDigit digits ≠ 0 ∧
      fractionWidth text = run Char.isDigit digits + 1 := by
  unfold fractionWidth at positive ⊢
  split at positive
  next digits =>
    by_cases none : run Char.isDigit digits = 0
    · simp [none] at positive
    · exact ⟨digits, rfl, none, by simp [none]⟩
  next => exact absurd rfl positive

/-- A number is a run of digits, or two of them with a point between. -/
theorem admits_number {text : List Char} (positive : 0 < number.width text) :
    (if '.' ∈ text.take (number.width text) then Kind.float else Kind.int).Admits
      (text.take (number.width text)) := by
  have some : run Char.isDigit text ≠ 0 := by
    intro none
    simp [width, none] at positive
  have digits := isDigits_takeWhile some
  have pointless : '.' ∉ text.takeWhile Char.isDigit := by
    intro member
    exact absurd (of_mem_takeWhile member) (by decide)
  have taken : text.take (number.width text) = text.takeWhile Char.isDigit ++
      (text.dropWhile Char.isDigit).take (fractionWidth (text.dropWhile Char.isDigit)) := by
    rw [width, if_neg some, List.take_add, take_run, drop_run]
  by_cases whole : fractionWidth (text.dropWhile Char.isDigit) = 0
  · rw [whole, List.take_zero, List.append_nil] at taken
    rw [taken, if_neg pointless]
    exact digits
  · rcases fractionWidth_eq whole with ⟨places, point, more, same⟩
    rw [same, point, List.take_succ_cons, take_run] at taken
    rw [taken, if_pos (by simp)]
    exact ⟨_, _, rfl, digits, isDigits_takeWhile more⟩

/-- A string literal stands between two quotation marks. -/
theorem take_string {text : List Char} (positive : 0 < string.width text) :
    exists contents, text.take (string.width text) = '\'' :: contents ++ ['\''] := by
  rcases string_width_eq positive with ⟨rest, rfl, ended, same⟩
  refine ⟨rest.takeWhile (· != '\''), ?_⟩
  have closed : exists later, rest.dropWhile (· != '\'') = '\'' :: later := by
    cases found : rest.dropWhile (· != '\'') with
    | nil =>
        have whole := congrArg List.length (drop_run (· != '\'') rest)
        rw [found, List.length_drop, List.length_nil] at whole
        omega
    | cons c later =>
        have first : (rest.dropWhile (· != '\'')).head? = some c := by
          rw [found]
          rfl
        have stops := of_head?_dropWhile first
        rw [bne_eq_false_iff_eq] at stops
        exact ⟨later, by rw [stops]⟩
  rcases closed with ⟨later, found⟩
  rw [same, List.take_succ_cons, List.take_add, take_run, drop_run, found]
  rfl

theorem take_fixed {kind : Kind} {text : List Char} (positive : 0 < (fixed kind).width text) :
    text.take ((fixed kind).width text) = kind.symbol.toList := by
  by_cases starts : kind.symbol.toList.isPrefixOf text = true
  · rw [width, if_pos starts]
    exact (List.prefix_iff_eq_take.mp (List.isPrefixOf_iff_prefix.mp starts)).symm
  · simp [width, starts] at positive

/-- The kinds that have a fixed spelling are not those whose values differ, nor the
end of the input. -/
theorem plain_of_mem_order : forall {kind : Kind}, fixed kind ∈ order ->
    kind.carriesValue = false ∧ kind ≠ .endOfInput := by
  intro kind listed
  cases kind <;> first | exact absurd listed (by decide) | exact ⟨rfl, nofun⟩

end Lexeme

theorem Kind.admits_symbol {kind : Kind} (plain : kind.carriesValue = false) :
    kind.Admits kind.symbol.toList := by
  cases kind <;> first | rfl | cases plain

theorem Token.written_eq_value {token : Token} (unquoted : token.kind ≠ .string)
    (more : token.kind ≠ .endOfInput) : token.written = token.value.toList := by
  unfold written
  split
  next atEnd => exact absurd atEnd more
  next quoted => exact absurd quoted unquoted
  next => rfl

namespace Scanner

/-- A lexeme that yields a token is what that token is written as. -/
theorem written_of_token? {scanner : Scanner} {lexeme : Lexeme} {token : Token}
    (found : Lexeme.first? scanner.rest = some lexeme)
    (yielded : scanner.token? lexeme (lexeme.width scanner.rest) = some token) :
    token.written = scanner.rest.take (lexeme.width scanner.rest) ∧
      token.kind.Admits token.value.toList ∧ token.kind ≠ .endOfInput := by
  have worded := worded_of_token? found yielded
  have positive := Lexeme.width_pos_of_first? found
  have listed := Lexeme.mem_order_of_first? found
  rcases Option.map_eq_some_iff.mp yielded with ⟨kind, isKind, rfl⟩
  cases lexeme with
  | blanks => cases isKind
  | comment => cases isKind
  | word =>
      by_cases marker : scanner.rest.take (Lexeme.word.width scanner.rest) = ['@']
      · simp only [Lexeme.kind?, if_pos marker] at isKind
        cases isKind
        refine ⟨?_, ?_, (by decide : Kind.atSign ≠ .endOfInput)⟩
        · exact String.toList_ofList
        · simp only [Lexeme.value, marker]
          rfl
      · simp only [Lexeme.kind?, if_neg marker] at isKind
        cases isKind
        exact ⟨String.toList_ofList, worded.1 rfl, (by decide : Kind.identifier ≠ .endOfInput)⟩
  | number =>
      have admitted := Lexeme.admits_number positive
      simp only [Lexeme.kind?, Option.some.injEq] at isKind
      rw [isKind] at admitted
      have unquoted : kind ≠ .string := by
        rw [← isKind]
        split <;> decide
      have more : kind ≠ .endOfInput := by
        rw [← isKind]
        split <;> decide
      refine ⟨?_, ?_, more⟩
      · rw [Token.written_eq_value unquoted more]
        exact String.toList_ofList
      · rw [String.toList_ofList]
        exact admitted
  | string =>
      cases isKind
      refine ⟨?_, worded.2 rfl, (by decide : Kind.string ≠ .endOfInput)⟩
      rcases Lexeme.take_string positive with ⟨contents, taken⟩
      simp only [Token.written, String.toList_ofList, Lexeme.value, taken, List.cons_append,
        List.drop_succ_cons, List.drop_zero, List.dropLast_concat]
  | fixed kind =>
      cases isKind
      rcases Lexeme.plain_of_mem_order listed with ⟨plain, more⟩
      have unquoted : kind ≠ .string := by
        rintro rfl
        cases plain
      have spelled := Lexeme.take_fixed positive
      refine ⟨?_, ?_, more⟩
      · rw [Token.written_eq_value unquoted more]
        exact String.toList_ofList
      · simp only [Lexeme.value, String.toList_ofList, spelled]
        exact Kind.admits_symbol plain

/-! ## Readings -/

/-- Between two scanners lies a text of the source. -/
structure Passes (first : Scanner) (text : List Char) (last : Scanner) : Prop where
  rest : first.rest = text ++ last.rest
  offset : last.offset = first.offset + Text.size text
  file : last.file = first.file

namespace Passes

theorem nothing (scanner : Scanner) : Passes scanner [] scanner :=
  ⟨rfl, rfl, rfl⟩

theorem skip (scanner : Scanner) (count : Nat) :
    Passes scanner (scanner.rest.take count) (scanner.skip count) :=
  ⟨(List.take_append_drop _ _).symm, rfl, rfl⟩

theorem append {first middle last : Scanner} {earlier later : List Char}
    (front : Passes first earlier middle) (back : Passes middle later last) :
    Passes first (earlier ++ later) last where
  rest := by rw [front.rest, back.rest, List.append_assoc]
  offset := by rw [back.offset, front.offset, Text.size_append, Nat.add_assoc]
  file := back.file.trans front.file

end Passes

/-- A gap lies between two scanners. -/
def Clears (first last : Scanner) : Prop :=
  exists gap, Passes first gap last ∧ Gap gap last.rest

theorem Clears.nothing (scanner : Scanner) : Clears scanner scanner :=
  ⟨[], .nothing scanner, .nothing _⟩

/-- A lexeme without a token adds to the gap behind it. -/
theorem Clears.skip {scanner last : Scanner} {lexeme : Lexeme}
    (found : Lexeme.first? scanner.rest = some lexeme)
    (silent : scanner.token? lexeme (lexeme.width scanner.rest) = none)
    (cleared : Clears (scanner.skip (lexeme.width scanner.rest)) last) : Clears scanner last := by
  rcases cleared with ⟨gap, passed, isGap⟩
  refine ⟨_, (Passes.skip scanner _).append passed, Gap.append ?_ isGap⟩
  rw [← passed.rest]
  exact Lexeme.gap_of_silent (Lexeme.width_pos_of_first? found) (Option.map_eq_none_iff.mp silent)

/-- A success passes over a gap and over the token as it is written.  It reads the
end of the input exactly where nothing is left behind the gap. -/
structure Yields (scanner : Scanner) (token : Token) (after : Scanner) : Prop where
  passed : exists middle, Clears scanner middle ∧ Passes middle token.written after ∧
    token.span = Span.ofOffset middle.offset (Text.size token.written)
  admitted : token.kind.Admits token.value.toList
  ended : token.kind = .endOfInput <-> token.written = []
  last : token.kind = .endOfInput -> after.rest = []

theorem yields_of_next {scanner after : Scanner} {token : Token}
    (read : scanner.next = .done token after) : Yields scanner token after := by
  fun_induction next scanner with
  | case1 scanner unread =>
      cases read
      exact ⟨⟨_, .nothing _, .nothing _, rfl⟩, rfl, ⟨fun _ => rfl, fun _ => rfl⟩, fun _ => unread⟩
  | case2 => cases read
  | case3 scanner c rest unread lexeme found count token isToken =>
      cases read
      rcases written_of_token? found isToken with ⟨written, admitted, more⟩
      have positive := Lexeme.width_pos_of_first? found
      refine ⟨⟨scanner, .nothing scanner, ?_, ?_⟩, admitted, ⟨fun atEnd => absurd atEnd more, ?_⟩,
        fun atEnd => absurd atEnd more⟩
      · rw [written]
        exact .skip scanner count
      · rcases Option.map_eq_some_iff.mp isToken with ⟨kind, isKind, rfl⟩
        rw [written]
      · intro empty
        rw [written, List.take_eq_nil_iff] at empty
        rcases empty with none | nothing
        · omega
        · cases unread.symm.trans nothing
  | case4 scanner c rest unread lexeme found count noToken inductionHypothesis =>
      have yielded := inductionHypothesis read
      rcases yielded.passed with ⟨middle, cleared, passed, span⟩
      exact { yielded with passed := ⟨middle, cleared.skip found noToken, passed, span⟩ }

/-- A failure passes over a gap only. -/
theorem clears_of_failed {scanner after : Scanner} {fault : Fault}
    (read : scanner.next = .failed fault after) :
    Clears scanner after ∧ exists c rest, after.rest = c :: rest ∧
      Lexeme.first? after.rest = none ∧ fault = after.faultAt c := by
  fun_induction next scanner with
  | case1 => cases read
  | case2 scanner c rest unread absent =>
      cases read
      exact ⟨.nothing _, c, rest, unread, absent, rfl⟩
  | case3 => cases read
  | case4 scanner c rest unread lexeme found count noToken inductionHypothesis =>
      rcases inductionHypothesis read with ⟨cleared, stopped⟩
      exact ⟨cleared.skip found noToken, stopped⟩

theorem Clears.passes {first last : Scanner} (cleared : Clears first last) :
    exists text, Passes first text last := by
  rcases cleared with ⟨gap, passed, _⟩
  exact ⟨gap, passed⟩

theorem Yields.passes {scanner after : Scanner} {token : Token}
    (yielded : Yields scanner token after) : exists text, Passes scanner text after := by
  rcases yielded.passed with ⟨middle, ⟨gap, cleared, _⟩, passed, _⟩
  exact ⟨_, cleared.append passed⟩

/-! ## Readings repeated -/

/-- The end of the input is read again and again. -/
theorem next_of_endOfInput {scanner after : Scanner} {token : Token}
    (read : scanner.next = .done token after) (atEnd : token.kind = .endOfInput) :
    after.next = .done token after := by
  fun_induction next scanner with
  | case1 scanner unread =>
      cases read
      rw [next]
      split
      next => rfl
      next more => cases unread.symm.trans more
  | case2 => cases read
  | case3 scanner c rest unread lexeme found count token isToken =>
      cases read
      exact absurd atEnd (written_of_token? found isToken).2.2
  | case4 scanner c rest unread lexeme found count noToken inductionHypothesis =>
      exact inductionHypothesis read

/-- Where no lexeme starts the reading fails. -/
theorem next_of_none {scanner : Scanner} {c : Char} {rest : List Char}
    (unread : scanner.rest = c :: rest) (absent : Lexeme.first? scanner.rest = none) :
    scanner.next = .failed (scanner.faultAt c) scanner := by
  rw [next]
  split
  next ended => cases unread.symm.trans ended
  next first later more =>
    cases unread.symm.trans more
    split
    next => rfl
    next found => cases absent.symm.trans found

/-- A scanner that has failed fails again in the same way. -/
theorem next_of_failed {scanner after : Scanner} {fault : Fault}
    (read : scanner.next = .failed fault after) : after.next = .failed fault after := by
  rcases clears_of_failed read with ⟨_, c, rest, unread, absent, rfl⟩
  exact next_of_none unread absent

end Scanner
end SignalScript
