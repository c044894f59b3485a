import SignalScript.Proofs.Pulling

namespace SignalScript

/-!
How far a lexeme looks.

The scanner decides about the front of a text by looking at all of it.  Yet what lies
behind a lexeme has no say in it: if a text is cut off anywhere behind its first lexeme,
the same lexeme is found at its front.

For whole readings this means that a source can be cut off where one of its tokens starts.
What is left has the tokens in front of that one, at the same offsets, and then the end of
the input.
-/

namespace Lexeme

/-! ## Texts cut off -/

theorem run_le_length (holds : Char -> Bool) (text : List Char) :
    run holds text ≤ text.length :=
  (List.takeWhile_sublist holds).length_le

theorem fractionWidth_le_length (text : List Char) : fractionWidth text ≤ text.length := by
  fun_cases fractionWidth text with
  | case1 => exact Nat.zero_le _
  | case2 digits places some => exact Nat.succ_le_succ (run_le_length _ digits)
  | case3 => exact Nat.zero_le _

/-- No class takes more than there is. -/
theorem width_le_length (lexeme : Lexeme) (text : List Char) :
    lexeme.width text ≤ text.length := by
  fun_cases width lexeme text with
  | case1 => exact run_le_length _ _
  | case2 rest =>
      have line := run_le_length (· != '\n') rest
      rw [List.length_cons, List.length_cons]
      omega
  | case3 => exact Nat.zero_le _
  | case4 c rest starts =>
      rw [Nat.add_comm]
      exact Nat.succ_le_succ (run_le_length continuesWord rest)
  | case5 => exact Nat.zero_le _
  | case6 => exact Nat.zero_le _
  | case7 => exact Nat.zero_le _
  | case8 text digits some =>
      have whole := run_le_length Char.isDigit text
      have fraction := fractionWidth_le_length (text.drop digits)
      rw [List.length_drop] at fraction
      omega
  | case9 rest contents closed => exact Nat.succ_le_succ closed
  | case10 => exact Nat.zero_le _
  | case11 => exact Nat.zero_le _
  | case12 text kind spelling spelled => exact (List.isPrefixOf_iff_prefix.mp spelled).length_le
  | case13 => exact Nat.zero_le _

theorem run_append (holds : Char -> Bool) (text after : List Char) :
    run holds (text ++ after) =
      if run holds text = text.length then text.length + run holds after else run holds text := by
  unfold run
  rw [List.takeWhile_append]
  split
  · rw [List.length_append]
  · rfl

/-- A run ends where the characters of its class do. -/
theorem run_exact {holds : Char -> Bool} {text after : List Char}
    (within : forall c, c ∈ text -> holds c = true)
    (ends : forall c, after.head? = some c -> holds c = false) :
    run holds (text ++ after) = text.length := by
  rw [run, List.takeWhile_append_of_pos within, List.length_append]
  cases after with
  | nil => rfl
  | cons c after => simp [ends c rfl]

/-- A run that ends within a text ends there whatever follows. -/
theorem run_of_append {holds : Char -> Bool} {text after : List Char}
    (fits : run holds (text ++ after) ≤ text.length) :
    run holds text = run holds (text ++ after) := by
  rw [run_append] at fits ⊢
  split
  next whole =>
    rw [if_pos whole] at fits
    omega
  next => rfl

theorem fractionWidth_of_append {text after : List Char}
    (fits : fractionWidth (text ++ after) ≤ text.length) :
    fractionWidth text = fractionWidth (text ++ after) := by
  cases text with
  | nil => exact (Nat.le_zero.mp fits).symm
  | cons c rest =>
      by_cases point : c = '.'
      · subst point
        rw [List.cons_append] at fits ⊢
        simp only [fractionWidth, List.length_cons] at fits ⊢
        have places : run Char.isDigit rest = run Char.isDigit (rest ++ after) := by
          apply run_of_append
          split at fits <;> omega
        rw [places]
      · simp [fractionWidth, point]

theorem number_width_of_append {text after : List Char}
    (fits : number.width (text ++ after) ≤ text.length) :
    number.width text = number.width (text ++ after) := by
  simp only [width] at fits ⊢
  have digits : run Char.isDigit text = run Char.isDigit (text ++ after) := by
    apply run_of_append
    split at fits <;> omega
  rw [← digits, List.drop_append_of_le_length (run_le_length _ _)] at fits ⊢
  split
  next => rfl
  next some =>
    rw [if_neg some] at fits
    have fraction : fractionWidth (text.drop (run Char.isDigit text)) =
        fractionWidth (text.drop (run Char.isDigit text) ++ after) := by
      apply fractionWidth_of_append
      rw [List.length_drop]
      omega
    rw [fraction]

/-- A quotation mark that has its partner within a text has it there whatever follows. -/
theorem string_width_of_append {text after : List Char}
    (fits : string.width (text ++ after) ≤ text.length) :
    string.width text = string.width (text ++ after) := by
  cases text with
  | nil => exact (Nat.le_zero.mp fits).symm
  | cons c rest =>
      by_cases mark : c = '\''
      · subst mark
        rw [List.cons_append] at fits ⊢
        simp only [width, List.length_cons, List.length_append] at fits ⊢
        have least := run_le_length (· != '\'') rest
        rw [run_append] at fits ⊢
        by_cases whole : run (· != '\'') rest = rest.length
        · rw [if_pos whole] at fits ⊢
          rw [if_neg (by omega)]
          split at fits
          next => omega
          next missing => rw [if_neg missing]
        · rw [if_neg whole] at fits ⊢
          rw [if_pos (by omega), if_pos (by omega)]
      · simp [width, mark]

theorem comment_width_of_append {text after : List Char}
    (fits : comment.width (text ++ after) ≤ text.length) :
    comment.width text = comment.width (text ++ after) := by
  rcases Nat.eq_zero_or_pos (comment.width (text ++ after)) with none | some
  · rcases Nat.eq_zero_or_pos (comment.width text) with same | more
    · rw [same, none]
    · rcases comment_width_eq more with ⟨rest, rfl, _⟩
      simp [width] at none
  · rcases comment_width_eq some with ⟨rest, whole, same⟩
    rw [same] at fits
    rcases text with _ | ⟨c, _ | ⟨d, front⟩⟩
    · cases fits
    · rw [List.length_singleton] at fits
      omega
    · cases whole
      rw [List.length_cons, List.length_cons] at fits
      have line : run (· != '\n') front = run (· != '\n') (front ++ after) :=
        run_of_append (Nat.le_of_add_le_add_right fits)
      rw [List.cons_append, List.cons_append, width, width, line]

/-- What a class takes from the front of a text, it takes whatever follows. -/
theorem width_of_append {lexeme : Lexeme} {text after : List Char}
    (fits : lexeme.width (text ++ after) ≤ text.length) :
    lexeme.width text = lexeme.width (text ++ after) := by
  cases lexeme with
  | blanks => exact run_of_append fits
  | comment => exact comment_width_of_append fits
  | word =>
      cases text with
      | nil => exact (Nat.le_zero.mp fits).symm
      | cons c rest =>
          simp only [List.cons_append, width, List.length_cons] at fits ⊢
          split
          next starts =>
            rw [if_pos starts] at fits
            have letters : run continuesWord rest = run continuesWord (rest ++ after) :=
              run_of_append (by omega)
            rw [letters]
          next => rfl
  | number => exact number_width_of_append fits
  | string => exact string_width_of_append fits
  | fixed kind =>
      simp only [width] at fits ⊢
      by_cases spelled : kind.symbol.toList.isPrefixOf (text ++ after) = true
      · rw [if_pos spelled] at fits ⊢
        have short : kind.symbol.toList <+: text :=
          List.prefix_of_prefix_length_le (List.isPrefixOf_iff_prefix.mp spelled)
            (List.prefix_append text after) fits
        rw [if_pos (List.isPrefixOf_iff_prefix.mpr short)]
      · have unspelled : ¬ kind.symbol.toList.isPrefixOf text = true := by
          intro short
          exact spelled (List.isPrefixOf_iff_prefix.mpr
            ((List.isPrefixOf_iff_prefix.mp short).trans (List.prefix_append text after)))
        rw [if_neg spelled, if_neg unspelled]

/-- A lexeme is found at the front of a text whatever follows it. -/
theorem first?_of_append {lexeme : Lexeme} {text after : List Char}
    (found : first? (text ++ after) = some lexeme)
    (fits : lexeme.width (text ++ after) ≤ text.length) : first? text = some lexeme := by
  rcases List.find?_eq_some_iff_append.mp found with ⟨positive, earlier, later, listed, before⟩
  refine List.find?_eq_some_iff_append.mpr ⟨?_, earlier, later, listed, ?_⟩
  · rw [width_of_append fits]
    exact positive
  · intro other member
    have none : other.width (text ++ after) = 0 := by simpa using before other member
    have same : other.width text = other.width (text ++ after) :=
      width_of_append (by omega)
    simp [same, none]

end Lexeme

namespace Scanner

/-! ## The first lexeme decides -/

theorem next_of_nil {scanner : Scanner} (unread : scanner.rest = []) :
    scanner.next = .done (Token.endOfInput scanner.offset) scanner := by
  rw [next]
  split
  next => rfl
  next more => cases unread.symm.trans more

/-- Behind a lexeme without a token the reading goes on. -/
theorem next_of_first? {scanner : Scanner} {lexeme : Lexeme}
    (found : Lexeme.first? scanner.rest = some lexeme) :
    scanner.next =
      match scanner.token? lexeme (lexeme.width scanner.rest) with
      | some token => .done token (scanner.skip (lexeme.width scanner.rest))
      | none => (scanner.skip (lexeme.width scanner.rest)).next := by
  rw [next]
  split
  next ended =>
    rw [ended] at found
    cases found
  next =>
    split
    next absent => cases found.symm.trans absent
    next other same =>
      cases found.symm.trans same
      rfl

theorem next_of_token {scanner : Scanner} {lexeme : Lexeme} {token : Token}
    (found : Lexeme.first? scanner.rest = some lexeme)
    (isToken : scanner.token? lexeme (lexeme.width scanner.rest) = some token) :
    scanner.next = .done token (scanner.skip (lexeme.width scanner.rest)) := by
  rw [next_of_first? found, isToken]

theorem next_of_silent {scanner : Scanner} {lexeme : Lexeme}
    (found : Lexeme.first? scanner.rest = some lexeme)
    (silent : scanner.token? lexeme (lexeme.width scanner.rest) = none) :
    scanner.next = (scanner.skip (lexeme.width scanner.rest)).next := by
  rw [next_of_first? found, silent]

theorem skip_shortens {scanner : Scanner} {lexeme : Lexeme}
    (found : Lexeme.first? scanner.rest = some lexeme) :
    (scanner.skip (lexeme.width scanner.rest)).rest.length < scanner.rest.length := by
  have positive := Lexeme.width_pos_of_first? found
  have within := Lexeme.width_le_length lexeme scanner.rest
  rw [skip, List.length_drop]
  omega

/-- A reading that succeeds before the end of the input has found a lexeme. -/
theorem first?_of_done {scanner after : Scanner} {token : Token}
    (read : scanner.next = .done token after) (more : scanner.rest ≠ []) :
    exists lexeme, Lexeme.first? scanner.rest = some lexeme := by
  cases found : Lexeme.first? scanner.rest with
  | some lexeme => exact ⟨lexeme, rfl⟩
  | none =>
      rw [next] at read
      split at read
      next ended => exact absurd ended more
      next =>
        split at read
        next => cases read
        next present => cases found.symm.trans present

/-! ## Scanners with more behind -/

/-- The same scanner with more text behind what it has. -/
def followedBy (scanner : Scanner) (tail : List Char) : Scanner where
  file := scanner.file
  offset := scanner.offset
  rest := scanner.rest ++ tail

theorem length_followedBy (scanner : Scanner) (tail : List Char) :
    (scanner.followedBy tail).rest.length = scanner.rest.length + tail.length :=
  List.length_append

section
variable {scanner : Scanner} {tail : List Char} {count : Nat}

theorem skip_followedBy (within : count ≤ scanner.rest.length) :
    (scanner.followedBy tail).skip count = (scanner.skip count).followedBy tail := by
  simp only [followedBy, skip, List.take_append_of_le_length within,
    List.drop_append_of_le_length within]

theorem token?_followedBy (lexeme : Lexeme) (within : count ≤ scanner.rest.length) :
    (scanner.followedBy tail).token? lexeme count = scanner.token? lexeme count := by
  simp only [followedBy, token?, List.take_append_of_le_length within]

/-- As long as a lexeme ends in front of the tail, it is the one without the tail. -/
theorem next_followedBy {lexeme : Lexeme}
    (found : Lexeme.first? (scanner.rest ++ tail) = some lexeme)
    (within : lexeme.width (scanner.rest ++ tail) ≤ scanner.rest.length) :
    (scanner.followedBy tail).next =
      match scanner.token? lexeme (lexeme.width scanner.rest) with
      | some token => .done token ((scanner.skip (lexeme.width scanner.rest)).followedBy tail)
      | none => ((scanner.skip (lexeme.width scanner.rest)).followedBy tail).next := by
  have same : lexeme.width scanner.rest = lexeme.width (scanner.followedBy tail).rest :=
    Lexeme.width_of_append within
  have foundWhole : Lexeme.first? (scanner.followedBy tail).rest = some lexeme := found
  have fits : lexeme.width scanner.rest ≤ scanner.rest.length := same ▸ within
  rw [next_of_first? foundWhole, ← same, token?_followedBy lexeme fits, skip_followedBy fits]

/-- Whatever a reading returns to, it has passed its first lexeme. -/
theorem width_of_done {lexeme : Lexeme} {token : Token} {after : Scanner}
    (found : Lexeme.first? scanner.rest = some lexeme)
    (read : scanner.next = .done token after) :
    lexeme.width scanner.rest + after.rest.length ≤ scanner.rest.length := by
  have taken := Lexeme.width_le_length lexeme scanner.rest
  have left : (scanner.skip (lexeme.width scanner.rest)).rest.length =
      scanner.rest.length - lexeme.width scanner.rest := List.length_drop
  rw [next_of_first? found] at read
  split at read
  next =>
    cases read
    omega
  next =>
    have shorter := next_shortens _ read
    omega

end

/-- A reading that leaves the tail alone is the reading without it. -/
theorem next_of_followedBy {scanner after : Scanner} {tail : List Char} {token : Token}
    (read : (scanner.followedBy tail).next = .done token after)
    (more : token.kind ≠ .endOfInput) (left : tail.length ≤ after.rest.length) :
    exists short, scanner.next = .done token short ∧ after = short.followedBy tail := by
  have something : (scanner.followedBy tail).rest ≠ [] := by
    intro nothing
    rw [next_of_nil nothing] at read
    cases read
    exact more rfl
  rcases first?_of_done read something with ⟨lexeme, found⟩
  have passed := width_of_done found read
  have within : lexeme.width (scanner.followedBy tail).rest ≤ scanner.rest.length := by
    rw [length_followedBy] at passed
    omega
  have foundShort := Lexeme.first?_of_append found within
  rw [next_followedBy found within] at read
  rw [next_of_first? foundShort]
  cases isToken : scanner.token? lexeme (lexeme.width scanner.rest) with
  | some token =>
      rw [isToken] at read
      cases read
      exact ⟨_, rfl, rfl⟩
  | none =>
      rw [isToken] at read
      have shorter := skip_shortens foundShort
      exact next_of_followedBy read more left
termination_by scanner.rest.length

/-- A lexeme without a token that ends in front of the tail is passed without the tail as
well. -/
theorem next_of_silent_within {scanner : Scanner} {tail : List Char} {lexeme : Lexeme}
    (found : Lexeme.first? (scanner.followedBy tail).rest = some lexeme)
    (within : lexeme.width (scanner.followedBy tail).rest ≤ scanner.rest.length)
    (silent : (scanner.followedBy tail).token? lexeme
      (lexeme.width (scanner.followedBy tail).rest) = none) :
    scanner.next = (scanner.skip (lexeme.width (scanner.followedBy tail).rest)).next := by
  have same : lexeme.width scanner.rest = lexeme.width (scanner.followedBy tail).rest :=
    Lexeme.width_of_append within
  rw [token?_followedBy lexeme within, ← same] at silent
  rw [next_of_silent (Lexeme.first?_of_append found within) silent, same]

/-- Where a token starts the source can be cut off, and its end is read there. -/
theorem next_of_cut {whole scanner after : Scanner} {tail : List Char} {token : Token}
    (longer : whole = scanner.followedBy tail) (read : whole.next = .done token after)
    (more : token.kind ≠ .endOfInput) (starts : tail = token.written ++ after.rest) :
    exists ended, scanner.next = .done (Token.endOfInput ended.offset) ended := by
  revert scanner
  fun_induction next whole with
  | case1 =>
      cases read
      exact absurd rfl more
  | case2 => cases read
  | case3 whole c rest unread lexeme found count _ isToken =>
      rintro scanner rfl
      cases read
      -- The first lexeme is the token itself, so nothing stands in front of the tail.
      have nothing : scanner.rest = [] := by
        rw [(written_of_token? found isToken).1, skip, List.take_append_drop] at starts
        exact List.self_eq_append_left.mp starts
      exact ⟨scanner, next_of_nil nothing⟩
  | case4 whole c rest unread lexeme found count silent inductionHypothesis =>
      rintro scanner rfl
      -- The token is still to come, so the lexeme ends in front of the tail.
      have within : count ≤ scanner.rest.length := by
        rcases (yields_of_next read).passed with ⟨middle, ⟨gap, cleared, _⟩, passed, _⟩
        have size := congrArg List.length cleared.rest
        have taken := Lexeme.width_le_length lexeme (scanner.followedBy tail).rest
        rw [passed.rest, ← starts, skip, List.length_drop, List.length_append] at size
        rw [length_followedBy] at taken size
        omega
      rw [next_of_silent_within found within silent]
      exact inductionHypothesis read (skip_followedBy within)

/-- Where a reading fails the source can be cut off, and its end is read there. -/
theorem next_of_cut_failed {whole scanner after : Scanner} {tail : List Char} {fault : Fault}
    (longer : whole = scanner.followedBy tail) (read : whole.next = .failed fault after)
    (stops : after.rest = tail) :
    exists ended, scanner.next = .done (Token.endOfInput ended.offset) ended ∧
      after = ended.followedBy tail := by
  revert scanner
  fun_induction next whole with
  | case1 => cases read
  | case2 =>
      rintro scanner rfl
      cases read
      have nothing : scanner.rest = [] := List.append_left_eq_self.mp stops
      exact ⟨scanner, next_of_nil nothing, rfl⟩
  | case3 => cases read
  | case4 whole c rest unread lexeme found count silent inductionHypothesis =>
      rintro scanner rfl
      -- The place of the failure is still to come, so the lexeme ends in front of the tail.
      have within : count ≤ scanner.rest.length := by
        rcases (clears_of_failed read).1 with ⟨gap, cleared, _⟩
        have size := congrArg List.length cleared.rest
        have taken := Lexeme.width_le_length lexeme (scanner.followedBy tail).rest
        rw [stops, skip, List.length_drop, List.length_append] at size
        rw [length_followedBy] at taken size
        omega
      rw [next_of_silent_within found within silent]
      exact inductionHypothesis read (skip_followedBy within)

/-! ## Tokens in a row -/

/-- Reading the listed tokens one after another leads from the first scanner to the
second.  None of them is the end of the input. -/
inductive Scans : Scanner -> List Token -> Scanner -> Prop
  | stay (scanner : Scanner) : Scans scanner [] scanner
  | onward {scanner next last : Scanner} {token : Token} {tokens : List Token} :
      scanner.next = .done token next ->
      token.kind ≠ .endOfInput ->
      Scans next tokens last ->
      Scans scanner (token :: tokens) last

namespace Scans

theorem append {first middle last : Scanner} {earlier later : List Token}
    (front : Scans first earlier middle) (back : Scans middle later last) :
    Scans first (earlier ++ later) last := by
  induction front with
  | stay => exact back
  | onward read more _ inductionHypothesis => exact .onward read more (inductionHypothesis back)

theorem length_le {first last : Scanner} {tokens : List Token}
    (scans : Scans first tokens last) : last.rest.length ≤ first.rest.length := by
  induction scans with
  | stay => exact Nat.le_refl _
  | onward read _ _ inductionHypothesis =>
      have shorter := next_shortens _ read
      omega

theorem passes {first last : Scanner} {tokens : List Token} (scans : Scans first tokens last) :
    exists text, Passes first text last := by
  induction scans with
  | stay scanner => exact ⟨[], .nothing scanner⟩
  | onward read _ _ inductionHypothesis =>
      rcases (yields_of_next read).passes with ⟨front, reached⟩
      rcases inductionHypothesis with ⟨text, passed⟩
      exact ⟨front ++ text, reached.append passed⟩

/-- Tokens in front of a tail are read without it as well. -/
theorem of_followedBy {first last : Scanner} {tail : List Char} {tokens : List Token}
    (scans : Scans (first.followedBy tail) tokens last)
    (left : tail.length ≤ last.rest.length) :
    exists short, Scans first tokens short ∧ last = short.followedBy tail := by
  generalize longer : first.followedBy tail = whole at scans
  induction scans generalizing first with
  | stay =>
      exact ⟨first, .stay first, longer.symm⟩
  | onward read more rest inductionHypothesis =>
      subst longer
      rcases next_of_followedBy read more (Nat.le_trans left rest.length_le) with
        ⟨short, readShort, rfl⟩
      rcases inductionHypothesis left rfl with ⟨final, scans, same⟩
      exact ⟨final, .onward readShort more scans, same⟩

/-- A parser that follows the scanner takes the tokens that it reads. -/
theorem trail {scanner middle : Scanner} {last : Parser} {tokens : List Token}
    (scans : Scans scanner tokens middle)
    (read : middle.next = .done last.ahead last.scanner) :
    exists first : Parser, scanner.next = .done first.ahead first.scanner ∧
      first.depth = last.depth ∧ Parser.Trail first tokens last := by
  induction scans with
  | stay => exact ⟨last, read, rfl, .stay last⟩
  | @onward scanner next _ token tokens held more _ inductionHypothesis =>
      rcases inductionHypothesis read with ⟨after, readAfter, depth, trail⟩
      refine ⟨⟨next, token, last.depth⟩, held, rfl, ?_⟩
      exact .onward more (Parser.advance_eq_done_iff.mpr ⟨rfl, depth, readAfter⟩) trail

end Scans

/-- The tokens that a parser takes are read by the scanner that it follows. -/
theorem scans_of_trail {scanner : Scanner} {first last : Parser} {tokens : List Token}
    (trail : Parser.Trail first tokens last)
    (read : scanner.next = .done first.ahead first.scanner) :
    exists middle, Scans scanner tokens middle ∧
      middle.next = .done last.ahead last.scanner := by
  induction trail generalizing scanner with
  | stay => exact ⟨scanner, .stay scanner, read⟩
  | onward more taken _ inductionHypothesis =>
      rcases inductionHypothesis (Parser.advance_eq_done_iff.mp taken).2.2 with
        ⟨middle, scans, readLast⟩
      exact ⟨middle, .onward read more scans, readLast⟩

end Scanner

/-- The token list of a source is what its scanner reads up to the end of the input. -/
theorem tokenize_eq_ok_iff_scans {file source : String} {tokens : List Token} {last : Token} :
    tokenize file source = .ok (tokens ++ [last]) <->
      exists middle ended, (Scanner.ofSource file source).Scans tokens middle ∧
        middle.next = .done last ended ∧ last.kind = .endOfInput := by
  rw [tokenize_eq_ok_iff]
  constructor
  · rintro ⟨parser, final, opened, trail, rfl, atEnd⟩
    rcases Scanner.scans_of_trail trail (Parser.ofSource_eq_ok_iff.mp opened).2 with
      ⟨middle, scans, read⟩
    exact ⟨middle, final.scanner, scans, read, atEnd⟩
  · rintro ⟨middle, ended, scans, read, atEnd⟩
    let final : Parser := ⟨ended, last, 0⟩
    have readFinal : middle.next = .done final.ahead final.scanner := read
    rcases scans.trail readFinal with ⟨first, readFirst, depth, trail⟩
    exact ⟨first, final, Parser.ofSource_eq_ok_iff.mpr ⟨depth, readFirst⟩, trail, rfl,
      atEnd⟩

namespace Scanner

theorem Scans.tokensAfter_eq {first last : Scanner} {tokens : List Token}
    (scans : Scans first tokens last) (taken : List Token) :
    first.tokensAfter taken = last.tokensAfter (tokens.reverse ++ taken) := by
  induction scans generalizing taken with
  | stay => rfl
  | onward read more _ inductionHypothesis =>
      rw [Parser.tokensAfter_of_done taken 0 read, Parser.tokensFrom, if_neg more,
        inductionHypothesis, List.reverse_cons, List.append_assoc]
      rfl

theorem exists_scans_of_tokensAfter {scanner : Scanner} {taken : List Token} {fault : Fault}
    (broken : scanner.tokensAfter taken = .error fault) :
    exists tokens middle stopped, Scans scanner tokens middle ∧
      middle.next = .failed fault stopped := by
  fun_induction tokensAfter taken scanner with
  | case1 taken scanner refusal after read =>
      cases broken
      exact ⟨[], scanner, after, .stay scanner, read⟩
  | case2 => cases broken
  | case3 taken scanner token after read more inductionHypothesis =>
      rcases inductionHypothesis broken with ⟨tokens, middle, stopped, scans, failed⟩
      exact ⟨token :: tokens, middle, stopped, .onward read more scans, failed⟩

end Scanner

/-- A source has no token list exactly if its scanner fails behind some tokens. -/
theorem tokenize_eq_error_iff_scans {file source : String} {fault : Fault} :
    tokenize file source = .error fault <->
      exists tokens middle stopped, (Scanner.ofSource file source).Scans tokens middle ∧
        middle.next = .failed fault stopped := by
  constructor
  · exact Scanner.exists_scans_of_tokensAfter
  · rintro ⟨tokens, middle, stopped, scans, failed⟩
    rw [tokenize, scans.tokensAfter_eq []]
    exact Parser.tokensAfter_of_failed _ failed

/-! ## Sources cut off -/

/-- A source can be cut off where a token starts.  A parser of what is left takes the same
tokens up to there and then holds the end of the input. -/
theorem exists_cut {file source : String} {first last : Parser} {tokens : List Token}
    (opened : Parser.ofSource file source = .ok first)
    (trail : Parser.Trail first tokens last) (more : last.ahead.kind ≠ .endOfInput) :
    exists before twin ended,
      source.toList = before ++ (last.ahead.written ++ last.scanner.rest) ∧
      last.ahead.span.start = UInt32.ofNat (Text.size before) ∧
      Parser.ofSource file (String.ofList before) = .ok twin ∧
      Parser.Trail twin tokens ended ∧ ended.ahead.kind = .endOfInput := by
  rcases Scanner.scans_of_trail trail (Parser.ofSource_eq_ok_iff.mp opened).2 with
    ⟨middle, scans, read⟩
  rcases scans.passes with ⟨taken, passed⟩
  rcases (Scanner.yields_of_next read).passed with ⟨start, ⟨gap, cleared, _⟩, written, span⟩
  have reached := passed.append cleared
  have tail := written.rest
  have whole : Scanner.ofSource file source =
      (Scanner.ofSource file (String.ofList (taken ++ gap))).followedBy start.rest := by
    rw [Scanner.followedBy, Scanner.ofSource, Scanner.ofSource, String.toList_ofList,
      ← reached.rest]
    rfl
  have longer : start.rest.length ≤ middle.rest.length := by
    rw [cleared.rest, List.length_append]
    exact Nat.le_add_left _ _
  rw [whole] at scans
  rcases scans.of_followedBy longer with ⟨short, shortScans, same⟩
  rcases Scanner.next_of_cut same read more tail with ⟨ended, readEnd⟩
  let final : Parser := ⟨ended, Token.endOfInput ended.offset, 0⟩
  have readFinal : short.next = .done final.ahead final.scanner := readEnd
  rcases shortScans.trail readFinal with ⟨twin, readTwin, depth, twinTrail⟩
  refine ⟨taken ++ gap, twin, final, ?_, ?_, Parser.ofSource_eq_ok_iff.mpr ⟨depth, readTwin⟩,
    twinTrail, rfl⟩
  · rw [← tail, ← reached.rest]
    rfl
  · rw [span, Span.ofOffset, reached.offset]
    exact congrArg UInt32.ofNat (Nat.zero_add _)

end SignalScript
