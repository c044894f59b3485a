import SignalScript.Proofs.Enclosure
import SignalScript.Proofs.Punctuation

namespace SignalScript

/-!
Closing delimiters behind a text.

A closing delimiter ends every lexeme except a comment.  Therefore a text with closing delimiters
behind it has the tokens that it has without them, and then some closing delimiters.  A comment at
the end of the text swallows all of what is put behind it.
-/

/-- A text of closing delimiters and nothing else. -/
def Text.OnlyClosers (text : List Char) : Prop :=
  forall c, c ∈ text -> c = ')' ∨ c = ']'

namespace Lexeme

open SignalScript.Text

/-! ## Closing delimiters behind a text -/

section
variable {tail : List Char} (closers : OnlyClosers tail)
include closers

/-- A run that takes no closing delimiter ends in front of them. -/
theorem run_closers {holds : Char -> Bool} (paren : holds ')' = false)
    (bracket : holds ']' = false) (text : List Char) :
    run holds (text ++ tail) ≤ text.length := by
  have none : run holds tail = 0 := by
    cases tail with
    | nil => rfl
    | cons c rest => rcases closers c List.mem_cons_self with rfl | rfl <;> simp [run, *]
  have least := run_le_length holds text
  rw [run_append, none]
  split <;> omega

/-- A run that takes every closing delimiter goes on through all of them. -/
theorem run_through_closers {holds : Char -> Bool} (paren : holds ')' = true)
    (bracket : holds ']' = true) : run holds tail = tail.length := by
  rw [run, List.takeWhile_eq_self_iff.mpr]
  intro c member
  rcases closers c member with rfl | rfl
  · exact paren
  · exact bracket

theorem fractionWidth_closers (text : List Char) :
    fractionWidth (text ++ tail) ≤ text.length := by
  cases text with
  | nil =>
      cases tail with
      | nil => exact Nat.le_refl _
      | cons c rest => rcases closers c List.mem_cons_self with rfl | rfl <;> exact Nat.le_refl _
  | cons c rest =>
      by_cases point : c = '.'
      · subst point
        have places : run Char.isDigit (rest ++ tail) ≤ rest.length :=
          run_closers closers rfl rfl rest
        simp only [List.cons_append, fractionWidth, List.length_cons]
        split <;> omega
      · simp [fractionWidth, point]

theorem string_width_closers (text : List Char) :
    string.width (text ++ tail) ≤ text.length := by
  rcases Nat.eq_zero_or_pos (string.width (text ++ tail)) with none | some
  · rw [none]
    exact Nat.zero_le _
  · rcases string_width_eq some with ⟨rest, whole, ended, same⟩
    cases text with
    | nil =>
        have mark : '\'' ∈ tail := by
          rw [List.nil_append] at whole
          rw [whole]
          exact List.mem_cons_self
        rcases closers _ mark with absurd | absurd <;> cases absurd
    | cons c front =>
        -- The partner of the quotation mark is no closing delimiter, so it stands in front.
        rw [List.cons_append] at whole
        cases whole
        have through : run (· != '\'') tail = tail.length := run_through_closers closers rfl rfl
        rw [run_append, through] at ended same
        rw [List.length_append] at ended
        have least := run_le_length (· != '\'') front
        rw [List.length_cons, same]
        split at ended
        · omega
        · rw [if_neg (by assumption)]
          omega

end

/-- Behind the first character of a spelling there is no closing delimiter. -/
theorem closer_not_mem_symbol (kind : Kind) :
    ')' ∉ kind.symbol.toList.tail ∧ ']' ∉ kind.symbol.toList.tail := by
  cases kind <;> decide

theorem fixed_width_closers {tail : List Char} (closers : OnlyClosers tail) (kind : Kind)
    {text : List Char} (something : text ≠ []) :
    (fixed kind).width (text ++ tail) ≤ text.length := by
  simp only [width]
  split
  next spelled =>
    have spelling := List.isPrefixOf_iff_prefix.mp spelled
    rcases Nat.lt_or_ge text.length kind.symbol.toList.length with longer | shorter
    · -- A spelling that reaches into the tail has a closing delimiter in it.
      cases tail with
      | nil =>
          have least := spelling.length_le
          rw [List.append_nil] at least
          omega
      | cons c later =>
          have reaches : text ++ [c] <+: kind.symbol.toList := by
            refine List.prefix_of_prefix_length_le ?_ spelling (by simpa using longer)
            exact ⟨later, by simp⟩
          rcases reaches with ⟨rest, same⟩
          have member : c ∈ kind.symbol.toList.tail := by
            cases text with
            | nil => exact absurd rfl something
            | cons first front =>
                rw [← same]
                simp
          rcases closers c List.mem_cons_self with rfl | rfl
          · exact absurd member (closer_not_mem_symbol kind).1
          · exact absurd member (closer_not_mem_symbol kind).2
    · exact shorter
  next => exact Nat.zero_le _

/-- Apart from comments no lexeme reaches over closing delimiters. -/
theorem width_closers {lexeme : Lexeme} {text tail : List Char} (closers : OnlyClosers tail)
    (other : lexeme ≠ .comment) (something : text ≠ []) :
    lexeme.width (text ++ tail) ≤ text.length := by
  cases lexeme with
  | blanks => exact run_closers closers (by decide) (by decide) text
  | comment => exact absurd rfl other
  | word =>
      cases text with
      | nil => exact absurd rfl something
      | cons c rest =>
          have letters : run continuesWord (rest ++ tail) ≤ rest.length :=
            run_closers closers (by decide) (by decide) rest
          simp only [List.cons_append, width, List.length_cons]
          split <;> omega
  | number =>
      have digits : run Char.isDigit (text ++ tail) ≤ text.length :=
        run_closers closers rfl rfl text
      have fraction := fractionWidth_closers closers (text.drop (run Char.isDigit (text ++ tail)))
      rw [List.length_drop] at fraction
      simp only [width]
      rw [List.drop_append_of_le_length digits]
      split <;> omega
  | string => exact string_width_closers closers text
  | fixed kind => exact fixed_width_closers closers kind something

/-- A comment that reaches over closing delimiters takes all of them. -/
theorem comment_width_closers {text tail : List Char} (closers : OnlyClosers tail)
    (reaches : text.length < comment.width (text ++ tail)) :
    comment.width text = text.length ∧ 0 < text.length ∧
      comment.width (text ++ tail) = (text ++ tail).length := by
  rcases comment_width_eq (Nat.lt_of_le_of_lt (Nat.zero_le _) reaches) with ⟨rest, whole, same⟩
  have slashless : '/' ∉ tail := by
    intro member
    rcases closers _ member with absurd | absurd <;> cases absurd
  rcases text with _ | ⟨c, _ | ⟨d, front⟩⟩
  · rw [List.nil_append] at whole
    rw [whole] at slashless
    exact absurd List.mem_cons_self slashless
  · rw [List.singleton_append] at whole
    rw [(List.cons.inj whole).2] at slashless
    exact absurd List.mem_cons_self slashless
  · rw [List.cons_append, List.cons_append] at whole
    cases whole
    have through : run (· != '\n') tail = tail.length := run_through_closers closers rfl rfl
    have least := run_le_length (· != '\n') front
    rw [same, run_append, through, List.length_cons, List.length_cons] at reaches
    split at reaches
    next all =>
      refine ⟨?_, Nat.zero_lt_succ _, ?_⟩
      · rw [width, all, List.length_cons, List.length_cons]
        omega
      · rw [same, run_append, if_pos all, through, List.length_append, List.length_cons,
          List.length_cons]
        omega
    next => omega

end Lexeme

namespace Scanner

open SignalScript.Text

/-- From closing delimiters nothing else is read. -/
theorem next_of_onlyClosers {scanner after : Scanner} {token : Token}
    (closers : OnlyClosers scanner.rest) (read : scanner.next = .done token after) :
    OnlyClosers after.rest ∧ (token.kind = .endOfInput ∨ token.kind.closes = true) := by
  cases unread : scanner.rest with
  | nil =>
      rw [next_of_nil unread] at read
      cases read
      exact ⟨closers, Or.inl rfl⟩
  | cons c rest =>
      rw [unread] at closers
      have later : OnlyClosers rest := fun other member =>
        closers other (List.mem_cons_of_mem _ member)
      have delimiter : exists kind, Kind.delimits kind = true ∧ kind.closes = true ∧
          scanner.rest = kind.symbol.toList ++ rest := by
        rcases closers c List.mem_cons_self with rfl | rfl
        · exact ⟨.closeParen, rfl, rfl, unread⟩
        · exact ⟨.closeBracket, rfl, rfl, unread⟩
      rcases delimiter with ⟨kind, delimits, closes, whole⟩
      rw [next_of_delimiter delimits whole] at read
      cases read
      exact ⟨later, Or.inr closes⟩

/-- With closing delimiters behind a text, a token is read from the text as before, or else the
text has ended and only closing delimiters are left. -/
theorem next_of_closers {scanner after : Scanner} {tail : List Char} {token : Token}
    (closers : OnlyClosers tail) (read : (scanner.followedBy tail).next = .done token after) :
    (token.kind ≠ .endOfInput ∧
      exists short, scanner.next = .done token short ∧ after = short.followedBy tail) ∨
    ((exists ended, scanner.next = .done (Token.endOfInput ended.offset) ended) ∧
      OnlyClosers after.rest ∧ (token.kind = .endOfInput ∨ token.kind.closes = true)) := by
  cases unread : scanner.rest with
  | nil =>
      have only : OnlyClosers (scanner.followedBy tail).rest := by
        rw [followedBy, unread]
        exact closers
      exact Or.inr ⟨⟨scanner, next_of_nil unread⟩, next_of_onlyClosers only read⟩
  | cons c rest =>
      have something : scanner.rest ≠ [] := by
        rw [unread]
        exact List.cons_ne_nil _ _
      have more : (scanner.followedBy tail).rest ≠ [] :=
        fun nothing => something (List.append_eq_nil_iff.mp nothing).1
      rcases first?_of_done read more with ⟨lexeme, found⟩
      rcases Nat.lt_or_ge scanner.rest.length (lexeme.width (scanner.followedBy tail).rest) with
        reaches | within
      · -- Only a comment reaches over the tail, and nothing is left behind it.
        have isComment : lexeme = .comment := by
          by_cases same : lexeme = .comment
          · exact same
          · have least := Lexeme.width_closers closers same something
            exact absurd reaches (Nat.not_lt.mpr least)
        subst isComment
        rcases Lexeme.comment_width_closers closers reaches with ⟨own, positive, whole⟩
        have nothing : (scanner.skip scanner.rest.length).rest = [] := List.drop_length
        have nothingLater :
            ((scanner.followedBy tail).skip (scanner.followedBy tail).rest.length).rest = [] :=
          List.drop_length
        have foundOwn := Lexeme.first?_of_comment (own ▸ positive)
        have ownNext : scanner.next = (scanner.skip scanner.rest.length).next := by
          rw [next_of_silent foundOwn rfl, own]
        have wholeWidth : Lexeme.comment.width (scanner.followedBy tail).rest =
            (scanner.followedBy tail).rest.length := whole
        rw [next_of_silent found rfl, wholeWidth, next_of_nil nothingLater] at read
        cases read
        refine Or.inr ⟨⟨_, ownNext.trans (next_of_nil nothing)⟩, ?_, Or.inl rfl⟩
        rw [nothingLater]
        exact fun c member => absurd member List.not_mem_nil
      · have foundShort := Lexeme.first?_of_append found within
        rw [next_followedBy found within] at read
        rw [next_of_first? foundShort]
        cases isToken : scanner.token? lexeme (lexeme.width scanner.rest) with
        | some token =>
            rw [isToken] at read
            cases read
            exact Or.inl ⟨(written_of_token? foundShort isToken).2.2, _, rfl, rfl⟩
        | none =>
            rw [isToken] at read
            have shorter := skip_shortens foundShort
            exact next_of_closers closers read
termination_by scanner.rest.length

theorem closes_of_scans {first last : Scanner} {tokens : List Token}
    (scans : Scans first tokens last) (closers : OnlyClosers first.rest) :
    AllClose tokens := by
  induction scans with
  | stay => exact fun token member => absurd member List.not_mem_nil
  | onward read more _ inductionHypothesis =>
      rcases next_of_onlyClosers closers read with ⟨later, atEnd | closes⟩
      · exact absurd atEnd more
      · intro token member
        rcases List.mem_cons.mp member with rfl | behind
        · exact closes
        · exact inductionHypothesis later token behind

/-- The tokens of a text with closing delimiters behind it are those of the text and then closing
delimiters. -/
theorem Scans.of_closers {scanner last final : Scanner} {tail : List Char} {tokens : List Token}
    {ended : Token} (closers : OnlyClosers tail)
    (scans : Scans (scanner.followedBy tail) tokens last)
    (read : last.next = .done ended final) (atEnd : ended.kind = .endOfInput) :
    exists front back short stopped, tokens = front ++ back ∧
      AllClose back ∧ Scans scanner front short ∧
      short.next = .done (Token.endOfInput stopped.offset) stopped := by
  generalize longer : scanner.followedBy tail = whole at scans
  induction scans generalizing scanner with
  | stay =>
      subst longer
      rcases next_of_closers closers read with ⟨more, _⟩ | ⟨⟨stopped, own⟩, _⟩
      · exact absurd atEnd more
      · exact ⟨[], [], scanner, stopped, rfl, fun _ member => absurd member List.not_mem_nil,
          .stay scanner, own⟩
  | @onward _ next last token tokens readToken more rest inductionHypothesis =>
      subst longer
      rcases next_of_closers closers readToken with
        ⟨_, short, own, rfl⟩ | ⟨⟨stopped, own⟩, only, ended | closes⟩
      · rcases inductionHypothesis read rfl with
          ⟨front, back, final, stopped, rfl, closing, scans, ownEnd⟩
        exact ⟨token :: front, back, final, stopped, rfl, closing, .onward own more scans, ownEnd⟩
      · exact absurd ended more
      · refine ⟨[], token :: tokens, scanner, stopped, rfl, ?_, .stay scanner, own⟩
        intro other member
        rcases List.mem_cons.mp member with rfl | behind
        · exact closes
        · exact closes_of_scans rest only other behind

end Scanner
end SignalScript
