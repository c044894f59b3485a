import SignalScript.Proofs.Extent

namespace SignalScript

/-!
Sources that go on.

A newline ends every lexeme that is not blank itself.  Therefore a text that can be read to
its end is read in the same way when a newline and any other text stand behind it, and what
stands behind the newline is read as if it were a source of its own.  A quotation mark
without its partner would be the exception, but such a text cannot be read at all.

Nor does it matter where a text starts.  Behind other text its tokens are the same, moved by
the number of bytes in front of them.
-/

namespace Lexeme

/-! ## A newline behind a text -/

/-- A run that does not take newlines ends in front of one. -/
theorem run_line {holds : Char -> Bool} (stops : holds '\n' = false) (text more : List Char) :
    run holds (text ++ '\n' :: more) = run holds text := by
  have none : run holds ('\n' :: more) = 0 := by
    simp [run, stops]
  rw [run_append, none]
  split
  next whole => omega
  next => rfl

theorem fractionWidth_line (text more : List Char) :
    fractionWidth (text ++ '\n' :: more) ≤ text.length := by
  cases text with
  | nil => simp [fractionWidth]
  | cons c rest =>
      by_cases point : c = '.'
      · subst point
        have places := run_le_length Char.isDigit rest
        simp only [List.cons_append, fractionWidth, List.length_cons]
        rw [run_line (by decide)]
        split <;> omega
      · simp [fractionWidth, point]

theorem comment_width_line (text more : List Char) :
    comment.width (text ++ '\n' :: more) ≤ text.length := by
  rcases Nat.eq_zero_or_pos (comment.width (text ++ '\n' :: more)) with none | some
  · rw [none]
    exact Nat.zero_le _
  · rcases comment_width_eq some with ⟨rest, whole, same⟩
    rw [same]
    rcases text with _ | ⟨c, _ | ⟨d, front⟩⟩
    · cases whole
    · cases whole
    · cases whole
      have line : run (· != '\n') (front ++ '\n' :: more) = run (· != '\n') front :=
        run_line rfl front more
      have least := run_le_length (· != '\n') front
      change run (· != '\n') (front ++ '\n' :: more) + 2 ≤ front.length + 2
      omega

theorem newline_not_mem_symbol (kind : Kind) : '\n' ∉ kind.symbol.toList := by
  cases kind <;> decide

/-- Apart from blanks no lexeme reaches over a newline, unless a quotation mark has no
partner in front of it. -/
theorem width_line {lexeme : Lexeme} {text : List Char} (more : List Char)
    (other : lexeme ≠ .blanks) (something : text ≠ [])
    (closed : text.head? = some '\'' -> 0 < string.width text) :
    lexeme.width (text ++ '\n' :: more) ≤ text.length := by
  cases lexeme with
  | blanks => exact absurd rfl other
  | comment => exact comment_width_line text more
  | word =>
      cases text with
      | nil => exact absurd rfl something
      | cons c rest =>
          have letters := run_le_length continuesWord rest
          simp only [List.cons_append, width, List.length_cons]
          rw [run_line (by decide)]
          split <;> omega
  | number =>
      have digits := run_le_length Char.isDigit text
      have fraction := fractionWidth_line (text.drop (run Char.isDigit text)) more
      rw [List.length_drop] at fraction
      simp only [width]
      rw [run_line (by decide), List.drop_append_of_le_length digits]
      split <;> omega
  | string =>
      cases text with
      | nil => exact absurd rfl something
      | cons c rest =>
          by_cases mark : c = '\''
          · subst mark
            rcases string_width_eq (closed rfl) with ⟨contents, same, ended, _⟩
            cases same
            have partner : run (· != '\'') (rest ++ '\n' :: more) = run (· != '\'') rest := by
              rw [run_append, if_neg (by omega)]
            simp only [List.cons_append, width, List.length_cons]
            rw [partner]
            split <;> omega
          · simp [width, mark]
  | fixed kind =>
      simp only [width]
      split
      next spelled =>
        have spelling := List.isPrefixOf_iff_prefix.mp spelled
        rcases Nat.lt_or_ge text.length kind.symbol.toList.length with longer | shorter
        · have line : text ++ ['\n'] <+: kind.symbol.toList := by
            refine List.prefix_of_prefix_length_le ?_ spelling (by simpa using longer)
            exact ⟨more, by simp⟩
          exact absurd (line.subset (by simp)) (newline_not_mem_symbol kind)
        · exact shorter
      next => exact Nat.zero_le _

/-- Only a string starts with a quotation mark. -/
theorem eq_string_of_mark {lexeme : Lexeme} {rest : List Char}
    (positive : 0 < lexeme.width ('\'' :: rest)) : lexeme = .string := by
  have blank : Text.isBlank '\'' = false := by decide
  have starts : startsWord '\'' = false := by decide
  have digit : Char.isDigit '\'' = false := by decide
  cases lexeme with
  | string => rfl
  | blanks => simp [width, run, blank] at positive
  | comment => simp [width] at positive
  | word => simp [width, starts] at positive
  | number => simp [width, run, digit] at positive
  | fixed kind => cases kind <;> simp [width, Kind.symbol] at positive

/-- The first character decides whether a text starts with blanks. -/
theorem blanks_pos_iff (c : Char) (rest : List Char) :
    0 < blanks.width (c :: rest) <-> Text.isBlank c = true := by
  cases blank : Text.isBlank c with
  | true => simp [width, run, blank]
  | false => simp [width, run, blank]

theorem first?_of_blank {c : Char} (rest : List Char) (blank : Text.isBlank c = true) :
    first? (c :: rest) = some .blanks :=
  List.find?_cons_of_pos (decide_eq_true ((blanks_pos_iff c rest).mpr blank))

theorem first?_of_comment {text : List Char} (positive : 0 < comment.width text) :
    first? text = some .comment := by
  rcases comment_width_eq positive with ⟨rest, rfl, _⟩
  have blank : ¬ 0 < blanks.width ('/' :: '/' :: rest) := by
    rw [blanks_pos_iff]
    decide
  rw [first?, order, List.find?_cons_of_neg (by simpa using blank),
    List.find?_cons_of_pos (by simpa using positive)]

/-- A lexeme that is not blank is found again when a newline stands behind the text. -/
theorem first?_line {lexeme : Lexeme} {text : List Char} (more : List Char)
    (found : first? text = some lexeme) (other : lexeme ≠ .blanks) :
    first? (text ++ '\n' :: more) = some lexeme ∧
      lexeme.width (text ++ '\n' :: more) ≤ text.length := by
  have something : text ≠ [] := by
    rintro rfl
    cases found
  have closed : text.head? = some '\'' -> 0 < string.width text := by
    intro mark
    have positive := width_pos_of_first? found
    cases text with
    | nil => cases mark
    | cons c rest =>
        cases mark
        rw [eq_string_of_mark positive] at positive
        exact positive
  refine ⟨?_, width_line more other something closed⟩
  have same : forall other : Lexeme, 0 < other.width (text ++ '\n' :: more) <->
      0 < other.width text := by
    intro other
    by_cases blank : other = .blanks
    · subst blank
      cases text with
      | nil => exact absurd rfl something
      | cons c rest => rw [List.cons_append, blanks_pos_iff, blanks_pos_iff]
    · rw [width_of_append (width_line more blank something closed)]
  rw [← found, first?, first?]
  congr 1
  funext other
  exact decide_eq_decide.mpr (same other)

end Lexeme

namespace Scanner

/-! ## Blanks one at a time -/

theorem skip_skip (scanner : Scanner) (first second : Nat) :
    (scanner.skip first).skip second = scanner.skip (first + second) := by
  simp only [skip, List.drop_drop, List.take_add, Text.size_append, Nat.add_assoc]

theorem skip_zero (scanner : Scanner) : scanner.skip 0 = scanner := rfl

/-- Blanks can be passed one at a time. -/
theorem next_of_blank {scanner : Scanner} {c : Char} {rest : List Char}
    (unread : scanner.rest = c :: rest) (blank : Text.isBlank c = true) :
    scanner.next = (scanner.skip 1).next := by
  have unreadNext : (scanner.skip 1).rest = rest := by
    rw [skip, unread]
    rfl
  have all : Lexeme.blanks.width scanner.rest = 1 + Lexeme.run Text.isBlank rest := by
    rw [unread, Lexeme.width, Lexeme.run, List.takeWhile_cons_of_pos blank, List.length_cons,
      Nat.add_comm]
    rfl
  have found : Lexeme.first? scanner.rest = some .blanks := by
    rw [unread]
    exact Lexeme.first?_of_blank rest blank
  have whole : scanner.next = ((scanner.skip 1).skip (Lexeme.run Text.isBlank rest)).next := by
    rw [skip_skip, next_of_first? found, all]
    rfl
  rw [whole]
  cases rest with
  | nil => rfl
  | cons d rest =>
      cases again : Text.isBlank d with
      | false =>
          have none : Lexeme.run Text.isBlank (d :: rest) = 0 := by
            simp [Lexeme.run, again]
          rw [none, skip_zero]
      | true =>
          have foundNext : Lexeme.first? (scanner.skip 1).rest = some .blanks := by
            rw [unreadNext]
            exact Lexeme.first?_of_blank rest again
          rw [next_of_first? foundNext, unreadNext]
          rfl

/-! ## Another line behind -/

/-- A scanner that reaches the end of its text goes on behind the newline. -/
theorem next_of_line {scanner : Scanner} (more : List Char) (unread : scanner.rest = []) :
    (scanner.followedBy ('\n' :: more)).next =
      (Scanner.mk scanner.file (scanner.offset + 1) more).next := by
  have line : (scanner.followedBy ('\n' :: more)).rest = '\n' :: more := by
    rw [followedBy, unread]
    rfl
  rw [next_of_blank line (by decide), skip, line]
  rfl

/-- What is read from a text is read with another line behind it as well, except that the
end of the input has moved. -/
theorem next_followedBy_line {scanner after : Scanner} {token : Token} (more : List Char)
    (read : scanner.next = .done token after) :
    (scanner.followedBy ('\n' :: more)).next =
      if token.kind = .endOfInput then (after.followedBy ('\n' :: more)).next
      else .done token (after.followedBy ('\n' :: more)) := by
  cases unread : scanner.rest with
  | nil =>
      rw [next_of_nil unread] at read
      cases read
      exact (if_pos rfl).symm
  | cons c rest =>
      cases blank : Text.isBlank c with
      | true =>
          have within : 1 ≤ scanner.rest.length := by
            rw [unread, List.length_cons]
            omega
          have shorter : (scanner.skip 1).rest.length < scanner.rest.length := by
            rw [skip, List.length_drop]
            omega
          have unreadLine : (scanner.followedBy ('\n' :: more)).rest =
              c :: (rest ++ '\n' :: more) := by
            rw [followedBy, unread]
            rfl
          rw [next_of_blank unreadLine blank, skip_followedBy within]
          rw [next_of_blank unread blank] at read
          exact next_followedBy_line more read
      | false =>
          rcases first?_of_done read (by rw [unread]; exact List.cons_ne_nil _ _) with
            ⟨lexeme, found⟩
          have other : lexeme ≠ .blanks := by
            rintro rfl
            have positive := Lexeme.width_pos_of_first? found
            rw [unread, Lexeme.blanks_pos_iff, blank] at positive
            cases positive
          rcases Lexeme.first?_line more found other with ⟨foundLine, within⟩
          have shorter := skip_shortens found
          rw [next_followedBy foundLine within]
          rw [next_of_first? found] at read
          cases isToken : scanner.token? lexeme (lexeme.width scanner.rest) with
          | some first =>
              rw [isToken] at read
              cases read
              rw [if_neg (written_of_token? found isToken).2.2]
          | none =>
              rw [isToken] at read
              exact next_followedBy_line more read
termination_by scanner.rest.length

theorem Scans.followedBy_line {first last : Scanner} {tokens : List Token} (more : List Char)
    (scans : Scans first tokens last) :
    Scans (first.followedBy ('\n' :: more)) tokens (last.followedBy ('\n' :: more)) := by
  induction scans with
  | stay scanner => exact .stay _
  | onward read goesOn _ inductionHypothesis =>
      have readLine := next_followedBy_line more read
      rw [if_neg goesOn] at readLine
      exact .onward readLine goesOn inductionHypothesis

end Scanner

/-! ## Other text in front -/

/-- The same token farther back in its source. -/
def Token.moved (distance : Nat) (token : Token) : Token where
  kind := token.kind
  value := token.value
  span :=
    { start := token.span.start + UInt32.ofNat distance
      stop := token.span.stop + UInt32.ofNat distance }

/-- The same fault farther back in its source. -/
def Fault.moved (distance : Nat) (fault : Fault) : Fault where
  cause := fault.cause
  position :=
    { offset := fault.position.offset + UInt32.ofNat distance
      file := fault.position.file }

namespace Scanner

/-- The same scanner with its text farther back. -/
def moved (distance : Nat) (scanner : Scanner) : Scanner where
  file := scanner.file
  offset := scanner.offset + distance
  rest := scanner.rest

theorem skip_moved (scanner : Scanner) (distance count : Nat) :
    (scanner.moved distance).skip count = (scanner.skip count).moved distance := by
  simp only [skip, moved, Nat.add_right_comm]

theorem span_moved (offset bytes distance : Nat) :
    Span.ofOffset (offset + distance) bytes =
      { start := (Span.ofOffset offset bytes).start + UInt32.ofNat distance
        stop := (Span.ofOffset offset bytes).stop + UInt32.ofNat distance } := by
  simp only [Span.ofOffset, UInt32.ofNat_add, Nat.add_right_comm]

theorem token?_moved (scanner : Scanner) (distance count : Nat) (lexeme : Lexeme) :
    (scanner.moved distance).token? lexeme count =
      (scanner.token? lexeme count).map (Token.moved distance) := by
  simp only [token?, moved, span_moved, Option.map_map]
  rfl

/-- What a scanner answers when its text is farther back. -/
def movedReply (distance : Nat) : Reply Scanner Token -> Reply Scanner Token
  | .done token after => .done (token.moved distance) (after.moved distance)
  | .failed fault after => .failed (fault.moved distance) (after.moved distance)

/-- A text reads the same farther back in the source. -/
theorem next_moved_eq (scanner : Scanner) (distance : Nat) :
    (scanner.moved distance).next = movedReply distance scanner.next := by
  fun_induction next scanner with
  | case1 scanner unread =>
      have unreadMoved : (scanner.moved distance).rest = [] := unread
      rw [next_of_nil unreadMoved, Token.endOfInput, moved, span_moved]
      rfl
  | case2 scanner c rest unread absent =>
      have unreadMoved : (scanner.moved distance).rest = c :: rest := unread
      rw [next_of_none unreadMoved absent, faultAt, position, moved, UInt32.ofNat_add]
      rfl
  | case3 scanner c rest unread lexeme found count token isToken =>
      have foundMoved : Lexeme.first? (scanner.moved distance).rest = some lexeme := found
      have isMoved : (scanner.moved distance).token? lexeme count =
          some (token.moved distance) := by
        rw [token?_moved, isToken]
        rfl
      rw [next_of_token foundMoved isMoved]
      exact congrArg _ (skip_moved scanner distance count)
  | case4 scanner c rest unread lexeme found count silent inductionHypothesis =>
      have foundMoved : Lexeme.first? (scanner.moved distance).rest = some lexeme := found
      have silentMoved : (scanner.moved distance).token? lexeme count = none := by
        rw [token?_moved, silent]
        rfl
      rw [next_of_silent foundMoved silentMoved]
      exact (congrArg next (skip_moved scanner distance count)).trans inductionHypothesis

theorem next_moved {scanner after : Scanner} {token : Token} (distance : Nat)
    (read : scanner.next = .done token after) :
    (scanner.moved distance).next = .done (token.moved distance) (after.moved distance) := by
  rw [next_moved_eq, read]
  rfl

theorem Scans.moved {first last : Scanner} {tokens : List Token} (distance : Nat)
    (scans : Scans first tokens last) :
    Scans (first.moved distance) (tokens.map (Token.moved distance)) (last.moved distance) := by
  induction scans with
  | stay scanner => exact .stay _
  | onward read goesOn _ inductionHypothesis =>
      exact .onward (next_moved distance read) goesOn inductionHypothesis

end Scanner
end SignalScript
