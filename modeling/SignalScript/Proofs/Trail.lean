import SignalScript.Parser.Step

namespace SignalScript

/-!
Trails: the tokens taken between two states of a parser.

A parser reads tokens on demand, while `tokenize` reads all of them at once.  A
trail lists the tokens that are taken on the way from one state to another, and
it never passes the end of the input.  The two ways of reading meet in the last
section: a source has a token list exactly when a trail leads from its first
state to a state that holds the end of the input.
-/

namespace Parser

/-- The same state at another depth of nesting. -/
def atDepth (parser : Parser) (depth : Nat) : Parser where
  scanner := parser.scanner
  ahead := parser.ahead
  depth := depth

theorem deeper_eq_atDepth (parser : Parser) :
    parser.deeper = parser.atDepth (parser.depth + 1) := rfl

theorem leave_eq_atDepth (parser : Parser) (levels : Nat) :
    parser.leave levels = parser.atDepth (parser.depth - levels) := rfl

/-- Taking a token hands out the held one, holds the next one that the scanner
reads, and has nothing to do with the depth. -/
theorem advance_eq_done_iff {parser next : Parser} {token : Token} :
    parser.advance = .done token next <->
      token = parser.ahead ∧ next.depth = parser.depth ∧
        parser.scanner.next = .done next.ahead next.scanner := by
  unfold advance
  cases parser.scanner.next with
  | failed fault after => simp
  | done read after =>
      constructor
      · intro taken
        cases taken
        exact ⟨rfl, rfl, rfl⟩
      · rintro ⟨rfl, depth, same⟩
        cases next
        cases same
        cases depth
        rfl

/-- A parser starts at no depth, with the first token that the scanner reads. -/
theorem ofSource_eq_ok_iff {file source : String} {parser : Parser} :
    ofSource file source = .ok parser <->
      parser.depth = 0 ∧
        (Scanner.ofSource file source).next = .done parser.ahead parser.scanner := by
  unfold ofSource
  cases (Scanner.ofSource file source).next with
  | failed fault after => simp
  | done read after =>
      constructor
      · intro opened
        cases opened
        exact ⟨rfl, rfl⟩
      · rintro ⟨depth, same⟩
        cases parser
        cases same
        cases depth
        rfl

/-- A parser that cannot start has the fault of the scanner. -/
theorem ofSource_eq_error_iff {file source : String} {fault : Fault} :
    ofSource file source = .error fault <->
      exists left, (Scanner.ofSource file source).next = .failed fault left := by
  unfold ofSource
  cases (Scanner.ofSource file source).next with
  | failed refusal left => simp
  | done read after => simp

theorem token_of_advance {parser next : Parser} {token : Token}
    (taken : parser.advance = .done token next) : token = parser.ahead :=
  (advance_eq_done_iff.mp taken).1

theorem depth_of_advance {parser next : Parser} {token : Token}
    (taken : parser.advance = .done token next) : next.depth = parser.depth :=
  (advance_eq_done_iff.mp taken).2.1

theorem advance_atDepth {parser next : Parser} {token : Token} (depth : Nat)
    (taken : parser.advance = .done token next) :
    (parser.atDepth depth).advance = .done token (next.atDepth depth) := by
  rcases advance_eq_done_iff.mp taken with ⟨held, _, read⟩
  exact advance_eq_done_iff.mpr ⟨held, rfl, read⟩

/-- Taking the listed tokens one after another leads from the first state to the
second.  None of them is the end of the input. -/
inductive Trail : Parser -> List Token -> Parser -> Prop
  | stay (parser : Parser) : Trail parser [] parser
  | onward {parser next last : Parser} {tokens : List Token} :
      parser.ahead.kind ≠ .endOfInput ->
      parser.advance = .done parser.ahead next ->
      Trail next tokens last ->
      Trail parser (parser.ahead :: tokens) last

namespace Trail

theorem single {parser next : Parser} {token : Token}
    (more : parser.ahead.kind ≠ .endOfInput) (taken : parser.advance = .done token next) :
    Trail parser [token] next := by
  cases token_of_advance taken
  exact .onward more taken (.stay next)

theorem append {first middle last : Parser} {earlier later : List Token}
    (front : Trail first earlier middle) (back : Trail middle later last) :
    Trail first (earlier ++ later) last := by
  induction front with
  | stay => exact back
  | onward more taken _ inductionHypothesis =>
      exact .onward more taken (inductionHypothesis back)

theorem eq_of_nil {parser last : Parser} (trail : Trail parser [] last) : last = parser := by
  cases trail
  rfl

/-- The first step of a trail takes the held token. -/
theorem uncons {parser last : Parser} {token : Token} {tokens : List Token}
    (trail : Trail parser (token :: tokens) last) :
    token = parser.ahead ∧ parser.ahead.kind ≠ .endOfInput ∧
      exists next, parser.advance = .done token next ∧ Trail next tokens last := by
  cases trail with
  | onward more taken rest => exact ⟨rfl, more, _, taken, rest⟩

theorem advance_of_single {parser last : Parser} {token : Token}
    (trail : Trail parser [token] last) :
    token = parser.ahead ∧ parser.advance = .done token last := by
  rcases trail.uncons with ⟨held, _, next, taken, rest⟩
  rw [rest.eq_of_nil]
  exact ⟨held, taken⟩

theorem split {parser last : Parser} {earlier later : List Token}
    (trail : Trail parser (earlier ++ later) last) :
    exists middle, Trail parser earlier middle ∧ Trail middle later last := by
  induction earlier generalizing parser with
  | nil => exact ⟨parser, .stay parser, trail⟩
  | cons token earlier inductionHypothesis =>
      rcases trail.uncons with ⟨rfl, more, next, taken, rest⟩
      rcases inductionHypothesis rest with ⟨middle, front, back⟩
      exact ⟨middle, .onward more taken front, back⟩

theorem depth_eq {parser last : Parser} {tokens : List Token}
    (trail : Trail parser tokens last) : last.depth = parser.depth := by
  induction trail with
  | stay => rfl
  | onward _ taken _ inductionHypothesis =>
      exact inductionHypothesis.trans (depth_of_advance taken)

theorem atDepth {parser last : Parser} {tokens : List Token}
    (trail : Trail parser tokens last) (depth : Nat) :
    Trail (parser.atDepth depth) tokens (last.atDepth depth) := by
  induction trail with
  | stay parser => exact .stay _
  | onward more taken _ inductionHypothesis =>
      have same := advance_atDepth depth taken
      exact .onward more same inductionHypothesis

/-- A trail never leads to more work. -/
theorem weight_le {parser last : Parser} {tokens : List Token}
    (trail : Trail parser tokens last) :
    last.weight ≤ parser.weight := by
  induction trail with
  | stay => exact Nat.le_refl _
  | @onward parser next last tokens _ taken _ inductionHypothesis =>
      have lighter := weight_of_advance taken
      have less := parser.unread_le_weight
      omega

theorem unread_le {parser last : Parser} {tokens : List Token}
    (trail : Trail parser tokens last) :
    last.unread ≤ parser.unread := by
  induction trail with
  | stay => exact Nat.le_refl _
  | @onward parser next last tokens _ taken _ inductionHypothesis =>
      have lighter := weight_of_advance taken
      have less := next.unread_le_weight
      omega

end Trail

/-! ## The token list of a source -/

/-- Read on from a state to the end of the input, in front of which stand the
tokens already taken in reverse. -/
def tokensFrom (taken : List Token) (parser : Parser) : Except Fault (List Token) :=
  if parser.ahead.kind = .endOfInput then
    .ok (parser.ahead :: taken).reverse
  else
    parser.scanner.tokensAfter (parser.ahead :: taken)

theorem tokensAfter_of_done {scanner after : Scanner} {token : Token} (taken : List Token)
    (depth : Nat) (read : scanner.next = .done token after) :
    scanner.tokensAfter taken = tokensFrom taken ⟨after, token, depth⟩ := by
  rw [Scanner.tokensAfter]
  split
  next failed => cases read.symm.trans failed
  next token' after' read' =>
    cases read.symm.trans read'
    rw [tokensFrom]
    split <;> rfl

theorem tokensAfter_of_failed {scanner after : Scanner} {fault : Fault} (taken : List Token)
    (read : scanner.next = .failed fault after) :
    scanner.tokensAfter taken = .error fault := by
  rw [Scanner.tokensAfter]
  split
  next read' => cases read.symm.trans read'; rfl
  next read' => cases read.symm.trans read'

/-- One step of a trail moves one token over to those already taken. -/
theorem tokensFrom_of_advance {parser next : Parser} {token : Token} (taken : List Token)
    (more : parser.ahead.kind ≠ .endOfInput) (step : parser.advance = .done token next) :
    tokensFrom taken parser = tokensFrom (token :: taken) next := by
  rcases advance_eq_done_iff.mp step with ⟨rfl, _, read⟩
  rw [tokensFrom, if_neg more]
  exact tokensAfter_of_done _ next.depth read

theorem Trail.tokensFrom_eq {parser last : Parser} {tokens : List Token}
    (trail : Trail parser tokens last) (taken : List Token) :
    tokensFrom taken parser = tokensFrom (tokens.reverse ++ taken) last := by
  induction trail generalizing taken with
  | stay => rfl
  | onward more step _ inductionHypothesis =>
      rw [tokensFrom_of_advance taken more step, inductionHypothesis]
      simp

/-- Where the rest of the source has a token list, a trail runs through it. -/
theorem exists_trail_of_tokensFrom {taken all : List Token} {parser : Parser}
    (read : tokensFrom taken parser = .ok all) :
    exists tokens last, Trail parser tokens last ∧ last.ahead.kind = .endOfInput ∧
      all = taken.reverse ++ tokens ++ [last.ahead] := by
  by_cases ended : parser.ahead.kind = .endOfInput
  · rw [tokensFrom, if_pos ended] at read
    cases read
    exact ⟨[], parser, .stay parser, ended, by simp⟩
  · rw [tokensFrom, if_neg ended] at read
    cases next : parser.scanner.next with
    | failed fault after =>
        rw [tokensAfter_of_failed _ next] at read
        cases read
    | done token after =>
        rw [tokensAfter_of_done _ parser.depth next] at read
        have step : parser.advance = .done parser.ahead ⟨after, token, parser.depth⟩ :=
          advance_eq_done_iff.mpr ⟨rfl, rfl, next⟩
        have lighter : (Parser.mk after token parser.depth).weight < parser.weight :=
          Nat.lt_of_le_of_lt (weight_of_advance step) (unread_lt_weight ended)
        rcases exists_trail_of_tokensFrom read with ⟨tokens, last, trail, atEnd, same⟩
        refine ⟨parser.ahead :: tokens, last, .onward ended step trail, atEnd, ?_⟩
        rw [same]
        simp
termination_by parser.weight

end Parser

theorem tokenize_of_ofSource {file source : String} {parser : Parser}
    (opened : Parser.ofSource file source = .ok parser) :
    tokenize file source = Parser.tokensFrom [] parser := by
  rcases Parser.ofSource_eq_ok_iff.mp opened with ⟨_, read⟩
  exact Parser.tokensAfter_of_done [] parser.depth read

theorem tokenize_of_ofSource_error {file source : String} {fault : Fault}
    (opened : Parser.ofSource file source = .error fault) :
    tokenize file source = .error fault := by
  rcases Parser.ofSource_eq_error_iff.mp opened with ⟨left, read⟩
  exact Parser.tokensAfter_of_failed [] read

/-- Where a source has a token list, a trail runs through it from the first state. -/
theorem exists_trail_of_tokenize {file source : String} {tokens : List Token}
    (listed : tokenize file source = .ok tokens) :
    exists first front last, Parser.ofSource file source = .ok first ∧
      Parser.Trail first front last ∧ last.ahead.kind = .endOfInput ∧
      tokens = front ++ [last.ahead] := by
  cases opened : Parser.ofSource file source with
  | error fault =>
      rw [tokenize_of_ofSource_error opened] at listed
      cases listed
  | ok first =>
      rw [tokenize_of_ofSource opened] at listed
      rcases Parser.exists_trail_of_tokensFrom listed with ⟨front, last, trail, atEnd, same⟩
      exact ⟨first, front, last, rfl, trail, atEnd, same⟩

/-- The token list of a source is the trail from its first state to the end of
the input. -/
theorem tokenize_eq_ok_iff {file source : String} {tokens : List Token} {last : Token} :
    tokenize file source = .ok (tokens ++ [last]) <->
      exists parser final, Parser.ofSource file source = .ok parser ∧
        Parser.Trail parser tokens final ∧ final.ahead = last ∧ last.kind = .endOfInput := by
  constructor
  · intro read
    rcases exists_trail_of_tokenize read with ⟨parser, listed, final, opened, trail, atEnd, same⟩
    have parts := List.append_inj' same rfl
    simp only [List.cons.injEq, and_true] at parts
    rcases parts with ⟨rfl, rfl⟩
    exact ⟨parser, final, opened, trail, rfl, atEnd⟩
  · rintro ⟨parser, final, opened, trail, rfl, atEnd⟩
    rw [tokenize_of_ofSource opened, trail.tokensFrom_eq [], Parser.tokensFrom, if_pos atEnd]
    simp

end SignalScript
