import SignalScript.Proofs.Account
import SignalScript.Proofs.Soundness
import SignalScript.Proofs.Tiling

namespace SignalScript

/-!
Pulling tokens on demand agrees with reading all of them first.

The account of any number of operations is compared with the token list of the source.
If there is such a list, the account runs along it, and at its end the parser gets the
end of the input again and again.  The scanner never refuses, so no fault is its own.

If there is no such list, reading it fails at some place.  Whatever the parser holds on
its way stands in front of that place, and once the scanner refuses it goes on refusing.
A parse then fails there or earlier.
-/

/-- A cause that only the scanner raises. -/
def Cause.isScanned : Cause -> Bool
  | .unrecognised _ | .unterminatedText => true
  | _ => false

theorem Cause.Alike.isScanned_eq {tokens : Token -> Token -> Prop} {token other : Token}
    {cause otherCause : Cause} (alike : cause.Alike tokens token other otherCause) :
    cause.isScanned = false := by
  cases alike <;> rfl

/-- Tokens taken in turn, and the one held behind them, are those of a list in order.  The
last one of the list comes again and again. -/
structure Draws (tokens taken : List Token) (held : Token) : Prop where
  drawn : forall index token, taken[index]? = some token ->
    tokens[min index (tokens.length - 1)]? = some token
  held : tokens[min taken.length (tokens.length - 1)]? = some held

namespace Parser

/-! ## Sources with a token list -/

/-- Once the end of the input is held, it is read again and again. -/
def Settled (parser : Parser) : Prop :=
  parser.ahead.kind = .endOfInput -> parser.scanner.next = .done parser.ahead parser.scanner

theorem settled_of_ofSource {file source : String} {parser : Parser}
    (opened : ofSource file source = .ok parser) : parser.Settled :=
  Scanner.next_of_endOfInput (ofSource_eq_ok_iff.mp opened).2

theorem settled_of_advance {parser next : Parser} {token : Token}
    (step : parser.advance = .done token next) : next.Settled :=
  Scanner.next_of_endOfInput (advance_eq_done_iff.mp step).2.2

theorem Trail.settled {first last : Parser} {tokens : List Token}
    (trail : Trail first tokens last) (settled : first.Settled) : last.Settled := by
  induction trail with
  | stay => exact settled
  | onward _ step _ inductionHypothesis => exact inductionHypothesis (settled_of_advance step)

/-- These tokens are still to come, the held one first. -/
def Awaits (parser : Parser) (tokens : List Token) : Prop :=
  exists front last, Trail parser front last ∧ last.ahead.kind = .endOfInput ∧ last.Settled ∧
    tokens = front ++ [last.ahead]

theorem awaits_of_tokenize {file source : String} {tokens : List Token}
    (listed : tokenize file source = .ok tokens) :
    exists first, ofSource file source = .ok first ∧ first.Awaits tokens := by
  rcases exists_trail_of_tokenize listed with ⟨first, front, last, opened, trail, atEnd, same⟩
  have settled := trail.settled (settled_of_ofSource opened)
  exact ⟨first, opened, front, last, trail, atEnd, settled, same⟩

namespace Awaits

variable {parser first last : Parser} {tokens taken : List Token}

theorem held (awaits : parser.Awaits tokens) : tokens[0]? = some parser.ahead := by
  rcases awaits with ⟨front, last, trail, _, _, rfl⟩
  cases trail with
  | stay => rfl
  | onward => rfl

theorem atDepth (awaits : parser.Awaits tokens) (depth : Nat) :
    (parser.atDepth depth).Awaits tokens := by
  rcases awaits with ⟨front, last, trail, atEnd, settled, rfl⟩
  exact ⟨front, last.atDepth depth, trail.atDepth depth, atEnd, settled, rfl⟩

/-- A token can always be taken, and it leaves the others to come.  The last one stays. -/
theorem advance (awaits : parser.Awaits tokens) :
    exists next, parser.advance = .done parser.ahead next ∧
      next.Awaits (tokens.drop (min 1 (tokens.length - 1))) := by
  rcases awaits with ⟨front, last, trail, atEnd, settled, rfl⟩
  cases front with
  | nil =>
      cases trail.eq_of_nil
      refine ⟨parser, advance_eq_done_iff.mpr ⟨rfl, rfl, settled atEnd⟩, ?_⟩
      exact ⟨[], parser, .stay parser, atEnd, settled, rfl⟩
  | cons token front =>
      rcases trail.uncons with ⟨rfl, _, next, step, rest⟩
      refine ⟨next, step, front, last, rest, atEnd, settled, ?_⟩
      rw [List.cons_append, List.length_cons, Nat.add_sub_cancel, List.length_append,
        List.length_singleton, Nat.min_eq_left (Nat.le_add_left _ _), List.drop_one, List.tail_cons]

/-- What is still to come after some tokens have been taken. -/
theorem pulled (awaits : first.Awaits tokens) (pulled : Pulled first taken last) :
    last.Awaits (tokens.drop (min taken.length (tokens.length - 1))) := by
  induction pulled generalizing tokens with
  | stay =>
      rw [List.length_nil, Nat.zero_min, List.drop_zero]
      exact awaits
  | @taken parser next last token taken step _ inductionHypothesis =>
      rcases awaits.advance with ⟨other, sameStep, onward⟩
      cases step.symm.trans sameStep
      have later := inductionHypothesis onward
      rw [List.drop_drop, List.length_drop] at later
      have together : min 1 (tokens.length - 1) +
          min taken.length (tokens.length - min 1 (tokens.length - 1) - 1) =
          min (taken.length + 1) (tokens.length - 1) := by
        omega
      rw [together] at later
      exact later
  | refused step =>
      rcases awaits.advance with ⟨other, sameStep, _⟩
      cases step.symm.trans sameStep
  | moved depth _ inductionHypothesis => exact inductionHypothesis (awaits.atDepth depth)

/-- The tokens taken are those of the list. -/
theorem taken_eq (awaits : first.Awaits tokens) (pulled : Pulled first taken last) {index : Nat}
    {token : Token} (isTaken : taken[index]? = some token) :
    tokens[min index (tokens.length - 1)]? = some token := by
  induction pulled generalizing tokens index with
  | stay => cases isTaken
  | @taken parser next last other taken step _ inductionHypothesis =>
      rcases awaits.advance with ⟨_, sameStep, onward⟩
      cases step.symm.trans sameStep
      cases index with
      | zero =>
          cases isTaken
          rw [Nat.zero_min]
          exact awaits.held
      | succ index =>
          have later := inductionHypothesis onward isTaken
          rw [List.getElem?_drop, List.length_drop] at later
          have together : min 1 (tokens.length - 1) +
              min index (tokens.length - min 1 (tokens.length - 1) - 1) =
              min (index + 1) (tokens.length - 1) := by
            omega
          rw [together] at later
          exact later
  | refused step =>
      rcases awaits.advance with ⟨_, sameStep, _⟩
      cases step.symm.trans sameStep
  | moved depth _ inductionHypothesis => exact inductionHypothesis (awaits.atDepth depth) isTaken

theorem draws (awaits : first.Awaits tokens) (pulled : Pulled first taken last) :
    Draws tokens taken last.ahead where
  drawn := fun _ _ isTaken => awaits.taken_eq pulled isTaken
  held := by
    have next := (awaits.pulled pulled).held
    rw [List.getElem?_drop, Nat.add_zero] at next
    exact next

/-- With a token list ahead, no fault comes from the scanner. -/
theorem isScanned_eq {fault : Fault} (awaits : first.Awaits tokens)
    (explained : first.Explains fault) : fault.cause.isScanned = false := by
  rcases explained with ⟨last, left, ⟨taken, pulled⟩, refused⟩ | ⟨token, _, _, alike⟩
  · rcases (awaits.pulled pulled).advance with ⟨next, step, _⟩
    cases refused.symm.trans step
  · exact alike.isScanned_eq

end Awaits
end Parser

/-! ## Sources without one -/

namespace Scanner

/-- The number of bytes up to the end of the source. -/
def total (scanner : Scanner) : Nat :=
  scanner.offset + Text.size scanner.rest

theorem Passes.total_eq {first last : Scanner} {text : List Char}
    (passed : Passes first text last) : last.total = first.total := by
  rw [total, total, passed.offset, passed.rest, Text.size_append, Nat.add_assoc]

theorem Passes.offset_le {first last : Scanner} {text : List Char}
    (passed : Passes first text last) : first.offset ≤ last.offset := by
  rw [passed.offset]
  exact Nat.le_add_right _ _

theorem offset_le_total (scanner : Scanner) : scanner.offset ≤ scanner.total :=
  Nat.le_add_right _ _

/-- A token starts in front of the place where the scanner stands behind it. -/
theorem Yields.start_lt {scanner after : Scanner} {token : Token}
    (yielded : Yields scanner token after) (more : token.kind ≠ .endOfInput)
    (short : after.total < 2 ^ 32) : token.span.start.toNat < after.offset := by
  rcases yielded.passed with ⟨middle, _, passed, span⟩
  have positive := Text.size_pos fun nothing => more (yielded.ended.mpr nothing)
  have offset := passed.offset
  have bounded := after.offset_le_total
  rw [span, Span.ofOffset, UInt32.toNat_ofNat_of_lt' (Nat.lt_of_le_of_lt (by omega) short)]
  omega

/-- A source that cannot be read fails at or behind the place of the scanner. -/
theorem offset_le_of_tokensAfter {scanner : Scanner} {taken : List Token} {fault : Fault}
    (broken : scanner.tokensAfter taken = .error fault) (short : scanner.total < 2 ^ 32) :
    scanner.offset ≤ fault.position.offset.toNat := by
  fun_induction tokensAfter taken scanner with
  | case1 taken scanner refusal after read =>
      cases broken
      rcases clears_of_failed read with ⟨cleared, c, rest, _, _, rfl⟩
      rcases cleared.passes with ⟨text, passed⟩
      have bounded := after.offset_le_total
      rw [passed.total_eq] at bounded
      have exact : (after.faultAt c).position.offset.toNat = after.offset :=
        UInt32.toNat_ofNat_of_lt' (Nat.lt_of_le_of_lt bounded short)
      rw [exact]
      exact passed.offset_le
  | case2 => cases broken
  | case3 taken scanner token after read _ inductionHypothesis =>
      rcases (yields_of_next read).passes with ⟨text, passed⟩
      rw [← passed.total_eq] at short
      exact Nat.le_trans passed.offset_le (inductionHypothesis broken short)

end Scanner

namespace Parser

/-- Reading on fails with this fault, and the held token stands in front of it. -/
structure Breaks (fault : Fault) (parser : Parser) : Prop where
  broken : exists taken, parser.scanner.tokensAfter taken = .error fault
  short : parser.scanner.total < 2 ^ 32
  before : parser.ahead.span.start < fault.position.offset

/-- A token that is read before the break stands in front of it. -/
theorem breaks_of_next {scanner : Scanner} {parser : Parser} {taken : List Token} {fault : Fault}
    (read : scanner.next = .done parser.ahead parser.scanner)
    (broken : scanner.tokensAfter taken = .error fault) (short : scanner.total < 2 ^ 32) :
    parser.Breaks fault := by
  have yielded := Scanner.yields_of_next read
  rcases yielded.passes with ⟨_, passed⟩
  rw [← passed.total_eq] at short
  rw [tokensAfter_of_done taken parser.depth read] at broken
  by_cases atEnd : parser.ahead.kind = .endOfInput
  · rw [tokensFrom, if_pos atEnd] at broken
    cases broken
  · rw [tokensFrom, if_neg atEnd] at broken
    have starts := yielded.start_lt atEnd short
    have fails := Scanner.offset_le_of_tokensAfter broken short
    exact ⟨⟨_, broken⟩, short, UInt32.lt_iff_toNat_lt.mpr (Nat.lt_of_lt_of_le starts fails)⟩

theorem breaks_of_ofSource {file source : String} {parser : Parser} {fault : Fault}
    (opened : ofSource file source = .ok parser) (broken : tokenize file source = .error fault)
    (short : source.utf8ByteSize < 2 ^ 32) : parser.Breaks fault := by
  refine breaks_of_next (ofSource_eq_ok_iff.mp opened).2 broken ?_
  rw [Scanner.total, Scanner.ofSource, Text.size_toList, Nat.zero_add]
  exact short

namespace Breaks

variable {parser next first last : Parser} {fault refusal : Fault} {token : Token}

theorem taken (breaks : parser.Breaks fault) (step : parser.advance = .done token next) :
    next.Breaks fault := by
  rcases breaks.broken with ⟨taken, broken⟩
  exact breaks_of_next (advance_eq_done_iff.mp step).2.2 broken breaks.short

/-- A refusal is the break itself. -/
theorem refusal_eq (breaks : parser.Breaks fault)
    (step : parser.advance = .failed refusal next) : refusal = fault := by
  rcases breaks.broken with ⟨taken, broken⟩
  rw [tokensAfter_of_failed taken (advance_eq_failed_iff.mp step).2.2] at broken
  cases broken
  rfl

/-- The scanner goes on refusing. -/
theorem refused (breaks : parser.Breaks fault)
    (step : parser.advance = .failed refusal next) : next.Breaks fault := by
  rcases advance_eq_failed_iff.mp step with ⟨held, _, read⟩
  rcases (Scanner.clears_of_failed read).1.passes with ⟨_, passed⟩
  refine ⟨⟨[], ?_⟩, ?_, ?_⟩
  · rw [tokensAfter_of_failed [] (Scanner.next_of_failed read), breaks.refusal_eq step]
  · rw [passed.total_eq]
    exact breaks.short
  · rw [held]
    exact breaks.before

theorem reached (breaks : first.Breaks fault) (reaches : Reaches first last) :
    last.Breaks fault := by
  rcases reaches with ⟨tokens, pulled⟩
  induction pulled with
  | stay => exact breaks
  | taken step _ inductionHypothesis => exact inductionHypothesis (breaks.taken step)
  | refused step _ inductionHypothesis => exact inductionHypothesis (breaks.refused step)
  | moved _ _ inductionHypothesis =>
      exact inductionHypothesis ⟨breaks.broken, breaks.short, breaks.before⟩

/-- A fault met on the way is the break or stands in front of it. -/
theorem explained {other : Fault} (breaks : first.Breaks fault) (explains : first.Explains other) :
    other = fault ∨ other.position.offset < fault.position.offset := by
  rcases explains with ⟨last, left, reaches, refused⟩ | ⟨token, ⟨last, reaches, rfl⟩, position, _⟩
  · exact Or.inl ((breaks.reached reaches).refusal_eq refused)
  · rw [position]
    exact Or.inr (breaks.reached reaches).before

end Breaks
end Parser

/-! ## Programs -/

/-- A source that cannot be read is rejected, at the place where the reading fails or
earlier. -/
theorem parseWithin_of_broken {limit : Option Nat} {file source : String} {fault : Fault}
    (broken : tokenize file source = .error fault) (short : source.utf8ByteSize < 2 ^ 32) :
    exists other, parseWithin limit file source = .error other ∧
      (other = fault ∨ other.position.offset < fault.position.offset) := by
  cases opened : Parser.ofSource file source with
  | error refusal =>
      cases broken.symm.trans (tokenize_of_ofSource_error opened)
      exact ⟨fault, parseWithin_of_error opened, Or.inl rfl⟩
  | ok first =>
      cases parsed : parseWithin limit file source with
      | ok tree =>
          rcases spelled_of_parseWithin parsed with ⟨_, _, tokens, last, listed, _⟩
          cases broken.symm.trans listed
      | error other =>
          have breaks := Parser.breaks_of_ofSource opened broken short
          exact ⟨other, rfl, breaks.explained (explained_of_parseWithin opened parsed)⟩

end SignalScript
