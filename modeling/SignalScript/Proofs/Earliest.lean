import SignalScript.Proofs.Law
import SignalScript.Proofs.Missing

namespace SignalScript

/-!
Which of two lexical faults is reported.

A character that starts no lexeme is noticed by the scanner, when the token in front of it is
taken.  A number that is out of range is noticed by the parser, and only after its token has
been taken.  A parse therefore reports the first lexical fault of the source with one exception:
a number out of range that stands last in front of a place where the reading fails.  The
attempt to take that number fails before its value is looked at.

What carries the argument is a law of readings: every number that has been taken was in range,
up to the state in which a lexical fault is noticed.
-/

/-- Every whole number among the tokens is in range. -/
def InRange (tokens : List Token) : Prop :=
  forall token, token ∈ tokens -> token.kind = .int ->
    Number.ofDigits token.value.toList ≤ Parser.greatestInt

theorem inRange_nil : InRange [] := by
  intro token member
  cases member

theorem InRange.append {front back : List Token} (first : InRange front)
    (second : InRange back) : InRange (front ++ back) := by
  intro token member
  rcases List.mem_append.mp member with earlier | later
  · exact first token earlier
  · exact second token later

theorem inRange_single {token : Token}
    (fits : token.kind = .int -> Number.ofDigits token.value.toList ≤ Parser.greatestInt) :
    InRange [token] := by
  intro other member
  rw [List.mem_singleton.mp member]
  exact fits

namespace Parser

/-- A lexical fault is noticed in this state.  The scanner refuses to go on, or it goes on and
the token that is given up turns out to be a number out of range. -/
inductive Notices (parser : Parser) : Fault -> Prop
  | refused {fault : Fault} {left : Parser} :
      parser.advance = .failed fault left -> Notices parser fault
  | outOfRange {next : Parser} :
      parser.ahead.kind = .int ->
      greatestInt < Number.ofDigits parser.ahead.value.toList ->
      parser.advance = .done parser.ahead next ->
      Notices parser (parser.faultAt parser.ahead (.numberOutOfRange parser.ahead.value))

/-- A success has taken numbers in range only.  So has a failure, up to the state in which it
notices a lexical fault. -/
def ranges : Law where
  kept first last := exists tokens, Arrives first tokens last ∧ InRange tokens
  lost first fault _ := fault.cause.stage = .lexical ->
    exists tokens parser, Arrives first tokens parser ∧ InRange tokens ∧ parser.Notices fault
  takes kind := kind ≠ .int ∧ kind ≠ .endOfInput

section
variable {parser next : Parser} {token : Token}

theorem lost_of_notices {fault : Fault} (left : Parser) (notices : parser.Notices fault) :
    ranges.lost parser fault left :=
  fun _ => ⟨[], parser, .start parser, inRange_nil, notices⟩

theorem kept_of_taken (more : parser.ahead.kind ≠ .endOfInput)
    (step : parser.advance = .done token next)
    (fits : token.kind = .int -> Number.ofDigits token.value.toList ≤ greatestInt) :
    ranges.kept parser next :=
  ⟨[token], (Arrives.start parser).taken more step, inRange_single fits⟩

/-- A literal is the only form that takes a number, and it looks at the value afterwards. -/
theorem literal_ranges (parser : Parser) : ranges.Obeyed parser parser.literal.reply := by
  rw [reply_literal]
  cases step : parser.advance with
  | failed fault left => exact lost_of_notices left (.refused step)
  | done token next =>
      cases token_of_advance step
      rw [Reply.done_andThen, atom]
      split
      next isInt =>
        have more : parser.ahead.kind ≠ .endOfInput := more_of_kind isInt (by decide)
        split
        next fits => exact kept_of_taken more step fun _ => fits
        next exceeds => exact lost_of_notices next (.outOfRange isInt (Nat.not_le.mp exceeds) step)
      next isFloat =>
        exact kept_of_taken (more_of_kind isFloat (by decide)) step
          fun isInt => absurd (isInt.symm.trans isFloat) (by decide)
      next isString =>
        exact kept_of_taken (more_of_kind isString (by decide)) step
          fun isInt => absurd (isInt.symm.trans isString) (by decide)
      next =>
        intro lexical
        cases lexical

theorem ranges_sound (limit : Option Nat) : ranges.Sound limit where
  refl parser := ⟨[], .start parser, inRange_nil⟩
  trans := by
    rintro first middle last ⟨earlier, front, fits⟩ ⟨later, back, fitsToo⟩
    exact ⟨earlier ++ later, front.trans back, fits.append fitsToo⟩
  after := by
    rintro first middle left fault ⟨earlier, front, fits⟩ back lexical
    rcases back lexical with ⟨later, parser, onward, fitsToo, notices⟩
    exact ⟨earlier ++ later, parser, front.trans onward, fits.append fitsToo, notices⟩
  plain _ other more := ⟨other, more⟩
  taken := by
    rintro parser next token ⟨other, more⟩ step
    refine kept_of_taken more step ?_
    rw [token_of_advance step]
    intro isInt
    exact absurd isInt other
  refused refused := lost_of_notices _ (.refused refused)
  literal := literal_ranges
  raised _ structural _ lexical := by
    cases lexical.symm.trans structural
  level := by
    rintro parser next _ ⟨tokens, arrives, fits⟩
    exact ⟨tokens, arrives.atDepth _, fits⟩
  below _ back := back

end

/-! ## Tokens around the place where a fault is noticed -/

section
variable {file source : String} {origin parser : Parser} {front : List Token}

theorem Arrives.reaches (arrives : Arrives origin front parser) : origin.Reaches parser :=
  ((Reaches.refl origin).atDepth parser.depth).trans (Trail.reaches arrives)

/-- All states on the way through a source have the same bytes behind and before them. -/
theorem Arrives.total_eq (arrives : Arrives origin front parser)
    (opened : ofSource file source = .ok origin) :
    parser.scanner.total = source.utf8ByteSize := by
  rcases arrives.scans opened with ⟨middle, scans, read⟩
  rcases scans.passes with ⟨_, reached⟩
  rcases (Scanner.yields_of_next read).passes with ⟨_, passed⟩
  rw [passed.total_eq, reached.total_eq, Scanner.total, Scanner.ofSource, Text.size_toList,
    Nat.zero_add]

/-- What is still to come starts behind the held token. -/
theorem Arrives.start_lt {token : Token} (arrives : Arrives origin front parser)
    (opened : ofSource file source = .ok origin) (short : source.utf8ByteSize < 2 ^ 32)
    (more : parser.ahead.kind ≠ .endOfInput) (member : token ∈ parser.scanner.stream) :
    parser.ahead.span.start < token.span.start := by
  have total := arrives.total_eq opened
  rcases arrives.scans opened with ⟨middle, _, read⟩
  rcases Scanner.passes_of_mem_stream member with ⟨_, later, passed, starts, _⟩
  have held := (Scanner.yields_of_next read).start_lt more (total ▸ short)
  have behind := passed.offset_le
  have bounded := later.offset_le_total
  rw [passed.total_eq, total] at bounded
  rw [UInt32.lt_iff_toNat_lt, starts,
    UInt32.toNat_ofNat_of_lt' (Nat.lt_of_le_of_lt bounded short)]
  omega

/-- The scanner never refuses to go on behind the end of the input. -/
theorem Arrives.more_of_refused {left : Parser} {fault : Fault}
    (arrives : Arrives origin front parser) (opened : ofSource file source = .ok origin)
    (refused : parser.advance = .failed fault left) : parser.ahead.kind ≠ .endOfInput := by
  intro atEnd
  have settled := (arrives.trail opened).settled (settled_of_ofSource opened) atEnd
  cases settled.symm.trans (advance_eq_failed_iff.mp refused).2.2

end
end Parser

/-! ## Programs -/

theorem stream_of_ofSource_error {file source : String} {fault : Fault}
    (opened : Parser.ofSource file source = .error fault) :
    (Scanner.ofSource file source).stream = [] := by
  rcases Parser.ofSource_eq_error_iff.mp opened with ⟨left, read⟩
  exact Scanner.stream_of_failed read

/-- A lexical fault of a source is noticed on the way through it, and all numbers that have been
taken by then are in range. -/
theorem notices_of_parseWithin {limit : Option Nat} {file source : String} {first : Parser}
    {fault : Fault} (opened : Parser.ofSource file source = .ok first)
    (refused : parseWithin limit file source = .error fault)
    (lexical : fault.cause.stage = .lexical) :
    exists tokens parser, Parser.Arrives first tokens parser ∧ InRange tokens ∧
      parser.Notices fault := by
  have obeyed := Parser.read_obeys (Parser.ranges_sound limit) .loosest first
  rw [parseWithin_eq opened] at refused
  cases reply : first.read limit .loosest with
  | failed other left =>
      rw [reply] at refused obeyed
      cases refused
      exact obeyed lexical
  | done tree last =>
      rw [reply] at refused
      rcases Parser.conclude_eq_error refused with ⟨_, rfl⟩
      simp only [Parser.faultAt] at lexical
      split at lexical <;> cases lexical

/-- A number in front of the place where a fault is noticed is in range, unless it is held there
and the scanner refuses to go on. -/
theorem inRange_or_last {file source : String} {first parser : Parser} {tokens : List Token}
    {fault : Fault} {token : Token} (short : source.utf8ByteSize < 2 ^ 32)
    (opened : Parser.ofSource file source = .ok first)
    (arrives : Parser.Arrives first tokens parser) (fits : InRange tokens)
    (notices : parser.Notices fault) (member : token ∈ (Scanner.ofSource file source).stream)
    (isInt : token.kind = .int) (before : token.span.start < fault.position.offset) :
    Number.ofDigits token.value.toList ≤ Parser.greatestInt ∨
      tokenize file source = .error fault ∧
        (Scanner.ofSource file source).stream.getLast? = some token := by
  cases notices with
  | refused refused =>
      have streamed := arrives.stream_eq opened (arrives.more_of_refused opened refused)
      rw [Scanner.stream_of_failed (Parser.advance_eq_failed_iff.mp refused).2.2] at streamed
      rw [streamed] at member ⊢
      rcases List.mem_append.mp member with earlier | held
      · exact Or.inl (fits token earlier isInt)
      · rw [List.mem_singleton.mp held]
        exact Or.inr ⟨tokenize_of_refusal short opened arrives.reaches refused,
          List.getLast?_concat⟩
  | outOfRange heldInt _ _ =>
      have more : parser.ahead.kind ≠ .endOfInput := Parser.more_of_kind heldInt (by decide)
      rw [arrives.stream_eq opened more] at member
      rcases List.mem_append.mp member with earlier | later
      · exact Or.inl (fits token earlier isInt)
      · -- The held token stands at the fault itself, and the others behind it.
        have behind : parser.ahead.span.start ≤ token.span.start := by
          rcases List.mem_cons.mp later with same | onward
          · rw [same]
            exact UInt32.le_refl _
          · exact UInt32.le_of_lt (arrives.start_lt opened short more onward)
        exact absurd before (UInt32.not_lt.mpr behind)

/-- A number that is reported has been taken, so a token could be read behind it. -/
theorem reported_of_notices {file source : String} {first parser : Parser} {tokens : List Token}
    {fault : Fault} (opened : Parser.ofSource file source = .ok first)
    (arrives : Parser.Arrives first tokens parser) (notices : parser.Notices fault)
    (unscanned : fault.cause.isScanned = false) :
    exists (token next : Token) (later : List Token),
      (Scanner.ofSource file source).stream = tokens ++ token :: next :: later ∧
      token.kind = .int ∧ Parser.greatestInt < Number.ofDigits token.value.toList ∧
      fault = ⟨.numberOutOfRange token.value, ⟨token.span.start, file⟩⟩ := by
  cases notices with
  | refused refused =>
      have scanned := Scanner.isScanned_of_next (Parser.advance_eq_failed_iff.mp refused).2.2
      cases scanned.symm.trans unscanned
  | outOfRange heldInt exceeds taken =>
      have streamed := arrives.stream_eq opened (Parser.more_of_kind heldInt (by decide))
      rcases List.head?_eq_some_iff.mp (Parser.head?_stream_of_advance taken) with ⟨later, behind⟩
      rw [behind] at streamed
      refine ⟨parser.ahead, _, later, streamed, heldInt, exceeds, ?_⟩
      rw [Parser.faultAt, Parser.positionOf, arrives.reaches.file_eq,
        Parser.file_of_ofSource opened]

/-- A parse that reports a lexical fault reports the first one of the source, except that it
passes over a number out of range that stands last in front of a place where the reading fails.
It reports a number only where a token could be read behind it. -/
theorem lexical_fault_earliest {file source : String} {fault : Fault}
    (short : source.utf8ByteSize < 2 ^ 32) (refused : parse file source = .error fault)
    (lexical : fault.cause.stage = .lexical) :
    (forall other, tokenize file source = .error other ->
      fault.position.offset ≤ other.position.offset) ∧
    (forall token, token ∈ (Scanner.ofSource file source).stream -> token.kind = .int ->
      token.span.start < fault.position.offset ->
      Number.ofDigits token.value.toList ≤ Parser.greatestInt ∨
        tokenize file source = .error fault ∧
          (Scanner.ofSource file source).stream.getLast? = some token) ∧
    (fault.cause.isScanned = false ->
      exists (front : List Token) (token next : Token) (later : List Token),
        (Scanner.ofSource file source).stream = front ++ token :: next :: later ∧
        token.kind = .int ∧ Parser.greatestInt < Number.ofDigits token.value.toList ∧
        fault = ⟨.numberOutOfRange token.value, ⟨token.span.start, file⟩⟩) := by
  have within : parseWithin (some Parser.nestingLimit) file source = .error fault := refused
  refine ⟨?_, ?_⟩
  · intro other broken
    rcases parseWithin_of_broken broken short with ⟨reported, failed, same | earlier⟩
    · cases within.symm.trans failed
      rw [same]
      exact UInt32.le_refl _
    · cases within.symm.trans failed
      exact UInt32.le_of_lt earlier
  cases opened : Parser.ofSource file source with
  | error refusal =>
      cases within.symm.trans (parseWithin_of_error opened)
      constructor
      · intro token member
        rw [stream_of_ofSource_error opened] at member
        cases member
      · intro unscanned
        cases unscanned.symm.trans (Parser.isScanned_of_ofSource opened)
  | ok first =>
      rcases notices_of_parseWithin opened within lexical with
        ⟨tokens, parser, arrives, fits, notices⟩
      constructor
      · intro token member isInt before
        exact inRange_or_last short opened arrives fits notices member isInt before
      · intro unscanned
        exact ⟨tokens, reported_of_notices opened arrives notices unscanned⟩

/-- Behind a number that is out of range stands a parenthesis, and so it is reported, although a
character that starts no lexeme follows. -/
theorem lexical_fault_earliest_sum :
    "7+9223372036854775808)§".utf8ByteSize < 2 ^ 32 ∧
    parse "shell" "7+9223372036854775808)§" =
      .error ⟨.numberOutOfRange "9223372036854775808", ⟨2, "shell"⟩⟩ ∧
    (Cause.numberOutOfRange "9223372036854775808").stage = .lexical ∧
    (forall token, token ∈ (Scanner.ofSource "shell" "7+9223372036854775808)§").stream ->
      token.kind = .int -> token.span.start < 2 ->
      Number.ofDigits token.value.toList ≤ Parser.greatestInt ∨
        tokenize "shell" "7+9223372036854775808)§" =
            .error ⟨.numberOutOfRange "9223372036854775808", ⟨2, "shell"⟩⟩ ∧
          (Scanner.ofSource "shell" "7+9223372036854775808)§").stream.getLast? = some token) ∧
    exists (front : List Token) (token next : Token) (later : List Token),
      (Scanner.ofSource "shell" "7+9223372036854775808)§").stream =
        front ++ token :: next :: later ∧
      token.kind = .int ∧ Parser.greatestInt < Number.ofDigits token.value.toList ∧
      (⟨.numberOutOfRange "9223372036854775808", ⟨2, "shell"⟩⟩ : Fault) =
        ⟨.numberOutOfRange token.value, ⟨token.span.start, "shell"⟩⟩ := by
  have short : "7+9223372036854775808)§".utf8ByteSize < 2 ^ 32 := by decide
  have refused : parse "shell" "7+9223372036854775808)§" =
      .error ⟨.numberOutOfRange "9223372036854775808", ⟨2, "shell"⟩⟩ := by
    cbv
  rcases lexical_fault_earliest short refused rfl with ⟨_, before, reported⟩
  exact ⟨short, refused, rfl, before, reported rfl⟩

/-- A number out of range is passed over when the character behind it starts no lexeme. -/
theorem number_hidden_by_character :
    "9223372036854775808 ~".utf8ByteSize < 2 ^ 32 ∧
    parse "shell" "9223372036854775808 ~" = .error ⟨.unrecognised "~", ⟨20, "shell"⟩⟩ ∧
    (Cause.unrecognised "~").stage = .lexical ∧
    exists token, token ∈ (Scanner.ofSource "shell" "9223372036854775808 ~").stream ∧
      token.kind = .int ∧ token.span.start < 20 ∧
      ¬ Number.ofDigits token.value.toList ≤ Parser.greatestInt := by
  have read : (Scanner.ofSource "shell" "9223372036854775808 ~").next =
      .done ⟨.int, "9223372036854775808", ⟨0, 19⟩⟩ ⟨"shell", 19, [' ', '~']⟩ := by
    cbv
  refine ⟨by decide, by cbv, rfl, ⟨.int, "9223372036854775808", ⟨0, 19⟩⟩, ?_, rfl, by decide,
    by cbv⟩
  rw [Scanner.stream_of_done read, if_neg (by decide)]
  exact List.mem_cons_self

end SignalScript
