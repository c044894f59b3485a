import SignalScript.Proofs.Extent

namespace SignalScript

/-!
Every fault is located in its source.

A source has a stream of tokens even if it cannot be read to its end: the tokens that come
before the place where the reading fails.  The fault of a rejected source stands at the
start of a token of that stream, and the text that it quotes is the value of that token.
The one exception is the place where the reading fails.  There the fault quotes the single
character with which no lexeme starts.

In either case the offset lies between two characters of the source, and no blank stands
there.
-/

/-- The text that a cause quotes from the place of the fault.  What would have been wanted
there is not quoted, and neither is the partner of a delimiter. -/
def Cause.quoted? : Cause -> Option String
  | .unrecognised character => some character
  | .numberOutOfRange literal => some literal
  | .unexpected token => some token
  | .unexpectedWanting token _ => some token
  | .missingOperand operator => some operator
  | .unclosed delimiter _ => some delimiter
  | .unmatched delimiter => some delimiter
  | .unterminatedText | .unexpectedEnd | .tooDeep _ => none

/-- What is held against a token quotes nothing but that token. -/
theorem Cause.Alike.quoted?_eq {tokens : Token -> Token -> Prop} {token other : Token}
    {cause otherCause : Cause} {text : String}
    (alike : cause.Alike tokens token other otherCause) (quoted : cause.quoted? = some text) :
    text = token.value := by
  cases alike <;> cases quoted <;> rfl

/-! ## The stream of tokens -/

namespace Scanner

/-- The tokens that are read one after another, up to the end of the input or to the place
where the reading fails. -/
def stream (scanner : Scanner) : List Token :=
  match _reply : scanner.next with
  | .failed _ _ => []
  | .done token after =>
      if _last : token.kind = .endOfInput then [token] else token :: after.stream
termination_by scanner.rest.length
decreasing_by
  have shorter := scanner.next_shortens _reply
  rw [Token.weight_eq_one _last] at shorter
  omega

theorem stream_of_failed {scanner after : Scanner} {fault : Fault}
    (read : scanner.next = .failed fault after) : scanner.stream = [] := by
  rw [stream]
  split
  next => rfl
  next other => cases read.symm.trans other

theorem stream_of_done {scanner after : Scanner} {token : Token}
    (read : scanner.next = .done token after) :
    scanner.stream = if token.kind = .endOfInput then [token] else token :: after.stream := by
  rw [stream]
  split
  next other => cases read.symm.trans other
  next token' after' other =>
    cases read.symm.trans other
    split <;> rfl

/-- Where all tokens can be read, the stream is the list of them. -/
theorem stream_of_tokensAfter {scanner : Scanner} {taken all : List Token}
    (read : scanner.tokensAfter taken = .ok all) : all = taken.reverse ++ scanner.stream := by
  fun_induction tokensAfter taken scanner with
  | case1 => cases read
  | case2 taken scanner token after reply last =>
      cases read
      rw [stream_of_done reply, if_pos last, List.reverse_cons]
  | case3 taken scanner token after reply more inductionHypothesis =>
      rw [inductionHypothesis read, stream_of_done reply, if_neg more, List.reverse_cons,
        List.append_assoc, List.singleton_append]

/-- A token starts at some place of the text behind the scanner that reads it, and no blank
stands there. -/
theorem starts_of_next {scanner after : Scanner} {token : Token}
    (read : scanner.next = .done token after) :
    exists text middle, Passes scanner text middle ∧
      token.span.start = UInt32.ofNat middle.offset ∧
      Lexeme.first? middle.rest ≠ some .blanks := by
  fun_induction next scanner with
  | case1 scanner unread =>
      cases read
      refine ⟨[], _, .nothing _, rfl, ?_⟩
      rw [unread]
      decide
  | case2 => cases read
  | case3 scanner c rest unread lexeme found count token isToken =>
      cases read
      rcases Option.map_eq_some_iff.mp isToken with ⟨kind, isKind, rfl⟩
      refine ⟨[], scanner, .nothing scanner, rfl, ?_⟩
      rw [found]
      intro same
      cases same
      cases isKind
  | case4 scanner c rest unread lexeme found count noToken inductionHypothesis =>
      rcases inductionHypothesis read with ⟨text, middle, passed, stands⟩
      exact ⟨_, middle, (Passes.skip scanner count).append passed, stands⟩

/-- So does every token of the stream. -/
theorem passes_of_mem_stream {scanner : Scanner} {token : Token}
    (member : token ∈ scanner.stream) :
    exists text middle, Passes scanner text middle ∧
      token.span.start = UInt32.ofNat middle.offset ∧
      Lexeme.first? middle.rest ≠ some .blanks := by
  fun_induction stream scanner with
  | case1 => cases member
  | case2 scanner first after reply last =>
      rw [List.mem_singleton.mp member]
      exact starts_of_next reply
  | case3 scanner first after reply more inductionHypothesis =>
      rcases List.mem_cons.mp member with same | later
      · rw [same]
        exact starts_of_next reply
      · rcases inductionHypothesis later with ⟨text, middle, passed, stands⟩
        rcases (yields_of_next reply).passes with ⟨front, reached⟩
        exact ⟨front ++ text, middle, reached.append passed, stands⟩

end Scanner

namespace Parser

/-- A parser draws on a stream: it holds one of its tokens and will only read others of
them. -/
structure DrawsOn (stream : List Token) (parser : Parser) : Prop where
  held : parser.ahead ∈ stream
  rest : forall token, token ∈ parser.scanner.stream -> token ∈ stream

/-- A token that is read from a stream leaves a parser that draws on it. -/
theorem drawsOn_of_next {scanner : Scanner} {parser : Parser}
    (read : scanner.next = .done parser.ahead parser.scanner) :
    parser.DrawsOn scanner.stream := by
  rw [Scanner.stream_of_done read]
  by_cases last : parser.ahead.kind = .endOfInput
  · rw [if_pos last]
    refine ⟨List.mem_singleton_self _, ?_⟩
    intro token member
    rw [Scanner.stream_of_done (Scanner.next_of_endOfInput read last), if_pos last] at member
    exact member
  · rw [if_neg last]
    exact ⟨List.mem_cons_self, fun token member => List.mem_cons_of_mem _ member⟩

theorem DrawsOn.reached {stream : List Token} {first last : Parser}
    (draws : first.DrawsOn stream) (reaches : Reaches first last) : last.DrawsOn stream := by
  rcases reaches with ⟨tokens, pulled⟩
  induction pulled with
  | stay => exact draws
  | taken step _ inductionHypothesis =>
      have onward := drawsOn_of_next (advance_eq_done_iff.mp step).2.2
      exact inductionHypothesis ⟨draws.rest _ onward.held,
        fun token member => draws.rest token (onward.rest token member)⟩
  | @refused parser next last fault tokens step _ inductionHypothesis =>
      rcases advance_eq_failed_iff.mp step with ⟨held, _, read⟩
      refine inductionHypothesis ⟨held ▸ draws.held, ?_⟩
      intro token member
      rw [Scanner.stream_of_failed (Scanner.next_of_failed read)] at member
      cases member
  | moved _ _ inductionHypothesis => exact inductionHypothesis ⟨draws.held, draws.rest⟩

end Parser

/-! ## Located faults -/

/-- A token of the stream starts where the fault stands, and the fault quotes nothing
else. -/
def Fault.AtToken (stream : List Token) (fault : Fault) : Prop :=
  exists token, token ∈ stream ∧ token.span.start = fault.position.offset ∧
    forall text, fault.cause.quoted? = some text -> text = token.value

/-- The reading fails where the fault stands, at the first character of the rest.  A
quotation mark there has no partner, and any other character is quoted. -/
def Fault.AtCharacter (rest : List Char) (fault : Fault) : Prop :=
  exists c later, rest = c :: later ∧ Lexeme.first? rest = none ∧
    fault.cause = if c = '\'' then .unterminatedText else .unrecognised (String.singleton c)

/-- A fault has its place in a source. -/
structure Fault.Located (file source : String) (fault : Fault) : Prop where
  named : fault.position.file = file
  within : fault.position.offset.toNat ≤ source.utf8ByteSize
  /-- The offset lies between two characters.  What stands there is a token or the place
  where the reading of the source fails. -/
  placed : exists rest, Text.dropBytes? fault.position.offset.toNat source.toList = some rest ∧
    (fault.AtToken (Scanner.ofSource file source).stream ∨
      tokenize file source = .error fault ∧ fault.AtCharacter rest)

namespace Scanner

section
variable {file source : String} {text : List Char} {scanner : Scanner}

theorem Passes.offset_eq (passed : Passes (ofSource file source) text scanner) :
    scanner.offset = Text.size text :=
  passed.offset.trans (Nat.zero_add _)

theorem Passes.whole (passed : Passes (ofSource file source) text scanner) :
    source.toList = text ++ scanner.rest :=
  passed.rest

theorem Passes.offset_le_size (passed : Passes (ofSource file source) text scanner) :
    scanner.offset ≤ source.utf8ByteSize := by
  rw [passed.offset_eq, ← Text.size_toList, passed.whole, Text.size_append]
  exact Nat.le_add_right _ _

/-- Where a scanner of a short source stands, the offset is exact and the text behind it
can be cut off there. -/
theorem Passes.dropBytes? (passed : Passes (ofSource file source) text scanner)
    (short : source.utf8ByteSize < 2 ^ 32) :
    (UInt32.ofNat scanner.offset).toNat = scanner.offset ∧
      scanner.offset ≤ source.utf8ByteSize ∧
      Text.dropBytes? scanner.offset source.toList = some scanner.rest := by
  have within := passed.offset_le_size
  refine ⟨UInt32.toNat_ofNat_of_lt' (Nat.lt_of_le_of_lt within short), within, ?_⟩
  rw [passed.whole, passed.offset_eq]
  exact Text.dropBytes?_size_append text scanner.rest

end

end Scanner

/-- A fault stands where a scanner of the source does, in front of a token or where the reading
fails.  No blank stands there. -/
structure Fault.StandsAt (file source : String) (fault : Fault) (text : List Char)
    (scanner : Scanner) : Prop where
  passed : Scanner.Passes (Scanner.ofSource file source) text scanner
  position : fault.position = scanner.position
  notBlank : Lexeme.first? scanner.rest ≠ some .blanks
  placed : fault.AtToken (Scanner.ofSource file source).stream ∨
    tokenize file source = .error fault ∧ fault.AtCharacter scanner.rest

theorem Fault.StandsAt.offset_eq {file source : String} {fault : Fault} {text : List Char}
    {scanner : Scanner} (stands : fault.StandsAt file source text scanner)
    (short : source.utf8ByteSize < 2 ^ 32) : fault.position.offset.toNat = scanner.offset := by
  rw [stands.position]
  exact (stands.passed.dropBytes? short).1

/-- A fault that stands where a scanner of its source does is located there. -/
theorem Fault.StandsAt.located {file source : String} {fault : Fault} {text : List Char}
    {scanner : Scanner} (stands : fault.StandsAt file source text scanner)
    (short : source.utf8ByteSize < 2 ^ 32) : fault.Located file source := by
  rcases stands.passed.dropBytes? short with ⟨_, within, cut⟩
  have offset := stands.offset_eq short
  have sameFile : fault.position.file = file := by
    rw [stands.position]
    exact stands.passed.file
  exact ⟨sameFile, offset ▸ within, ⟨scanner.rest, offset ▸ cut, stands.placed⟩⟩

/-- Once the scanner of a parser refuses to go on, the source has no token list, for the
same reason. -/
theorem tokenize_of_refusal {file source : String} {first last left : Parser} {fault : Fault}
    (short : source.utf8ByteSize < 2 ^ 32) (opened : Parser.ofSource file source = .ok first)
    (reaches : first.Reaches last) (refusal : last.advance = .failed fault left) :
    tokenize file source = .error fault := by
  cases listed : tokenize file source with
  | ok tokens =>
      rcases Parser.awaits_of_tokenize listed with ⟨same, sameOpened, awaits⟩
      cases opened.symm.trans sameOpened
      rcases reaches with ⟨taken, pulled⟩
      rcases (awaits.pulled pulled).advance with ⟨next, step, _⟩
      cases refusal.symm.trans step
  | error other =>
      have breaks := (Parser.breaks_of_ofSource opened listed short).reached reaches
      rw [breaks.refusal_eq refusal]

theorem stands_of_tokenize {file source : String} {fault : Fault}
    (broken : tokenize file source = .error fault) :
    exists text scanner, fault.StandsAt file source text scanner := by
  rcases tokenize_eq_error_iff_scans.mp broken with ⟨tokens, middle, stopped, scans, failed⟩
  rcases Scanner.clears_of_failed failed with ⟨cleared, c, later, unread, absent, rfl⟩
  rcases scans.passes with ⟨front, reached⟩
  rcases cleared.passes with ⟨gap, passed⟩
  refine ⟨front ++ gap, stopped, reached.append passed, rfl, ?_,
    Or.inr ⟨broken, c, later, unread, absent, rfl⟩⟩
  rw [absent]
  exact nofun

theorem stands_of_parseWithin {limit : Option Nat} {file source : String} {fault : Fault}
    (short : source.utf8ByteSize < 2 ^ 32)
    (refused : parseWithin limit file source = .error fault) :
    exists text scanner, fault.StandsAt file source text scanner := by
  cases opened : Parser.ofSource file source with
  | error refusal =>
      cases refused.symm.trans (parseWithin_of_error opened)
      exact stands_of_tokenize (tokenize_of_ofSource_error opened)
  | ok first =>
      rcases explained_of_parseWithin opened refused with
        ⟨last, left, reaches, refusal⟩ | ⟨token, ⟨last, reaches, rfl⟩, position, alike⟩
      · exact stands_of_tokenize (tokenize_of_refusal short opened reaches refusal)
      · have draws := (Parser.drawsOn_of_next (Parser.ofSource_eq_ok_iff.mp opened).2).reached
          reaches
        rcases Scanner.passes_of_mem_stream draws.held with ⟨text, middle, passed, start, stands⟩
        refine ⟨text, middle, passed, ?_, stands, Or.inl ⟨last.ahead, draws.held, ?_, ?_⟩⟩
        · rw [position, start, Scanner.position, passed.file, Scanner.ofSource,
            Parser.file_of_ofSource opened]
        · rw [position]
        · intro text quoted
          exact alike.quoted?_eq quoted

theorem located_of_tokenize {file source : String} {fault : Fault}
    (short : source.utf8ByteSize < 2 ^ 32) (broken : tokenize file source = .error fault) :
    fault.Located file source := by
  rcases stands_of_tokenize broken with ⟨_, _, stands⟩
  exact stands.located short

end SignalScript
