import SignalScript.Proofs.Unclosed

namespace SignalScript

/-!
Names with a parenthesis behind them.

A name is a call if a parenthesis starts where the name stops.  The parser compares the two
offsets, and an offset keeps 32 bits.  So a parenthesis with a gap in front of it is taken as well
if the size of the gap is a multiple of `2 ^ 32`.  This is the only exception, and it needs a
source of more than `2 ^ 32` bytes.

The statements are about any state that a parser of the source can get into.  What stands behind
the held token is then told by the scanner: it stands right behind that token, or it has tried to
read on from there and was refused.
-/

namespace Scanner

/-! ## Gaps passed -/

/-- A comment reaches up to a newline or to the end of the text. -/
theorem width_comment {text after : List Char} (single : '\n' ∉ text)
    (ends : forall c, after.head? = some c -> c = '\n') :
    Lexeme.comment.width ('/' :: '/' :: text ++ after) = ('/' :: '/' :: text).length := by
  have within : forall c, c ∈ text -> (c != '\n') = true :=
    fun c member => bne_iff_ne.mpr fun same => single (same ▸ member)
  have stops : forall c, after.head? = some c -> (c != '\n') = false :=
    fun c next => bne_eq_false_iff_eq.mpr (ends c next)
  rw [List.cons_append, List.cons_append, Lexeme.width, Lexeme.run_exact within stops,
    List.length_cons, List.length_cons, Nat.add_comm]

theorem skip_length {scanner : Scanner} {front after : List Char}
    (unread : scanner.rest = front ++ after) :
    scanner.skip front.length = ⟨scanner.file, scanner.offset + Text.size front, after⟩ := by
  rw [skip, unread, List.take_left, List.drop_left]

/-- A reading passes over a gap. -/
theorem next_of_gap {gap after : List Char} (isGap : Gap gap after) {scanner : Scanner}
    (unread : scanner.rest = gap ++ after) : scanner.next = (scanner.skip gap.length).next := by
  induction isGap generalizing scanner with
  | nothing => rfl
  | @blank c gap after isBlank _ inductionHypothesis =>
      have onward : (scanner.skip 1).rest = gap ++ after := by
        rw [skip, unread]
        rfl
      rw [next_of_blank unread isBlank, inductionHypothesis onward, skip_skip, List.length_cons,
        Nat.add_comm]
  | @comment text gap after single ends _ inductionHypothesis =>
      rw [List.append_assoc] at unread
      have width := width_comment single ends
      rw [← unread] at width
      have found : Lexeme.first? scanner.rest = some .comment :=
        Lexeme.first?_of_comment (by rw [width]; exact Nat.succ_pos _)
      have onward : (scanner.skip ('/' :: '/' :: text).length).rest = gap ++ after := by
        rw [skip_length unread]
      rw [next_of_silent found rfl, width, inductionHypothesis onward, skip_skip,
        ← List.length_append]

/-- A delimiter is read behind a gap. -/
theorem next_of_gap_delimiter {scanner : Scanner} {kind : Kind} {gap text : List Char}
    (delimits : kind.delimits = true) (isGap : Gap gap (kind.symbol.toList ++ text))
    (unread : scanner.rest = gap ++ (kind.symbol.toList ++ text)) :
    scanner.next =
      .done ⟨kind, kind.symbol, Span.ofOffset (scanner.offset + Text.size gap) 1⟩
        ⟨scanner.file, scanner.offset + Text.size gap + 1, text⟩ := by
  rw [next_of_gap isGap unread, skip_length unread]
  exact next_of_delimiter delimits rfl

end Scanner

namespace Parser

/-! ## The text behind the held token -/

/-- The token that a parser holds stands in the source between these two texts. -/
structure HeldAt (file source : String) (parser : Parser) (front behind : List Char) : Prop where
  whole : source.toList = front ++ (parser.ahead.written ++ behind)
  span : parser.ahead.span =
    Span.ofOffset (Text.size front) (Text.size parser.ahead.written)
  /-- The scanner stands right behind the token, or it was refused there. -/
  scanner : parser.scanner = ⟨file, Text.size (front ++ parser.ahead.written), behind⟩ ∨
    exists fault, Scanner.next ⟨file, Text.size (front ++ parser.ahead.written), behind⟩ =
      .failed fault parser.scanner

variable {file source : String} {first parser : Parser} {front behind : List Char}

/-- What a scanner reads stands behind what it has passed. -/
theorem heldAt_of_next {scanner : Scanner} {passed : List Char}
    (reached : (Scanner.ofSource file source).Passes passed scanner)
    (read : scanner.next = .done parser.ahead parser.scanner) :
    exists front, parser.HeldAt file source front parser.scanner.rest := by
  rcases (Scanner.yields_of_next read).passed with ⟨middle, ⟨gap, cleared, _⟩, written, span⟩
  have start := reached.append cleared
  have stop := start.append written
  have offset : middle.offset = Text.size (passed ++ gap) := start.offset.trans (Nat.zero_add _)
  refine ⟨passed ++ gap, ?whole, ?span, Or.inl ?scanner⟩
  case whole =>
    rw [← List.append_assoc]
    exact stop.rest
  case span => rw [span, offset]
  case scanner =>
    have last : parser.scanner.offset = Text.size (passed ++ gap ++ parser.ahead.written) :=
      stop.offset.trans (Nat.zero_add _)
    have named : parser.scanner.file = file := stop.file
    rw [← last, ← named]

/-- The token that is held next stands behind the one before. -/
theorem HeldAt.advance {next : Parser} {token : Token}
    (held : parser.HeldAt file source front behind)
    (taken : parser.advance = .done token next) :
    exists further, next.HeldAt file source further next.scanner.rest := by
  have read := (advance_eq_done_iff.mp taken).2.2
  rcases held.scanner with same | ⟨fault, refused⟩
  · have reached : (Scanner.ofSource file source).Passes (front ++ parser.ahead.written)
        parser.scanner := by
      rw [same]
      exact ⟨held.whole.trans (List.append_assoc _ _ _).symm, (Nat.zero_add _).symm, rfl⟩
    exact heldAt_of_next reached read
  · -- Where the scanner was refused once, nothing is ever taken.
    cases (Scanner.next_of_failed refused).symm.trans read

/-- A refusal leaves the held token in its place. -/
theorem HeldAt.refused {next : Parser} {fault : Fault}
    (held : parser.HeldAt file source front behind)
    (refusal : parser.advance = .failed fault next) : next.HeldAt file source front behind := by
  rcases advance_eq_failed_iff.mp refusal with ⟨same, _, failed⟩
  rcases held with ⟨whole, span, scanner⟩
  rw [← same] at whole span scanner
  refine ⟨whole, span, Or.inr ?_⟩
  rcases scanner with here | ⟨earlier, refusedBefore⟩
  · exact ⟨fault, here ▸ failed⟩
  · have again := (Scanner.next_of_failed refusedBefore).symm.trans failed
    exact ⟨earlier, (Reply.failed.inj again).2 ▸ refusedBefore⟩

theorem exists_heldAt_of_pulled {last : Parser} {tokens : List Token}
    (pulled : Pulled parser tokens last) (held : parser.HeldAt file source front behind) :
    exists front behind, last.HeldAt file source front behind := by
  induction pulled generalizing front behind with
  | stay => exact ⟨front, behind, held⟩
  | taken step _ inductionHypothesis =>
      rcases held.advance step with ⟨further, heldNext⟩
      exact inductionHypothesis heldNext
  | refused step _ inductionHypothesis => exact inductionHypothesis (held.refused step)
  | moved depth _ inductionHypothesis =>
      exact inductionHypothesis ⟨held.whole, held.span, held.scanner⟩

/-- Whatever state a parser gets into, the token that it holds stands somewhere in the source. -/
theorem exists_heldAt (opened : ofSource file source = .ok first)
    (reached : first.Reaches parser) :
    exists front behind, parser.HeldAt file source front behind := by
  rcases reached with ⟨tokens, pulled⟩
  rcases heldAt_of_next (.nothing _) (ofSource_eq_ok_iff.mp opened).2 with ⟨front, held⟩
  exact exists_heldAt_of_pulled pulled held

/-! ## Calls -/

/-- What a parser reads at a name is a call: it takes a parenthesis behind the name, and then the
arguments up to the partner of that parenthesis. -/
def ReadsCall (limit : Option Nat) (parser : Parser) : Prop :=
  exists name next, parser.advance = .done name next ∧ next.ahead.kind = .openParen ∧
    parser.start limit .name =
      next.delimited limit .paren [Tree.ofName name.value] .closeParen

/-- What a parser reads at a name is the name alone.  What stands behind it is not touched. -/
def ReadsNameOnly (limit : Option Nat) (parser : Parser) : Prop :=
  exists name next, parser.advance = .done name next ∧
    parser.start limit .name = .done (Tree.ofName name.value) next

/-- The scanner cannot read on behind the name, and the parser passes that on. -/
def Refused (limit : Option Nat) (parser : Parser) : Prop :=
  exists fault left, parser.advance = .failed fault left ∧
    parser.start limit .name = .failed fault left

section
variable {limit : Option Nat}

theorem start_name_of_identifier (isName : parser.ahead.kind = .identifier) :
    parser.start limit .name =
      parser.advance.andThen fun name next =>
        if next.ahead.kind = .openParen ∧ next.ahead.span.start = name.span.stop then
          next.delimited limit .paren [Tree.ofName name.value] .closeParen
        else
          .done (Tree.ofName name.value) next := by
  rw [start_name, expect, demand, if_pos isName]
  rfl

/-- A call is read exactly if the next token is a parenthesis with the right offset. -/
theorem readsCall_iff_adjacent (isName : parser.ahead.kind = .identifier) :
    parser.ReadsCall limit <->
      exists next, parser.advance = .done parser.ahead next ∧ next.ahead.kind = .openParen ∧
        next.ahead.span.start = parser.ahead.span.stop := by
  constructor
  · rintro ⟨name, next, taken, opens, reply⟩
    rcases token_of_advance taken with rfl
    refine ⟨next, taken, opens, ?_⟩
    by_contra apart
    -- A name alone is no form, so the reply tells the two branches apart.
    rw [start_name_of_identifier isName, taken, Reply.done_andThen,
      if_neg fun both => apart both.2] at reply
    rcases delimited_eq_done reply.symm with ⟨_, _, _, ⟨_, _, _, form⟩ | ⟨_, _, form⟩⟩ <;>
      cases form
  · rintro ⟨next, taken, opens, adjacent⟩
    refine ⟨parser.ahead, next, taken, opens, ?_⟩
    rw [start_name_of_identifier isName, taken, Reply.done_andThen, if_pos ⟨opens, adjacent⟩]

/-- What is read at a name is a call, the name alone or nothing. -/
theorem readsNameOnly_or_refused (isName : parser.ahead.kind = .identifier)
    (other : ¬ parser.ReadsCall limit) : parser.ReadsNameOnly limit ∨ parser.Refused limit := by
  cases taken : parser.advance with
  | failed fault left =>
      refine Or.inr ⟨fault, left, taken, ?_⟩
      rw [start_name_of_identifier isName, taken, Reply.failed_andThen]
  | done name next =>
      rcases token_of_advance taken with rfl
      have apart : ¬ (next.ahead.kind = .openParen ∧
          next.ahead.span.start = parser.ahead.span.stop) :=
        fun both => other ((readsCall_iff_adjacent isName).mpr ⟨next, taken, both⟩)
      refine Or.inl ⟨_, next, taken, ?_⟩
      rw [start_name_of_identifier isName, taken, Reply.done_andThen, if_neg apart]

/-- Offsets that are equal in 32 bits are a multiple of `2 ^ 32` apart. -/
theorem ofNat_add_eq_iff (offset distance : Nat) :
    UInt32.ofNat (offset + distance) = UInt32.ofNat offset <-> 2 ^ 32 ∣ distance := by
  rw [← UInt32.toNat_inj, UInt32.toNat_ofNat', UInt32.toNat_ofNat']
  omega

/-- A parenthesis that is read behind the held token has a gap in front of it. -/
theorem HeldAt.gap_of_advance {next : Parser} (held : parser.HeldAt file source front behind)
    (taken : parser.advance = .done parser.ahead next) (opens : next.ahead.kind = .openParen) :
    exists gap after, behind = gap ++ '(' :: after ∧ Gap gap ('(' :: after) ∧
      next.ahead.span.start =
        UInt32.ofNat (Text.size (front ++ parser.ahead.written) + Text.size gap) := by
  have read := (advance_eq_done_iff.mp taken).2.2
  rcases held.scanner with same | ⟨fault, refused⟩
  · rw [same] at read
    have yielded := Scanner.yields_of_next read
    rcases yielded.passed with ⟨middle, ⟨gap, cleared, isGap⟩, written, span⟩
    have parenthesis := (yielded.delimiter_eq (by rw [opens]; rfl)).2
    rw [opens] at parenthesis
    have unread : middle.rest = '(' :: next.scanner.rest := by
      rw [written.rest, parenthesis]
      rfl
    refine ⟨gap, next.scanner.rest, unread ▸ cleared.rest, unread ▸ isGap, ?_⟩
    rw [span, cleared.offset]
    rfl
  · cases (Scanner.next_of_failed refused).symm.trans read

/-- A parenthesis with a gap in front of it is read behind the held token. -/
theorem HeldAt.advance_of_gap {gap after : List Char}
    (held : parser.HeldAt file source front (gap ++ '(' :: after))
    (isGap : Gap gap ('(' :: after)) :
    exists next, parser.advance = .done parser.ahead next ∧ next.ahead.kind = .openParen ∧
      next.ahead.span.start =
        UInt32.ofNat (Text.size (front ++ parser.ahead.written) + Text.size gap) := by
  let reader : Scanner := ⟨file, Text.size (front ++ parser.ahead.written), gap ++ '(' :: after⟩
  let next : Parser :=
    { scanner := ⟨file, reader.offset + Text.size gap + 1, after⟩
      ahead := ⟨.openParen, Kind.openParen.symbol, Span.ofOffset (reader.offset + Text.size gap) 1⟩
      depth := parser.depth }
  have delimits : Kind.openParen.delimits = true := rfl
  have read : reader.next = .done next.ahead next.scanner :=
    Scanner.next_of_gap_delimiter delimits isGap rfl
  rcases held.scanner with same | ⟨fault, refused⟩
  · have readHere : parser.scanner.next = .done next.ahead next.scanner :=
      (congrArg Scanner.next same).trans read
    exact ⟨next, advance_eq_done_iff.mpr ⟨rfl, rfl, readHere⟩, rfl, rfl⟩
  · cases refused.symm.trans read

/-- A call is read exactly if a parenthesis stands behind the name, with a gap in front of it whose
size cannot be told from nothing. -/
theorem HeldAt.readsCall_iff (held : parser.HeldAt file source front behind)
    (isName : parser.ahead.kind = .identifier) :
    parser.ReadsCall limit <-> exists gap after, behind = gap ++ '(' :: after ∧
      Gap gap ('(' :: after) ∧ 2 ^ 32 ∣ Text.size gap := by
  have stop : parser.ahead.span.stop =
      UInt32.ofNat (Text.size (front ++ parser.ahead.written)) := by
    rw [held.span, Text.size_append]
    rfl
  rw [readsCall_iff_adjacent isName, stop]
  constructor
  · rintro ⟨next, taken, opens, adjacent⟩
    rcases held.gap_of_advance taken opens with ⟨gap, after, same, isGap, start⟩
    exact ⟨gap, after, same, isGap, (ofNat_add_eq_iff _ _).mp (start.symm.trans adjacent)⟩
  · rintro ⟨gap, after, rfl, isGap, wraps⟩
    rcases held.advance_of_gap isGap with ⟨next, taken, opens, start⟩
    exact ⟨next, taken, opens, start.trans ((ofNat_add_eq_iff _ _).mpr wraps)⟩

/-- In a short source a call is read exactly if a parenthesis is the next character. -/
theorem HeldAt.readsCall_iff_of_short (held : parser.HeldAt file source front behind)
    (isName : parser.ahead.kind = .identifier) (short : source.utf8ByteSize < 2 ^ 32) :
    parser.ReadsCall limit <-> behind.head? = some '(' := by
  rw [held.readsCall_iff isName]
  constructor
  · rintro ⟨gap, after, rfl, _, wraps⟩
    have whole := Text.size_toList source
    rw [held.whole, Text.size_append, Text.size_append, Text.size_append] at whole
    have none : Text.size gap = 0 := Nat.eq_zero_of_dvd_of_lt wraps (by omega)
    have nothing : gap = [] := by
      by_contra some
      exact absurd (Text.size_pos some) (by omega)
    rw [nothing]
    rfl
  · intro next
    rcases behind with _ | ⟨c, after⟩
    · cases next
    · cases next
      exact ⟨[], after, rfl, .nothing _, Nat.dvd_zero _⟩

end

end Parser

/-- When a parser of a source holds a name, in whatever state it is, it reads a call exactly if a
parenthesis stands behind the name and the size of the gap in front of it is a multiple of `2 ^ 32`.
In a short source there is no such gap but the empty one, so the parenthesis is the next character.
If no call is read, nothing is taken but the name. -/
theorem name_called_iff {limit : Option Nat} {file source : String} {first parser : Parser}
    (opened : Parser.ofSource file source = .ok first) (reached : first.Reaches parser)
    (isName : parser.ahead.kind = .identifier) :
    (exists front behind, parser.HeldAt file source front behind) ∧
    (forall front behind, parser.HeldAt file source front behind ->
      (parser.ReadsCall limit <-> exists gap after, behind = gap ++ '(' :: after ∧
        Gap gap ('(' :: after) ∧ 2 ^ 32 ∣ Text.size gap) ∧
      (source.utf8ByteSize < 2 ^ 32 ->
        (parser.ReadsCall limit <-> behind.head? = some '('))) ∧
    (¬ parser.ReadsCall limit -> parser.ReadsNameOnly limit ∨ parser.Refused limit) :=
  ⟨Parser.exists_heldAt opened reached,
    fun _ _ held => ⟨held.readsCall_iff isName, held.readsCall_iff_of_short isName⟩,
    Parser.readsNameOnly_or_refused isName⟩

theorem name_called_iff_apart :
    exists first parser : Parser, Parser.ofSource "shell" "a+f (x)" = .ok first ∧
      first.Reaches parser ∧ parser.ahead.kind = .identifier ∧
      parser.HeldAt "shell" "a+f (x)" ['a', '+'] [' ', '(', 'x', ')'] ∧
      ¬ parser.ReadsCall (some Parser.nestingLimit) := by
  let first : Parser :=
    { scanner := ⟨"shell", 1, ['+', 'f', ' ', '(', 'x', ')']⟩
      ahead := ⟨.identifier, "a", ⟨0, 1⟩⟩
      depth := 0 }
  let middle : Parser :=
    { scanner := ⟨"shell", 2, ['f', ' ', '(', 'x', ')']⟩
      ahead := ⟨.plus, "+", ⟨1, 2⟩⟩
      depth := 0 }
  let parser : Parser :=
    { scanner := ⟨"shell", 3, [' ', '(', 'x', ')']⟩
      ahead := ⟨.identifier, "f", ⟨2, 3⟩⟩
      depth := 0 }
  have opened : Parser.ofSource "shell" "a+f (x)" = .ok first := by cbv
  have onward : first.advance = .done first.ahead middle := by cbv
  have further : middle.advance = .done middle.ahead parser := by cbv
  have reached : first.Reaches parser := ((Parser.Reaches.refl first).taken onward).taken further
  have written : parser.ahead.written = ['f'] := by decide
  have held : parser.HeldAt "shell" "a+f (x)" ['a', '+'] [' ', '(', 'x', ')'] := by
    refine ⟨?_, ?_, Or.inl ?_⟩ <;> rw [written] <;> rfl
  refine ⟨first, parser, opened, reached, rfl, held, ?_⟩
  rw [((name_called_iff opened reached rfl).2.1 _ _ held).2 (by decide)]
  decide

/-! ## A call across a wide gap -/

/-- Some spaces and a pair of parentheses. -/
def spacedParentheses (spaces : Nat) : List Char :=
  List.replicate spaces ' ' ++ ['(', ')']

/-- A name with spaces and parentheses behind it. -/
def spacedCall (spaces : Nat) : String :=
  String.ofList ('f' :: spacedParentheses spaces)

/-- The first state of a parser of that source, which holds the name. -/
def spacedState (file : String) (spaces : Nat) : Parser where
  scanner := ⟨file, 1, spacedParentheses spaces⟩
  ahead := ⟨.identifier, "f", Span.ofOffset 0 1⟩
  depth := 0

theorem size_spaces (spaces : Nat) : Text.size (List.replicate spaces ' ') = spaces := by
  induction spaces with
  | zero => rfl
  | succ spaces inductionHypothesis =>
      rw [List.replicate_succ, Text.size_cons, inductionHypothesis, Nat.add_comm]
      rfl

theorem gap_spaces (spaces : Nat) (after : List Char) : Gap (List.replicate spaces ' ') after :=
  .of_blanks after fun c member => by
    rw [(List.mem_replicate.mp member).2]
    decide

theorem head?_spacedParentheses {spaces : Nat} (positive : 0 < spaces) :
    (spacedParentheses spaces).head? = some ' ' := by
  cases spaces with
  | zero => cases positive
  | succ spaces => rfl

theorem next_spacedCall (file : String) (spaces : Nat) :
    (Scanner.ofSource file (spacedCall spaces)).next =
      .done (spacedState file spaces).ahead (spacedState file spaces).scanner := by
  have isWord : Lexeme.IsWord ['f'] := ⟨by decide, 'f', [], rfl, by decide, nofun⟩
  have ended : forall c, (spacedParentheses spaces).head? = some c ->
      Lexeme.continuesWord c = false := by
    cases spaces with
    | zero =>
        rintro c ⟨⟩
        decide
    | succ spaces =>
        rintro c ⟨⟩
        decide
  exact Scanner.next_of_name isWord ended String.toList_ofList

theorem heldAt_spacedState (file : String) (spaces : Nat) :
    (spacedState file spaces).HeldAt file (spacedCall spaces) [] (spacedParentheses spaces) := by
  have letter : Token.written ⟨.identifier, "f", Span.ofOffset 0 1⟩ = ['f'] := by decide
  have written : (spacedState file spaces).ahead.written = ['f'] := letter
  refine ⟨?_, ?_, Or.inl ?_⟩ <;> rw [written]
  · exact String.toList_ofList
  · rfl
  · rfl

/-- However many spaces there are, the token behind the name is the parenthesis. -/
theorem tokenize_spacedCall (file : String) (spaces : Nat) :
    tokenize file (spacedCall spaces) =
      .ok [⟨.identifier, "f", Span.ofOffset 0 1⟩, ⟨.openParen, "(", Span.ofOffset (1 + spaces) 1⟩,
        ⟨.closeParen, ")", Span.ofOffset (1 + spaces + 1) 1⟩,
        Token.endOfInput (1 + spaces + 1 + 1)] := by
  let named : Scanner := ⟨file, 1, spacedParentheses spaces⟩
  let opened : Scanner := ⟨file, 1 + spaces + 1, [')']⟩
  let closed : Scanner := ⟨file, 1 + spaces + 1 + 1, []⟩
  have second : named.next = .done ⟨.openParen, "(", Span.ofOffset (1 + spaces) 1⟩ opened := by
    have delimits : Kind.openParen.delimits = true := rfl
    have isGap : Gap (List.replicate spaces ' ') (Kind.openParen.symbol.toList ++ [')']) :=
      gap_spaces spaces _
    have unread : named.rest =
        List.replicate spaces ' ' ++ (Kind.openParen.symbol.toList ++ [')']) := rfl
    rw [Scanner.next_of_gap_delimiter delimits isGap unread, size_spaces]
    rfl
  have third : opened.next = .done ⟨.closeParen, ")", Span.ofOffset (1 + spaces + 1) 1⟩ closed :=
    Scanner.next_of_delimiter (by rfl : Kind.closeParen.delimits = true) rfl
  have last : closed.next = .done (Token.endOfInput closed.offset) closed :=
    Scanner.next_of_nil rfl
  exact tokenize_eq_ok_iff_scans.mpr ⟨closed, closed, .onward (next_spacedCall file spaces) nofun
    (.onward second nofun (.onward third nofun (.stay closed))), last, rfl⟩

/-- Parentheses behind a multiple of `2 ^ 32` spaces make a call. -/
theorem parse_spacedCall (file : String) {spaces : Nat} (wraps : 2 ^ 32 ∣ spaces) :
    parse file (spacedCall spaces) = .ok (.form .paren [.ident "f"]) := by
  have adjacent : UInt32.ofNat (1 + spaces) = UInt32.ofNat (0 + 1) :=
    (Parser.ofNat_add_eq_iff 1 spaces).mpr wraps
  have lowered : Tree.ofName "f" = .ident "f" := by cbv
  have spelled := Spells.emptyCall ⟨.identifier, "f", Span.ofOffset 0 1⟩
    ⟨.openParen, "(", Span.ofOffset (1 + spaces) 1⟩
    ⟨.closeParen, ")", Span.ofOffset (1 + spaces + 1) 1⟩ rfl rfl rfl adjacent
  rw [lowered] at spelled
  exact parseWithin_of_allows (tokenize_spacedCall file spaces) spelled
    (Tree.everywhere_single (Or.inl ⟨_, rfl⟩) (Tree.arranged_of_isAtom rfl))
    (Parser.allows_some_iff.mpr (by decide))

/-- With `2 ^ 32` spaces behind it a name has no parenthesis as the next character, and yet what is
read is a call. -/
theorem distant_parenthesis_called :
    exists first behind, Parser.ofSource "shell" (spacedCall (2 ^ 32)) = .ok first ∧
      first.ahead.kind = .identifier ∧
      first.HeldAt "shell" (spacedCall (2 ^ 32)) [] behind ∧
      behind.head? = some ' ' ∧
      first.ReadsCall (some Parser.nestingLimit) ∧
      parse "shell" (spacedCall (2 ^ 32)) = .ok (.form .paren [.ident "f"]) := by
  have held := heldAt_spacedState "shell" (2 ^ 32)
  have opened : Parser.ofSource "shell" (spacedCall (2 ^ 32)) =
      .ok (spacedState "shell" (2 ^ 32)) :=
    Parser.ofSource_eq_ok_iff.mpr ⟨rfl, next_spacedCall "shell" (2 ^ 32)⟩
  have positive : 0 < 2 ^ 32 := by decide
  refine ⟨_, _, opened, rfl, held, head?_spacedParentheses positive, ?_,
    parse_spacedCall "shell" (Nat.dvd_refl _)⟩
  refine (held.readsCall_iff rfl).mpr ⟨_, [')'], rfl, gap_spaces (2 ^ 32) _, ?_⟩
  rw [size_spaces]

end SignalScript
