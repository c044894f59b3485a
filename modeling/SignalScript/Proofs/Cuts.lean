import SignalScript.Proofs.Unreadable

namespace SignalScript

/-!
Reading by cuts.

A scanner holds the text that is still unread, so it cannot come to stand inside a character.  A
cursor holds the whole source and a number of bytes, and gets each text by cutting: what is unread,
what a lexeme has matched, and what stands between the quotation marks of a string.  A cut that
splits a character, or that lies outside the text, gives nothing, and whoever asked for it gets no
answer.

Below, the reading of a token is taken apart into rounds that make these cuts.  A round moves on by
the bytes that its lexeme says it has, and no one checks whether a character starts there.  From
where a scanner of the source stands all cuts are possible, and what is read by cuts is what the
scanner reads.
-/

namespace Text

/-- The text between two byte offsets, if they are in order and both fall between characters. -/
def cut? (start stop : Nat) (text : List Char) : Option (List Char) :=
  if start ≤ stop then slice? start stop text else none

theorem cut?_append (before middle after : List Char) :
    cut? (size before) (size before + size middle) (before ++ (middle ++ after)) = some middle := by
  rw [cut?, if_pos (Nat.le_add_right _ _)]
  exact slice?_append before middle after

end Text

namespace Lexeme

/-- A string has a byte to lose at each end, and no character is split. -/
theorem cut?_literal {text : List Char} (positive : 0 < string.width text) :
    Text.cut? 1 (Text.size (text.take (string.width text)) - 1) (text.take (string.width text)) =
      some (string.value (text.take (string.width text))) := by
  rcases take_string positive with ⟨contents, taken⟩
  have cut := Text.cut?_append ['\''] contents ['\'']
  have mark : Text.size ['\''] = 1 := rfl
  have stop : Text.size ('\'' :: contents ++ ['\'']) - 1 = 1 + Text.size contents := by
    rw [Text.size_append, Text.size_cons, mark]
    exact Nat.add_sub_cancel _ _
  rw [mark] at cut
  rw [taken, stop]
  refine cut.trans ?_
  rw [value, List.cons_append, List.drop_one, List.tail_cons, List.dropLast_concat]

end Lexeme

namespace Cursor

/-- The first bytes of what is unread. -/
def matched? (cursor : Cursor) (bytes : Nat) : Option (List Char) :=
  cursor.rest?.bind (Text.cut? 0 bytes)

/-- What a round of reading comes to.  Behind a gap another round is needed. -/
inductive Round where
  | passed (next : Cursor)
  | read (token : Token) (next : Cursor)
  | stopped (fault : Fault)

/-- A token of the next `bytes` bytes. -/
def yielding (cursor : Cursor) (kind : Kind) (value : List Char) (bytes : Nat) : Round :=
  .read ⟨kind, String.ofList value, Span.ofOffset cursor.offset.toNat bytes⟩ (cursor.advance bytes)

/-- What is made of the bytes that a lexeme has matched.  A fixed lexeme goes by its own spelling
and not by the match, and a string loses a byte at each end. -/
def handled? (cursor : Cursor) (bytes : Nat) : Lexeme -> Option Round
  | .blanks => some (.passed (cursor.advance bytes))
  | .comment => some (.passed (cursor.advance bytes))
  | .word =>
      (cursor.matched? bytes).map fun value =>
        cursor.yielding (if value = ['@'] then .atSign else .identifier) value (Text.size value)
  | .number =>
      (cursor.matched? bytes).map fun value =>
        cursor.yielding (if '.' ∈ value then .float else .int) value (Text.size value)
  | .string =>
      (cursor.matched? bytes).bind fun literal =>
        (Text.cut? 1 (Text.size literal - 1) literal).map fun contents =>
          cursor.yielding .string contents (Text.size literal)
  | .fixed kind =>
      some (cursor.yielding kind kind.symbol.toList (Text.size kind.symbol.toList))

/-- A round of reading in front of the end of the source. -/
def round? (cursor : Cursor) : Option Round :=
  cursor.rest?.bind fun text =>
    match Lexeme.first? text with
    | some lexeme => cursor.handled? (Text.size (text.take (lexeme.width text))) lexeme
    | none =>
        cursor.character?.map fun c =>
          .stopped ⟨if c = '\'' then .unterminatedText else .unrecognised (String.singleton c),
            cursor.position⟩

/-- Inside a character nothing can be cut. -/
example : round? ⟨"shell", "é".toList, 1⟩ = none := rfl

/-- Rounds follow each other until one of them settles the reading.  Where a cut is impossible the
rounds break off, and there is no reply. -/
inductive Pulls : Cursor -> Reply Cursor Token -> Prop
  | ended {cursor : Cursor} :
      cursor.atEnd = true -> Pulls cursor (.done (Token.endOfInput cursor.offset.toNat) cursor)
  | read {cursor next : Cursor} {token : Token} :
      cursor.atEnd = false -> cursor.round? = some (.read token next) ->
      Pulls cursor (.done token next)
  | stopped {cursor : Cursor} {fault : Fault} :
      cursor.atEnd = false -> cursor.round? = some (.stopped fault) ->
      Pulls cursor (.failed fault cursor)
  | passed {cursor next : Cursor} {reply : Reply Cursor Token} :
      cursor.atEnd = false -> cursor.round? = some (.passed next) -> Pulls next reply ->
      Pulls cursor reply

/-- The cursor has this reply, and can get it by cuts. -/
structure Reads (cursor : Cursor) (reply : Reply Cursor Token) : Prop where
  answered : cursor.next? = some reply
  byCuts : cursor.Pulls reply

/-- Readings follow each other up to the end of the input or up to a failure.  Where one of them
has no reply, there is nothing to list. -/
inductive Lists : Cursor -> Except Fault (List Token) -> Prop
  | last {cursor next : Cursor} {token : Token} :
      cursor.Reads (.done token next) -> token.kind = .endOfInput -> Lists cursor (.ok [token])
  | failed {cursor next : Cursor} {fault : Fault} :
      cursor.Reads (.failed fault next) -> Lists cursor (.error fault)
  | more {cursor next : Cursor} {token : Token} {listed : Except Fault (List Token)} :
      cursor.Reads (.done token next) -> token.kind ≠ .endOfInput -> Lists next listed ->
      Lists cursor (listed.map (token :: ·))

end Cursor

/-- The same reply with another state. -/
def Reply.along {State Other Value : Type} (change : State -> Other) :
    Reply State Value -> Reply Other Value
  | .done value next => .done value (change next)
  | .failed fault next => .failed fault (change next)

namespace Scanner

/-- The cursor of a source that stands where a scanner does. -/
def cursor (source : List Char) (scanner : Scanner) : Cursor where
  file := scanner.file
  source := source
  offset := UInt64.ofNat scanner.offset

/-! ## Cuts where a scanner stands -/

section
variable {file source : String} {front : List Char} {scanner : Scanner}

/-- An offset of 64 bits is large enough for the source. -/
theorem Passes.toNat_offset (passed : Passes (ofSource file source) front scanner)
    (fits : source.utf8ByteSize < 2 ^ 64) :
    (scanner.cursor source.toList).offset.toNat = scanner.offset :=
  UInt64.toNat_ofNat_of_lt' (Nat.lt_of_le_of_lt passed.offset_le_size fits)

theorem Passes.rest?_cursor (passed : Passes (ofSource file source) front scanner)
    (fits : source.utf8ByteSize < 2 ^ 64) :
    (scanner.cursor source.toList).rest? = some scanner.rest := by
  rw [Cursor.rest?, passed.toNat_offset fits, passed.offset_eq]
  exact passed.whole ▸ Text.dropBytes?_size_append front scanner.rest

theorem Passes.atEnd_cursor (passed : Passes (ofSource file source) front scanner)
    (fits : source.utf8ByteSize < 2 ^ 64) :
    (scanner.cursor source.toList).atEnd = decide (scanner.rest = []) := by
  have size : Text.size (scanner.cursor source.toList).source =
      scanner.offset + Text.size scanner.rest := by
    show Text.size source.toList = _
    rw [passed.whole, Text.size_append, passed.offset_eq]
  rw [Cursor.atEnd, passed.toNat_offset fits, size]
  cases unread : scanner.rest with
  | nil => simp
  | cons c rest =>
      have some := Text.size_pos (List.cons_ne_nil c rest)
      simp only [List.cons_ne_nil, decide_false, decide_eq_false_iff_not]
      omega

/-! ## Rounds where a scanner stands -/

theorem Passes.matched?_cursor (passed : Passes (ofSource file source) front scanner)
    (fits : source.utf8ByteSize < 2 ^ 64) (count : Nat) :
    (scanner.cursor source.toList).matched? (Text.size (scanner.rest.take count)) =
      some (scanner.rest.take count) := by
  have cut := Text.cut?_append [] (scanner.rest.take count) (scanner.rest.drop count)
  rw [List.nil_append, List.take_append_drop, Text.size_nil, Nat.zero_add] at cut
  rw [Cursor.matched?, passed.rest?_cursor fits]
  exact cut

/-- To move on by the bytes of some characters is to skip these characters. -/
theorem advance_cursor (source : List Char) (scanner : Scanner) (count : Nat) :
    (scanner.cursor source).advance (Text.size (scanner.rest.take count)) =
      (scanner.skip count).cursor source := by
  rw [Cursor.advance, cursor, cursor, skip, ← UInt64.ofNat_add]

/-- The round of a lexeme that a scanner finds. -/
def roundOf (source : List Char) (scanner : Scanner) (lexeme : Lexeme) : Cursor.Round :=
  let count := lexeme.width scanner.rest
  match scanner.token? lexeme count with
  | some token => .read token ((scanner.skip count).cursor source)
  | none => .passed ((scanner.skip count).cursor source)

/-- A token of the bytes that a lexeme has matched. -/
theorem Passes.yielding_cursor (passed : Passes (ofSource file source) front scanner)
    (fits : source.utf8ByteSize < 2 ^ 64) (kind : Kind) (value : List Char) (count : Nat) :
    (scanner.cursor source.toList).yielding kind value (Text.size (scanner.rest.take count)) =
      .read ⟨kind, String.ofList value,
          Span.ofOffset scanner.offset (Text.size (scanner.rest.take count))⟩
        ((scanner.skip count).cursor source.toList) := by
  rw [Cursor.yielding, passed.toNat_offset fits, advance_cursor]

/-- Every cut that a lexeme asks for is possible. -/
theorem Passes.handled?_cursor (passed : Passes (ofSource file source) front scanner)
    (fits : source.utf8ByteSize < 2 ^ 64) {lexeme : Lexeme}
    (found : Lexeme.first? scanner.rest = some lexeme) :
    (scanner.cursor source.toList).handled?
        (Text.size (scanner.rest.take (lexeme.width scanner.rest))) lexeme =
      some (scanner.roundOf source.toList lexeme) := by
  have positive := Lexeme.width_pos_of_first? found
  have matched := passed.matched?_cursor fits (lexeme.width scanner.rest)
  cases lexeme with
  | blanks =>
      rw [Cursor.handled?, advance_cursor]
      rfl
  | comment =>
      rw [Cursor.handled?, advance_cursor]
      rfl
  | word =>
      rw [Cursor.handled?, matched, Option.map_some, passed.yielding_cursor fits]
      rfl
  | number =>
      rw [Cursor.handled?, matched, Option.map_some, passed.yielding_cursor fits]
      rfl
  | string =>
      rw [Cursor.handled?, matched, Option.bind_some, Lexeme.cut?_literal positive,
        Option.map_some, passed.yielding_cursor fits]
      rfl
  | fixed kind =>
      rw [Cursor.handled?, ← Lexeme.take_fixed positive, passed.yielding_cursor fits]
      rfl

/-- Every cut of a round is possible. -/
theorem Passes.round?_cursor (passed : Passes (ofSource file source) front scanner)
    (fits : source.utf8ByteSize < 2 ^ 64) {lexeme : Lexeme}
    (found : Lexeme.first? scanner.rest = some lexeme) :
    (scanner.cursor source.toList).round? = some (scanner.roundOf source.toList lexeme) := by
  rw [Cursor.round?, passed.rest?_cursor fits, Option.bind_some, found]
  exact passed.handled?_cursor fits found

theorem Passes.round?_cursor_of_none (passed : Passes (ofSource file source) front scanner)
    (fits : source.utf8ByteSize < 2 ^ 64) {c : Char} {rest : List Char}
    (unread : scanner.rest = c :: rest) (absent : Lexeme.first? scanner.rest = none) :
    (scanner.cursor source.toList).round? = some (.stopped (scanner.faultAt c)) := by
  have position : (scanner.cursor source.toList).position = scanner.position := by
    rw [Cursor.position, Cursor.place, passed.toNat_offset fits]
    rfl
  rw [Cursor.round?, passed.rest?_cursor fits, Option.bind_some, absent, Cursor.character?,
    passed.rest?_cursor fits, unread, position]
  rfl

/-! ## Readings where a scanner stands -/

/-- By cuts the cursor gets what the scanner reads. -/
theorem Passes.pulls_cursor (passed : Passes (ofSource file source) front scanner)
    (fits : source.utf8ByteSize < 2 ^ 64) :
    (scanner.cursor source.toList).Pulls (scanner.next.along (cursor source.toList)) := by
  have ending := passed.atEnd_cursor fits
  fun_induction next scanner generalizing front
  case case1 scanner unread =>
    rw [unread] at ending
    have pulls := Cursor.Pulls.ended ending
    rw [passed.toNat_offset fits] at pulls
    exact pulls
  case case2 scanner c rest unread absent =>
    rw [unread] at ending
    exact .stopped ending (passed.round?_cursor_of_none fits unread absent)
  case case3 scanner c rest unread lexeme found count token isToken =>
    have round := passed.round?_cursor fits found
    rw [unread] at ending
    rw [roundOf, isToken] at round
    exact .read ending round
  case case4 scanner c rest unread lexeme found count silent inductionHypothesis =>
    have round := passed.round?_cursor fits found
    have further := passed.append (Passes.skip scanner count)
    rw [unread] at ending
    rw [roundOf, silent] at round
    exact .passed ending round (inductionHypothesis further (further.atEnd_cursor fits))

/-- A reading leaves the scanner further on in the source. -/
theorem passes_left (scanner : Scanner) : exists text, Passes scanner text scanner.next.left := by
  cases reading : scanner.next with
  | done token after => exact (yields_of_next reading).passes
  | failed fault after =>
      rcases (clears_of_failed reading).1 with ⟨gap, passed, _⟩
      exact ⟨gap, passed⟩

/-- The cursor has the reply of the scanner. -/
theorem Passes.next?_cursor (passed : Passes (ofSource file source) front scanner)
    (fits : source.utf8ByteSize < 2 ^ 64) :
    (scanner.cursor source.toList).next? = some (scanner.next.along (cursor source.toList)) := by
  have offset := (passed.toNat_offset fits).trans passed.offset_eq
  by_cases unread : scanner.rest = []
  · have ended := passed.atEnd_cursor fits
    rw [decide_eq_true unread] at ended
    rw [Cursor.next?, if_pos ended, passed.toNat_offset fits, next_of_nil unread]
    rfl
  · have here : Scanner.mk (scanner.cursor source.toList).file (Text.size front) scanner.rest =
        scanner := by
      rw [← passed.offset_eq]
      rfl
    rw [Cursor.next?_of_split passed.whole offset unread, here]
    have follows : (scanner.cursor source.toList).follow scanner.next.left =
        scanner.next.left.cursor source.toList := by
      rcases passes_left scanner with ⟨text, onward⟩
      rw [Cursor.follow, cursor, cursor, onward.file]
    cases reading : scanner.next with
    | done token after =>
        rw [reading] at follows
        exact congrArg (fun next => some (Reply.done token next)) follows
    | failed fault after =>
        rw [reading] at follows
        exact congrArg (fun next => some (Reply.failed fault next)) follows

/-- Where a scanner of the source stands, a cursor reads what the scanner reads, by cuts that are
all possible. -/
theorem Passes.reads_cursor (passed : Passes (ofSource file source) front scanner)
    (fits : source.utf8ByteSize < 2 ^ 64) :
    (scanner.cursor source.toList).Reads (scanner.next.along (cursor source.toList)) :=
  ⟨passed.next?_cursor fits, passed.pulls_cursor fits⟩

/-- The tokens that a scanner reads are listed by a cursor that stands there. -/
theorem Passes.lists_cursor (passed : Passes (ofSource file source) front scanner)
    (fits : source.utf8ByteSize < 2 ^ 64) (taken : List Token) :
    exists listed, (scanner.cursor source.toList).Lists listed ∧
      scanner.tokensAfter taken = listed.map (taken.reverse ++ ·) := by
  have reads := passed.reads_cursor fits
  fun_induction tokensAfter taken scanner generalizing front
  case case1 taken scanner fault after reading =>
    rw [reading] at reads
    exact ⟨.error fault, .failed reads, rfl⟩
  case case2 taken scanner token after reading last =>
    rw [reading] at reads
    refine ⟨.ok [token], .last reads last, ?_⟩
    rw [List.reverse_cons]
    rfl
  case case3 taken scanner token after reading goesOn inductionHypothesis =>
    rw [reading] at reads
    rcases (yields_of_next reading).passes with ⟨text, onward⟩
    have further := passed.append onward
    rcases inductionHypothesis further (further.reads_cursor fits) with ⟨listed, lists, same⟩
    refine ⟨listed.map (token :: ·), .more reads goesOn lists, same.trans ?_⟩
    rw [List.reverse_cons]
    cases listed with
    | error fault => rfl
    | ok tokens => exact congrArg Except.ok (List.append_assoc _ _ _)

end

/-- The token list of a source is the list of a cursor at its start. -/
theorem lists_ofSource (file : String) {source : String} (fits : source.utf8ByteSize < 2 ^ 64) :
    (Cursor.ofSource file source).Lists (tokenize file source) := by
  rcases Passes.lists_cursor (.nothing (ofSource file source)) fits [] with ⟨listed, lists, same⟩
  have whole : tokenize file source = listed := by
    rw [tokenize, same]
    cases listed with
    | error fault => rfl
    | ok tokens => rfl
  rw [whole]
  exact lists

end Scanner
end SignalScript
