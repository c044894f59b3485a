import SignalScript.Proofs.Enclosure
import SignalScript.Proofs.Missing

namespace SignalScript

/-!
Delimiters that are never closed.

When a parse says that a delimiter is never closed, it has read what stands behind the delimiter
as one complete expression and has met the end of the input there.  The text behind the delimiter
is therefore a program of its own.  As a source it has the same tokens, closer to the start, and
they spell the same tree, because a spelling depends on distances between tokens and not on
places.  It takes as many levels as before, now from the outermost one.

A complete expression closes whatever it opens.  So the delimiter is the last one that is left
open.
-/

/-! ## Tokens moved back -/

namespace Scanner

/-- A text that can be read farther back in the source can be read. -/
theorem next_of_moved {scanner after : Scanner} {token : Token} {distance : Nat}
    (read : (scanner.moved distance).next = .done token after) :
    exists original unmoved, scanner.next = .done original unmoved ∧
      token = original.moved distance ∧ after = unmoved.moved distance := by
  rw [next_moved_eq] at read
  cases own : scanner.next with
  | failed fault left =>
      rw [own] at read
      cases read
  | done original unmoved =>
      rw [own] at read
      cases read
      exact ⟨original, unmoved, rfl, rfl, rfl⟩

theorem Scans.of_moved {scanner last : Scanner} {tokens : List Token} {distance : Nat}
    (scans : Scans (scanner.moved distance) tokens last) :
    exists originals unmoved, Scans scanner originals unmoved ∧
      tokens = originals.map (Token.moved distance) ∧ last = unmoved.moved distance := by
  generalize farther : scanner.moved distance = first at scans
  induction scans generalizing scanner with
  | stay => exact ⟨[], scanner, .stay scanner, rfl, farther.symm⟩
  | onward read more _ inductionHypothesis =>
      subst farther
      rcases next_of_moved read with ⟨original, unmoved, own, rfl, rfl⟩
      rcases inductionHypothesis rfl with ⟨originals, final, scans, rfl, rfl⟩
      exact ⟨original :: originals, final, .onward own more scans, rfl, rfl⟩

end Scanner

/-- Offsets keep 32 bits, so a token can be moved on until it is back. -/
theorem Token.moved_back (token : Token) (distance : Nat) :
    (token.moved distance).moved (2 ^ 32 * distance - distance) = token := by
  have full : UInt32.ofNat distance + UInt32.ofNat (2 ^ 32 * distance - distance) = 0 := by
    rw [← UInt32.ofNat_add]
    have whole : distance + (2 ^ 32 * distance - distance) = 2 ^ 32 * distance := by omega
    rw [whole]
    apply UInt32.toNat_inj.mp
    simp
  simp only [moved, UInt32.add_assoc, full, UInt32.add_zero]

theorem Spells.of_moved {tree : Tree} {levels : Nat} {tokens : List Token} {distance : Nat}
    (spelled : Spells tree levels (tokens.map (Token.moved distance))) :
    Spells tree levels tokens := by
  have back := spelled.moved (2 ^ 32 * distance - distance)
  rw [List.map_map] at back
  have same : Token.moved (2 ^ 32 * distance - distance) ∘ Token.moved distance = id := by
    funext token
    exact token.moved_back distance
  rw [same, List.map_id] at back
  exact back

/-! ## The end of a source as a source -/

namespace Parser

/-- An expression that has been read to the end of the input had room for all of its levels. -/
theorem allows_of_read {limit : Option Nat} {first last : Parser} {tree : Tree} {levels : Nat}
    {tokens : List Token} (reply : first.read limit .loosest = .done tree last)
    (spelled : Spells tree levels tokens) (trail : Trail first tokens last)
    (atEnd : last.ahead.kind = .endOfInput) : Allows limit first.depth levels := by
  have arranged := (read_reads reply).arranged
  have settled := (unfolds_of_spells limit spelled arranged).read_loosest spelled trail
    (by rw [atEnd]; rfl) (by rw [atEnd]; rfl)
  by_cases room : Allows limit first.depth levels
  · exact room
  · rcases settled.beyond room with ⟨_, _, _, _, failed⟩
    cases reply.symm.trans failed

/-- An expression that ends with the source is read again if the source starts with it. -/
theorem parseWithin_of_tail {limit : Option Nat} {parser next last : Parser} {token : Token}
    {tree : Tree} (taken : parser.advance = .done token next)
    (reply : next.read limit .loosest = .done tree last)
    (atEnd : last.ahead.kind = .endOfInput) :
    parseWithin limit parser.scanner.file (String.ofList parser.scanner.rest) = .ok tree := by
  have reads := read_reads reply
  rcases reads.spelled with ⟨levels, tokens, spelled, trail⟩
  rcases Scanner.scans_of_trail trail (advance_eq_done_iff.mp taken).2.2 with
    ⟨middle, scans, read⟩
  have farther : parser.scanner =
      (Scanner.ofSource parser.scanner.file (String.ofList parser.scanner.rest)).moved
        parser.scanner.offset := by
    rw [Scanner.moved, Scanner.ofSource, String.toList_ofList, Nat.zero_add]
  rw [farther] at scans
  rcases scans.of_moved with ⟨originals, unmoved, own, rfl, rfl⟩
  rcases Scanner.next_of_moved read with ⟨ended, after, ownRead, moved, _⟩
  have ownEnd : ended.kind = .endOfInput := by
    rw [moved] at atEnd
    exact atEnd
  have room : Allows limit 0 levels := by
    intro bound same
    have allowed := allows_of_read reply spelled trail atEnd bound same
    omega
  exact parseWithin_of_allows (tokenize_eq_ok_iff_scans.mpr ⟨unmoved, after, own, ownRead, ownEnd⟩)
    spelled.of_moved reads.arranged room

end Parser

/-! ## Programs -/

theorem Kind.delimits_of_opens {kind : Kind} (opens : kind.opens = true) :
    kind.delimits = true := by
  cases kind <;> first | rfl | cases opens

theorem Kind.symbol_of_admits {kind : Kind} {value : List Char} (opens : kind.opens = true)
    (admitted : kind.Admits value) : value = kind.symbol.toList := by
  cases kind <;> first | exact admitted | cases opens

/-- An opening delimiter is written as its symbol. -/
theorem Scanner.Yields.delimiter_eq {scanner after : Scanner} {token : Token}
    (yielded : Yields scanner token after) (opens : token.kind.opens = true) :
    token.value = token.kind.symbol ∧ token.written = token.kind.symbol.toList := by
  have value := Kind.symbol_of_admits opens yielded.admitted
  have unquoted : token.kind ≠ .string := by
    intro same
    rw [same] at opens
    cases opens
  have written := Token.written_eq_value unquoted (Kind.ne_endOfInput_of_opens opens)
  exact ⟨String.toList_inj.mp value, written.trans value⟩

/-- A parse says that a delimiter is never closed only where that is so.  The source has a token
list, the delimiter stands at the offset and is the last one left open, what is expected is its
partner, and the text behind it is a program. -/
theorem unclosed_delimiter_true {file source delimiter expected : String} {position : Position}
    (short : source.utf8ByteSize < 2 ^ 32)
    (refused : parse file source = .error ⟨.unclosed delimiter expected, position⟩) :
    exists (tokens inner : List Token) (opened last : Token) (close : Kind) (rest : List Char)
      (content : Tree),
      tokenize file source = .ok (tokens ++ [last]) ∧ last.kind = .endOfInput ∧
      LastOpen tokens opened inner ∧ (leftOpen [] tokens).head? = some opened ∧
      opened.span.start = position.offset ∧ delimiter = opened.kind.symbol ∧
      opened.kind.partner? = some close ∧ expected = close.symbol ∧
      Text.dropBytes? position.offset.toNat source.toList = some (delimiter.toList ++ rest) ∧
      Text.dropBytes? (position.offset.toNat + 1) source.toList = some rest ∧
      parse file (String.ofList rest) = .ok content := by
  rcases complaint_of_parseWithin refused rfl with ⟨first, started, complaint⟩
  generalize same : (⟨.unclosed delimiter expected, position⟩ : Fault) = fault at complaint
  cases complaint with
  | behind => cases same
  | before => cases same
  | ended => cases same
  | other others =>
      rw [← same] at others
      cases others
  | @unclosed before parser next last opened close content arrives taken partners contents atEnd =>
      cases same
      have held := Parser.token_of_advance taken
      have opens : opened.kind.opens = true := Kind.opens_of_partner? partners
      have more : parser.ahead.kind ≠ .endOfInput := Kind.ne_endOfInput_of_opens (held ▸ opens)
      rcases (Parser.read_reads contents).spelled with ⟨levels, inner, spelled, trail⟩
      have whole := ((arrives.taken more taken).append trail).trail started
      rw [List.append_assoc, List.singleton_append] at whole
      have innermost : LastOpen (before ++ opened :: inner) opened inner :=
        ⟨⟨before, rfl⟩, opens, spelled.leftOpen_eq⟩
      -- Both the delimiter and the text behind it have their places in the source.
      rcases arrives.scans started with ⟨middle, scans, read⟩
      rw [← held] at read
      have yielded := Scanner.yields_of_next read
      rcases scans.passes with ⟨front, passed⟩
      rcases yielded.passed with ⟨start, ⟨gap, cleared, _⟩, written, span⟩
      rcases yielded.delimiter_eq opens with ⟨value, spelling⟩
      have reached := passed.append cleared
      rcases reached.dropBytes? short with ⟨exact, _, here⟩
      rcases (reached.append written).dropBytes? short with ⟨_, _, there⟩
      have offset : opened.span.start.toNat = start.offset := by
        rw [span]
        exact exact
      have later : parser.scanner.offset = start.offset + 1 := by
        rw [written.offset, spelling, Kind.size_of_delimits (Kind.delimits_of_opens opens)]
      have sameFile : parser.scanner.file = file := (reached.append written).file
      refine ⟨before ++ opened :: inner, inner, opened, last.ahead, close, parser.scanner.rest,
        content, tokenize_eq_ok_iff.mpr ⟨first, _, started, whole, rfl, atEnd⟩, atEnd, innermost,
        innermost.head?_leftOpen [], rfl, value, partners, rfl, ?_, ?_, ?_⟩
      · rw [Parser.positionOf, offset, here, written.rest, spelling, value]
      · rw [Parser.positionOf, offset, ← later]
        exact there
      · rw [← sameFile]
        exact Parser.parseWithin_of_tail taken contents atEnd

theorem unclosed_delimiter_true_nested :
    "[f('é')+(g(x), [1]// )".utf8ByteSize < 2 ^ 32 ∧
    parse "shell" "[f('é')+(g(x), [1]// )" = .error ⟨.unclosed "(" ")", ⟨9, "shell"⟩⟩ ∧
    exists (tokens inner : List Token) (opened last : Token) (close : Kind) (rest : List Char)
      (content : Tree),
      tokenize "shell" "[f('é')+(g(x), [1]// )" = .ok (tokens ++ [last]) ∧
      last.kind = .endOfInput ∧
      LastOpen tokens opened inner ∧ (leftOpen [] tokens).head? = some opened ∧
      opened.span.start = 9 ∧ "(" = opened.kind.symbol ∧
      opened.kind.partner? = some close ∧ ")" = close.symbol ∧
      Text.dropBytes? 9 "[f('é')+(g(x), [1]// )".toList = some ("(".toList ++ rest) ∧
      Text.dropBytes? 10 "[f('é')+(g(x), [1]// )".toList = some rest ∧
      parse "shell" (String.ofList rest) = .ok content := by
  have short : "[f('é')+(g(x), [1]// )".utf8ByteSize < 2 ^ 32 := by decide
  have refused : parse "shell" "[f('é')+(g(x), [1]// )" =
      .error ⟨.unclosed "(" ")", ⟨9, "shell"⟩⟩ := by
    cbv
  exact ⟨short, refused, unclosed_delimiter_true short refused⟩

end SignalScript
