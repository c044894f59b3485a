import SignalScript.Cursor
import SignalScript.Proofs.Lines
import SignalScript.Proofs.Location

namespace SignalScript

/-!
Places where a source cannot be read.

What can stand at such a place is known exactly.  It is a quotation mark without a partner, or a
character that is none of those with which a lexeme starts.  The fault says which of the two it
is, and a character is quoted whole, however many bytes it takes.

The text in front of the place is a source of its own.  It can be read to its end, because no
lexeme in front of the place depends on what stands there.  The reader itself does not move on:
asked again, it gives the same answer.
-/

namespace Lexeme

/-- The signs that are lexemes by themselves. -/
def signs : List Char :=
  ['[', ']', '(', ')', '+', '=', '.', ';', ':', '?', ',', '-', '/', '*']

/-- A character with which no lexeme starts.  The text behind it matters only for the first half
of the arrow. -/
structure Foreign (c : Char) (behind : List Char) : Prop where
  blank : Text.isBlank c = false
  alphanumeric : c.isAlphanum = false
  mark : c ∉ ['@', '#', '$', '_', '\'']
  sign : c ∉ signs
  arrow : ¬ (c = '<' ∧ behind.head? = some '-')

theorem number_pos_iff (c : Char) (rest : List Char) :
    0 < number.width (c :: rest) <-> c.isDigit = true := by
  cases digit : c.isDigit with
  | true => simp [width, run, digit]
  | false => simp [width, run, digit]

theorem word_pos_iff (c : Char) (rest : List Char) :
    0 < word.width (c :: rest) <-> startsWord c = true := by
  cases starts : startsWord c with
  | true => simp [width, starts]
  | false => simp [width, starts]

/-- A quotation mark has a partner if there is another one behind it. -/
theorem string_pos_iff (c : Char) (rest : List Char) :
    0 < string.width (c :: rest) <-> c = '\'' ∧ '\'' ∈ rest := by
  constructor
  · intro positive
    rcases string_width_eq positive with ⟨contents, same, ended, _⟩
    cases same
    refine ⟨rfl, ?_⟩
    by_contra alone
    have whole : rest.takeWhile (· != '\'') = rest := by
      rw [List.takeWhile_eq_self_iff]
      intro d member
      rw [bne_iff_ne]
      rintro rfl
      exact alone member
    rw [run, whole] at ended
    exact absurd ended (Nat.lt_irrefl _)
  · rintro ⟨rfl, partner⟩
    rcases List.append_of_mem partner with ⟨front, back, rfl⟩
    have least : run (· != '\'') (front ++ '\'' :: back) ≤ front.length := by
      have short := run_le_length (· != '\'') front
      rw [run_append]
      split
      · simp [run]
      · exact short
    have ended : run (· != '\'') (front ++ '\'' :: back) < (front ++ '\'' :: back).length := by
      rw [List.length_append, List.length_cons]
      omega
    simp only [width]
    rw [if_pos ended]
    exact Nat.succ_pos _

theorem fixed_pos_iff (kind : Kind) (text : List Char) :
    0 < (fixed kind).width text <-> kind.symbol.toList <+: text := by
  have spelled : 0 < kind.symbol.toList.length := by cases kind <;> decide
  rw [← List.isPrefixOf_iff_prefix]
  by_cases starts : kind.symbol.toList.isPrefixOf text = true
  · simp [width, starts, spelled]
  · simp [width, starts]

/-- A fixed lexeme starts with a sign of its own, except for the arrow. -/
theorem spelling_of_mem_order : forall {kind : Kind}, fixed kind ∈ order ->
    kind = .leftArrow ∨ exists sign more, sign ∈ signs ∧ kind.symbol.toList = sign :: more := by
  intro kind listed
  cases kind with
  | leftArrow => exact Or.inl rfl
  | plusAssign => exact Or.inr ⟨'+', ['='], by decide, rfl⟩
  | _ => first | exact absurd listed (by decide) | exact Or.inr ⟨_, [], by decide, rfl⟩

/-- Every sign is the whole spelling of a fixed lexeme. -/
theorem exists_kind_of_sign {sign : Char} (listed : sign ∈ signs) :
    exists kind, fixed kind ∈ order ∧ kind.symbol.toList = [sign] := by
  simp only [signs, List.mem_cons, List.not_mem_nil, or_false] at listed
  rcases listed with rfl | rfl | rfl | rfl | rfl | rfl | rfl | rfl | rfl | rfl | rfl | rfl | rfl |
    rfl
  exacts [⟨.openBracket, by decide, rfl⟩, ⟨.closeBracket, by decide, rfl⟩,
    ⟨.openParen, by decide, rfl⟩, ⟨.closeParen, by decide, rfl⟩, ⟨.plus, by decide, rfl⟩,
    ⟨.assign, by decide, rfl⟩, ⟨.dot, by decide, rfl⟩, ⟨.semicolon, by decide, rfl⟩,
    ⟨.colon, by decide, rfl⟩, ⟨.question, by decide, rfl⟩, ⟨.comma, by decide, rfl⟩,
    ⟨.dash, by decide, rfl⟩, ⟨.slash, by decide, rfl⟩, ⟨.star, by decide, rfl⟩]

/-- A character that starts no lexeme is none of those that a lexeme can start with. -/
theorem not_pos_of_foreign {c : Char} {behind : List Char} (foreign : Foreign c behind)
    {lexeme : Lexeme} (listed : lexeme ∈ order) : ¬ 0 < lexeme.width (c :: behind) := by
  intro positive
  cases lexeme with
  | blanks =>
      rw [blanks_pos_iff, foreign.blank] at positive
      cases positive
  | comment =>
      rcases comment_width_eq positive with ⟨rest, same, _⟩
      cases same
      exact foreign.sign (by decide)
  | word =>
      have letter := foreign.alphanumeric
      have mark := foreign.mark
      rw [word_pos_iff, startsWord, Bool.or_eq_true] at positive
      rcases positive with alpha | isMark
      · rw [Char.isAlphanum, alpha] at letter
        cases letter
      · simp only [Lexeme.isMark, Bool.or_eq_true, beq_iff_eq] at isMark
        simp only [List.mem_cons, not_or] at mark
        tauto
  | number =>
      have letter := foreign.alphanumeric
      rw [number_pos_iff] at positive
      rw [Char.isAlphanum, positive, Bool.or_true] at letter
      cases letter
  | string =>
      rcases (string_pos_iff c behind).mp positive with ⟨rfl, _⟩
      exact foreign.mark (by decide)
  | fixed kind =>
      have spelled := (fixed_pos_iff kind _).mp positive
      rcases spelling_of_mem_order listed with rfl | ⟨sign, more, isSign, spelling⟩
      · rcases spelled with ⟨later, same⟩
        cases same
        exact foreign.arrow ⟨rfl, rfl⟩
      · rw [spelling] at spelled
        rcases List.cons_prefix_cons.mp spelled with ⟨rfl, _⟩
        exact foreign.sign isSign

/-- What can stand where no lexeme starts. -/
theorem first?_eq_none_iff (c : Char) (behind : List Char) :
    first? (c :: behind) = none <-> c = '\'' ∧ '\'' ∉ behind ∨ Foreign c behind := by
  rw [first?, List.find?_eq_none]
  simp only [decide_eq_true_eq]
  constructor
  · intro absent
    by_cases mark : c = '\''
    · exact Or.inl ⟨mark, fun partner => absent .string (by decide)
        ((string_pos_iff c behind).mpr ⟨mark, partner⟩)⟩
    · have noBlank := mt (blanks_pos_iff c behind).mpr (absent .blanks (by decide))
      have noWord := mt (word_pos_iff c behind).mpr (absent .word (by decide))
      have noDigit := mt (number_pos_iff c behind).mpr (absent .number (by decide))
      simp only [startsWord, isMark, Bool.or_eq_true, beq_iff_eq, not_or] at noWord
      rw [Bool.not_eq_true] at noBlank noDigit noWord
      refine Or.inr ⟨noBlank, ?_, ?_, ?_, ?_⟩
      · rw [Char.isAlphanum, noWord.1, noDigit]
        rfl
      · simp only [List.mem_cons, List.not_mem_nil, or_false, not_or]
        tauto
      · intro isSign
        rcases exists_kind_of_sign isSign with ⟨kind, listed, spelling⟩
        refine absent _ listed ((fixed_pos_iff kind _).mpr ?_)
        rw [spelling]
        exact List.cons_prefix_cons.mpr ⟨rfl, List.nil_prefix⟩
      · rintro ⟨rfl, dash⟩
        rcases List.head?_eq_some_iff.mp dash with ⟨later, rfl⟩
        exact absent (.fixed .leftArrow) (by decide) ((fixed_pos_iff _ _).mpr ⟨later, rfl⟩)
  · rintro (⟨rfl, alone⟩ | foreign) lexeme listed positive
    · cases eq_string_of_mark positive
      exact alone ((string_pos_iff _ _).mp positive).2
    · exact not_pos_of_foreign foreign listed positive

end Lexeme

/-- The reading of a source fails where its front ends and this character stands. -/
structure Fault.Blocks (file source : String) (front : List Char) (c : Char)
    (behind : List Char) (fault : Fault) : Prop where
  whole : source.toList = front ++ c :: behind
  named : fault.position.file = file
  placed : fault.position.offset.toNat = Text.size front
  /-- A quotation mark has no partner, and any other character is quoted. -/
  reason : fault.cause = .unterminatedText ∧ c = '\'' ∧ '\'' ∉ behind ∨
    fault.cause = .unrecognised (String.singleton c) ∧ Lexeme.Foreign c behind
  /-- The front has a token list.  Behind the last of its tokens the scanner passes nothing but
  blanks and comments before it fails. -/
  readable : exists tokens scanner,
    tokenize file (String.ofList front) = .ok (tokens ++ [Token.endOfInput (Text.size front)]) ∧
    (Scanner.ofSource file source).Scans tokens scanner ∧
    scanner.next = .failed fault ⟨file, Text.size front, c :: behind⟩ ∧
    scanner.Clears ⟨file, Text.size front, c :: behind⟩
  /-- The scanner stays where it has failed, and fails again. -/
  stays : (Scanner.mk file (Text.size front) (c :: behind)).next =
    .failed fault ⟨file, Text.size front, c :: behind⟩
  /-- So does a cursor that stands there. -/
  holds : (Cursor.mk file source.toList (UInt64.ofNat (Text.size front))).next? =
    some (.failed fault ⟨file, source.toList, UInt64.ofNat (Text.size front)⟩)

/-- Between two characters a cursor reads what a scanner reads there. -/
theorem Cursor.next?_of_split {cursor : Cursor} {front rest : List Char}
    (whole : cursor.source = front ++ rest) (offset : cursor.offset.toNat = Text.size front)
    (more : rest ≠ []) :
    cursor.next? = some (match (Scanner.mk cursor.file (Text.size front) rest).next with
      | .done token scanner => .done token (cursor.follow scanner)
      | .failed fault scanner => .failed fault (cursor.follow scanner)) := by
  have unread : cursor.rest? = some rest := by
    rw [rest?, whole, offset]
    exact Text.dropBytes?_size_append front rest
  have goesOn : cursor.atEnd = false := by
    have something := Text.size_pos more
    rw [atEnd, whole, offset, Text.size_append, decide_eq_false_iff_not]
    omega
  rw [next?, goesOn, if_neg Bool.false_ne_true, unread, offset]
  rfl

/-- The text in front of a failure can be read to its end, with the same tokens. -/
theorem Scanner.tokenize_of_stop {file source : String} {front : List Char}
    {tokens : List Token} {scanner stopped : Scanner} {fault : Fault}
    (scans : (ofSource file source).Scans tokens scanner)
    (failed : scanner.next = .failed fault stopped)
    (passed : Passes (ofSource file source) front stopped) :
    tokenize file (String.ofList front) =
      .ok (tokens ++ [Token.endOfInput stopped.offset]) := by
  have whole : ofSource file source =
      (ofSource file (String.ofList front)).followedBy stopped.rest := by
    rw [followedBy, ofSource, ofSource, String.toList_ofList, ← passed.rest]
    rfl
  have longer : stopped.rest.length ≤ scanner.rest.length := by
    rcases (clears_of_failed failed).1 with ⟨gap, cleared, _⟩
    rw [cleared.rest, List.length_append]
    exact Nat.le_add_left _ _
  rw [whole] at scans
  rcases scans.of_followedBy longer with ⟨short, shortScans, same⟩
  rcases next_of_cut_failed same failed rfl with ⟨ended, readEnd, sameEnd⟩
  refine tokenize_eq_ok_iff_scans.mpr ⟨short, ended, shortScans, ?_, rfl⟩
  rw [readEnd, sameEnd]
  rfl

/-- Where the reading of a short source fails, nothing can be read, and in front of that place
everything can. -/
theorem lexical_failure_exact {file source : String} {fault : Fault}
    (short : source.utf8ByteSize < 2 ^ 32) (broken : tokenize file source = .error fault) :
    exists front c behind, fault.Blocks file source front c behind := by
  rcases tokenize_eq_error_iff_scans.mp broken with ⟨tokens, scanner, stopped, scans, failed⟩
  rcases Scanner.clears_of_failed failed with ⟨cleared, c, behind, unread, absent, rfl⟩
  rcases scans.passes with ⟨text, reached⟩
  rcases cleared.passes with ⟨gap, passedGap⟩
  have passed := reached.append passedGap
  have listed := Scanner.tokenize_of_stop scans failed passed
  have stays := Scanner.next_of_failed failed
  have offset : stopped.offset = Text.size (text ++ gap) := by
    rw [passed.offset]
    exact Nat.zero_add _
  have place : stopped = ⟨file, Text.size (text ++ gap), c :: behind⟩ := by
    rw [← offset, ← unread, ← show stopped.file = file from passed.file]
  rcases passed.dropBytes? short with ⟨exact, within, _⟩
  subst place
  have whole : source.toList = (text ++ gap) ++ c :: behind := passed.rest
  have room : (UInt64.ofNat (Text.size (text ++ gap))).toNat = Text.size (text ++ gap) :=
    UInt64.toNat_ofNat_of_lt' (Nat.lt_of_le_of_lt within (Nat.lt_trans short (by decide)))
  refine ⟨text ++ gap, c, behind, whole, rfl, exact, ?_, ⟨tokens, scanner, listed, scans, failed,
    cleared⟩, stays, ?_⟩
  · rcases (Lexeme.first?_eq_none_iff c behind).mp absent with ⟨rfl, alone⟩ | foreign
    · exact Or.inl ⟨rfl, rfl, alone⟩
    · refine Or.inr ⟨if_neg ?_, foreign⟩
      rintro rfl
      exact foreign.mark (by decide)
  · rw [Cursor.next?_of_split whole room (List.cons_ne_nil _ _), stays]
    rfl

/-- A quotation mark in a comment does not count, and neither does a comment in a string. -/
theorem lexical_failure_exact_comment :
    "a // it's\n§b".utf8ByteSize < 2 ^ 32 ∧
    tokenize "shell" "a // it's\n§b" = .error ⟨.unrecognised "§", ⟨10, "shell"⟩⟩ ∧
    (exists front c behind, Fault.Blocks "shell" "a // it's\n§b" front c behind
      ⟨.unrecognised "§", ⟨10, "shell"⟩⟩) ∧
    "'//' 'é".utf8ByteSize < 2 ^ 32 ∧
    tokenize "wave" "'//' 'é" = .error ⟨.unterminatedText, ⟨5, "wave"⟩⟩ ∧
    exists front c behind, Fault.Blocks "wave" "'//' 'é" front c behind
      ⟨.unterminatedText, ⟨5, "wave"⟩⟩ := by
  have short : "a // it's\n§b".utf8ByteSize < 2 ^ 32 := by decide
  have name : (Scanner.ofSource "shell" "a // it's\n§b").next =
      .done ⟨.identifier, "a", ⟨0, 1⟩⟩ ⟨"shell", 1, " // it's\n§b".toList⟩ := by
    cbv
  have broken : tokenize "shell" "a // it's\n§b" = .error ⟨.unrecognised "§", ⟨10, "shell"⟩⟩ :=
    tokenize_eq_error_iff_scans.mpr ⟨_, _, ⟨"shell", 10, ['§', 'b']⟩,
      .onward name (by decide) (.stay _), by cbv⟩
  have otherShort : "'//' 'é".utf8ByteSize < 2 ^ 32 := by decide
  have text : (Scanner.ofSource "wave" "'//' 'é").next =
      .done ⟨.string, "//", ⟨0, 4⟩⟩ ⟨"wave", 4, [' ', '\'', 'é']⟩ := by
    cbv
  have otherBroken : tokenize "wave" "'//' 'é" = .error ⟨.unterminatedText, ⟨5, "wave"⟩⟩ :=
    tokenize_eq_error_iff_scans.mpr ⟨_, _, ⟨"wave", 5, ['\'', 'é']⟩,
      .onward text (by decide) (.stay _), by cbv⟩
  exact ⟨short, broken, lexical_failure_exact short broken, otherShort, otherBroken,
    lexical_failure_exact otherShort otherBroken⟩

end SignalScript
