import SignalScript.Proofs.Caret
import SignalScript.Proofs.Enclosure

namespace SignalScript

/-!
Faults of sources that may come from a file, with their places and their reports.

A fault carries the name of the file, or the name that stands for no file.  Its place is in the
source, and there is a line around that place.  The report ends with this line and a marker under
the fault as long as the marker can be written.  That is not so in every source.  A single long
name with a parenthesis behind it puts the fault beyond the greatest width of a marker.
-/

/-- The fault of a short source that cannot be read or is rejected has its place in that source and
is shown by a line of it, whether the source comes from a file or not.  The stream in which it has
its place is the token list where there is one. -/
theorem faults_located (file? : Option String) (source : String)
    (short : source.utf8ByteSize < 2 ^ 32) :
    (forall fault,
      tokenizeFrom file? source = .error fault ∨ parseFrom file? source = .error fault ->
      fault.Located (Scanner.nameOf file?) source ∧
        exists line lead shown trail dashes, fault.Shown source line lead shown trail dashes) ∧
    forall tokens, tokenizeFrom file? source = .ok tokens ->
      (Scanner.ofSource (Scanner.nameOf file?) source).stream = tokens := by
  constructor
  · rintro fault (broken | refused)
    · rcases stands_of_tokenize broken with ⟨_, _, stands⟩
      have located := stands.located short
      exact ⟨located, fault.exists_shown located.within (stands.not_indents short)⟩
    · rcases stands_of_parseWithin short refused with ⟨_, _, stands⟩
      have located := stands.located short
      exact ⟨located, fault.exists_shown located.within (stands.not_indents short)⟩
  · intro tokens listed
    exact (Scanner.stream_of_tokensAfter listed).symm

theorem faults_located_unclosed :
    "'é' + (1\n".utf8ByteSize < 2 ^ 32 ∧
    parseFrom none "'é' + (1\n" = .error ⟨.unclosed "(" ")", ⟨7, "shell"⟩⟩ ∧
    Fault.Located "shell" "'é' + (1\n" ⟨.unclosed "(" ")", ⟨7, "shell"⟩⟩ ∧
    (exists line lead shown trail dashes, Fault.Shown "'é' + (1\n"
      ⟨.unclosed "(" ")", ⟨7, "shell"⟩⟩ line lead shown trail dashes) ∧
    Fault.report? ⟨.unclosed "(" ")", ⟨7, "shell"⟩⟩ "'é' + (1\n" =
      some ("Error: UnclosedDelimiter (`(` opened here is never closed, expected `)`)\n" ++
        "-> shell\n  |\n1 | 'é' + (1\n  | -------^") ∧
    "// é\n\t§".utf8ByteSize < 2 ^ 32 ∧
    tokenizeFrom (some "wave") "// é\n\t§" = .error ⟨.unrecognised "§", ⟨7, "wave"⟩⟩ ∧
    Fault.Located "wave" "// é\n\t§" ⟨.unrecognised "§", ⟨7, "wave"⟩⟩ := by
  have short : "'é' + (1\n".utf8ByteSize < 2 ^ 32 := by decide
  have unclosed : parseFrom none "'é' + (1\n" = .error ⟨.unclosed "(" ")", ⟨7, "shell"⟩⟩ := by
    cbv
  have otherShort : "// é\n\t§".utf8ByteSize < 2 ^ 32 := by decide
  have refused : (Scanner.ofSource "wave" "// é\n\t§").next =
      .failed ⟨.unrecognised "§", ⟨7, "wave"⟩⟩ ⟨"wave", 7, ['§']⟩ := by
    cbv
  have broken : tokenizeFrom (some "wave") "// é\n\t§" =
      .error ⟨.unrecognised "§", ⟨7, "wave"⟩⟩ :=
    Parser.tokensAfter_of_failed [] refused
  rcases (faults_located none _ short).1 _ (Or.inr unclosed) with ⟨located, shown⟩
  exact ⟨short, unclosed, located, shown, by cbv, otherShort, broken,
    ((faults_located (some "wave") _ otherShort).1 _ (Or.inl broken)).1⟩

/-! ## A fault far to the right -/

/-- In the first line a fault beyond the greatest width is not reported, unless a space or a tab is
removed in front of the line. -/
theorem Fault.report?_of_wide {source : String} {fault : Fault}
    (within : fault.position.offset.toNat ≤ source.utf8ByteSize)
    (single : SourceLine.newline ∉
      (Text.bytes source.toList).take fault.position.offset.toNat)
    (solid : ¬ ((Text.bytes source.toList)[0]? = some 32 ∨ (Text.bytes source.toList)[0]? = some 9))
    (wide : Report.widest ≤ fault.position.offset.toNat) : fault.report? source = none := by
  have length : fault.position.offset.toNat ≤ (Text.bytes source.toList).length := by
    rw [Text.length_bytes, Text.size_toList]
    exact within
  have start := SourceLine.lineStart_of_single single length
  have visible : ¬ SourceLine.Indents (Text.bytes source.toList) fault.position.offset.toNat := by
    intro indents
    exact solid (indents 0 (Nat.le_of_eq start) (Nat.zero_le _))
  rcases fault.exists_shown within visible with ⟨line, lead, shown, trail, dashes, isShown⟩
  have lies := (SourceLine.liesIn_of_find? isShown.found).2
  have first := lies.getElem?_eq (Nat.le_of_eq start) (Nat.zero_le _)
  rw [start, Nat.sub_zero, isShown.trimmed.whole] at first
  have nothing : lead = [] := by
    cases lead with
    | nil => rfl
    | cons c rest =>
        refine absurd ?_ solid
        rcases isShown.trimmed.lead c List.mem_cons_self with rfl | rfl
        · exact Or.inl first.symm
        · exact Or.inr first.symm
  have column := isShown.column
  rw [start, nothing, Text.size_nil] at column
  exact isShown.refused (by omega)

/-- A name of some letters with a parenthesis behind it. -/
def closedName (letters : Nat) : String :=
  String.ofList (List.replicate letters 'a' ++ [')'])

theorem toList_closedName (letters : Nat) :
    (closedName letters).toList = List.replicate letters 'a' ++ [')'] :=
  String.toList_ofList

theorem size_letters (letters : Nat) : Text.size (List.replicate letters 'a') = letters := by
  rw [Text.size_eq_length, List.length_replicate]
  intro c member
  rw [(List.mem_replicate.mp member).2]
  decide

theorem utf8ByteSize_closedName (letters : Nat) :
    (closedName letters).utf8ByteSize = letters + 1 := by
  rw [← Text.size_toList, toList_closedName, Text.size_append, size_letters]
  rfl

theorem isWord_letters (letters : Nat) : Lexeme.IsWord (List.replicate (letters + 1) 'a') := by
  refine ⟨?_, 'a', List.replicate letters 'a', List.replicate_succ, by decide, ?_⟩
  · rw [List.replicate_succ]
    exact fun same => absurd (List.cons.inj same).1 (by decide)
  · intro c member
    rw [(List.mem_replicate.mp member).2]
    decide

/-- Behind the name the parenthesis has nothing to close. -/
theorem parse_closedName (file : String) (letters : Nat) :
    parse file (closedName (letters + 1)) =
      .error ⟨.unmatched ")", ⟨UInt32.ofNat (letters + 1), file⟩⟩ := by
  let first : Parser :=
    { scanner := ⟨file, 0 + Text.size (List.replicate (letters + 1) 'a'), [')']⟩
      ahead := ⟨.identifier, String.ofList (List.replicate (letters + 1) 'a'),
        Span.ofOffset 0 (Text.size (List.replicate (letters + 1) 'a'))⟩
      depth := 0 }
  let last : Parser :=
    { scanner := ⟨file, 0 + Text.size (List.replicate (letters + 1) 'a') + 1, []⟩
      ahead := ⟨.closeParen, ")",
        Span.ofOffset (0 + Text.size (List.replicate (letters + 1) 'a')) 1⟩
      depth := 0 }
  have ended : forall c, [')'].head? = some c -> Lexeme.continuesWord c = false := by
    rintro c ⟨⟩
    decide
  have opened : Parser.ofSource file (closedName (letters + 1)) = .ok first :=
    Parser.ofSource_eq_ok_iff.mpr
      ⟨rfl, Scanner.next_of_name (isWord_letters letters) ended (toList_closedName _)⟩
  have taken : first.advance = .done first.ahead last :=
    Parser.advance_eq_done_iff.mpr ⟨rfl, rfl,
      Scanner.next_of_delimiter (by rfl : Kind.closeParen.delimits = true) rfl⟩
  have trail : Parser.Trail first [first.ahead] last := .single nofun taken
  have reads := ((Parser.name_unfolds rfl).read_loosest (Spells.name first.ahead rfl) trail rfl
    rfl).enough (Parser.allows_some_iff.mpr (by decide : 0 + 1 ≤ Parser.nestingLimit))
  rw [parse, parseWithin_eq opened, reads, ← size_letters (letters + 1),
    ← Nat.zero_add (Text.size _)]
  rfl

/-- From the greatest width on, the fault of such a source is not reported. -/
theorem report?_closedName (file : String) {letters : Nat} (wide : Report.widest ≤ letters + 1)
    (short : letters + 1 < 2 ^ 32) :
    Fault.report? ⟨.unmatched ")", ⟨UInt32.ofNat (letters + 1), file⟩⟩
      (closedName (letters + 1)) = none := by
  have exact : (UInt32.ofNat (letters + 1)).toNat = letters + 1 := UInt32.toNat_ofNat_of_lt' short
  apply Fault.report?_of_wide
  · rw [exact, utf8ByteSize_closedName]
    exact Nat.le_succ _
  · intro member
    have newline := (SourceLine.newline_mem_bytes_iff _).mp (List.mem_of_mem_take member)
    rw [toList_closedName, List.mem_append, List.mem_replicate] at newline
    rcases newline with ⟨_, same⟩ | same
    · exact absurd same (by decide)
    · exact absurd same (by decide)
  · have head : (Text.bytes (closedName (letters + 1)).toList)[0]? = some 97 := by
      rw [toList_closedName, List.replicate_succ]
      rfl
    rw [head]
    decide
  · rw [exact]
    exact wide

/-- With 65535 letters in front of it the parenthesis has its place in the source, and yet there is
neither a line nor a marker. -/
theorem marker_too_wide :
    (closedName 65535).utf8ByteSize < 2 ^ 32 ∧
    parseFrom none (closedName 65535) = .error ⟨.unmatched ")", ⟨65535, "shell"⟩⟩ ∧
    Fault.report? ⟨.unmatched ")", ⟨65535, "shell"⟩⟩ (closedName 65535) = none := by
  refine ⟨?_, parse_closedName "shell" 65534,
    report?_closedName "shell" (by decide : Report.widest ≤ 65534 + 1) (by decide)⟩
  rw [utf8ByteSize_closedName]
  decide

end SignalScript
