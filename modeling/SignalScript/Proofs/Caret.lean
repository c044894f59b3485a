import SignalScript.Proofs.LineLookup
import SignalScript.Proofs.Lines
import SignalScript.Proofs.Location
import SignalScript.Report

namespace SignalScript

/-!
Where the marker of a report points.

The last two rows of a report are a line of the source and a marker under it.  The line has lost
its blanks at both ends, and the two ends do not agree on what a blank is: in front only spaces
and tabs are removed, and behind every white-space character.  Only what is removed in front moves
the line, and all of it takes one byte a character.  So the marker is moved by as many places as
bytes are removed.

The marker cannot stand further left than the line, so it only points at an offset that is not
itself among the spaces and tabs in front.  The fault of a rejected source never is.

The marker has a greatest width, and a report whose marker exceeds it is not written at all.  How
wide a marker is depends on the column alone, counted behind what is removed in front.
-/

namespace Text

/-- The characters that take one byte each can be counted. -/
theorem size_eq_length {text : List Char} (ascii : forall c, c ∈ text -> c.toNat < 128) :
    size text = text.length := by
  induction text with
  | nil => rfl
  | cons c text inductionHypothesis =>
      have single : c.utf8Size = 1 :=
        Char.utf8Size_eq_one_iff.mpr (Nat.le_of_lt_succ (ascii c List.mem_cons_self))
      rw [size_cons, single, List.length_cons,
        inductionHypothesis fun d member => ascii d (List.mem_cons_of_mem c member), Nat.add_comm]

/-- The digits of a number. -/
theorem isDigit_of_mem_toString {n : Nat} {c : Char} (member : c ∈ (toString n).toList) :
    c.isDigit = true := by
  have digits : (toString n).toList = Nat.toDigits 10 n := by
    change (Nat.repr n).toList = _
    rw [Nat.repr_eq_ofList_toDigits, String.toList_ofList]
  rw [digits] at member
  exact Nat.isDigit_of_mem_toDigits (by decide) (by decide) member

theorem toNat_lt_of_isDigit {c : Char} (digit : c.isDigit = true) : c.toNat < 128 := by
  have bounds := Char.isDigit_iff_toNat.mp digit
  exact Nat.lt_of_le_of_lt bounds.2 (by decide)

end Text

namespace SourceLine

/-- Up to an offset, and at the offset itself, there are only spaces and tabs in its line. -/
def Indents (source : List UInt8) (offset : Nat) : Prop :=
  forall place, lineStart source offset ≤ place -> place ≤ offset ->
    source[place]? = some 32 ∨ source[place]? = some 9

/-- Up to the offset, the bytes of a line are those of the source. -/
theorem LiesIn.getElem?_eq {first offset place : Nat} {source : List UInt8} {line : SourceLine}
    (lies : LiesIn first source offset line) (start : lineStart source offset ≤ place)
    (upTo : place ≤ offset) :
    (Text.bytes line.text)[place - lineStart source offset]? = source[place]? := by
  rw [lies.text, List.getElem?_drop, Nat.add_sub_cancel' start, List.getElem?_take]
  split
  next => rfl
  next beyond =>
    rw [lineStop] at beyond
    exact (List.getElem?_eq_none (by omega)).symm

end SourceLine

namespace Report

/-! ## Lines without the blanks at their ends -/

/-- A text is taken apart into what is removed in front, what is shown, and what is removed
behind.  Nothing else at either end could be removed. -/
structure Trimmed (text lead shown trail : List Char) : Prop where
  whole : text = lead ++ (shown ++ trail)
  lead : forall c, c ∈ lead -> c = ' ' ∨ c = '\t'
  leadEnds : forall c, (shown ++ trail).head? = some c -> ¬ (c = ' ' ∨ c = '\t')
  trail : forall c, c ∈ trail -> Text.isBlank c = true
  trailStarts : forall c, shown.getLast? = some c -> Text.isBlank c = false

theorem isIndentation_iff (c : Char) : isIndentation c = true <-> c = ' ' ∨ c = '\t' := by
  rw [isIndentation, Bool.or_eq_true, beq_iff_eq, beq_iff_eq]

theorem trimmed_excerpt (text : List Char) :
    exists trail, Trimmed text (text.takeWhile isIndentation)
      (Text.trimEnd (text.dropWhile isIndentation)) trail := by
  have parts : Text.trimEnd (text.dropWhile isIndentation) ++
      (text.dropWhile isIndentation).rtakeWhile Text.isBlank = text.dropWhile isIndentation :=
    List.rdropWhile_append_rtakeWhile
  refine ⟨(text.dropWhile isIndentation).rtakeWhile Text.isBlank, ?_, ?_, ?_, ?_, ?_⟩
  · rw [parts, List.takeWhile_append_dropWhile]
  · intro c member
    exact (isIndentation_iff c).mp (Lexeme.of_mem_takeWhile member)
  · intro c first
    rw [parts] at first
    rw [← isIndentation_iff, Lexeme.of_head?_dropWhile first]
    exact Bool.false_ne_true
  · intro c member
    exact List.mem_rtakeWhile_imp member
  · intro c last
    rw [Text.trimEnd, List.getLast?_reverse] at last
    exact Lexeme.of_head?_dropWhile last

section
variable {text lead shown trail : List Char} {first offset : Nat} {source : List UInt8}
  {line : SourceLine}

theorem Trimmed.size_lead (trimmed : Trimmed text lead shown trail) :
    Text.size lead = lead.length := by
  refine Text.size_eq_length ?_
  intro c member
  rcases trimmed.lead c member with rfl | rfl <;> decide

theorem Trimmed.of_mem_bytes {byte : UInt8} (trimmed : Trimmed text lead shown trail)
    (member : byte ∈ Text.bytes lead) : byte = 32 ∨ byte = 9 := by
  rw [Text.bytes, List.mem_flatMap] at member
  rcases member with ⟨c, listed, encoded⟩
  rcases trimmed.lead c listed with rfl | rfl
  · exact Or.inl (List.mem_singleton.mp encoded)
  · exact Or.inr (List.mem_singleton.mp encoded)

/-- What is shown of a line has lost its newline. -/
theorem Trimmed.newline_not_mem (trimmed : Trimmed text lead shown trail)
    (single : '\n' ∉ text.dropLast) : '\n' ∉ shown := by
  rcases List.eq_nil_or_concat shown with rfl | ⟨front, last, rfl⟩
  · exact List.not_mem_nil
  · have kept := trimmed.trailStarts last (by rw [List.concat_eq_append, List.getLast?_concat])
    rw [List.concat_eq_append, List.mem_append, List.mem_singleton]
    rintro (member | rfl)
    · rw [trimmed.whole, List.concat_eq_append, List.append_assoc, ← List.append_assoc,
        List.dropLast_append_of_ne_nil (by simp)] at single
      exact single (List.mem_append_left _ (List.mem_append_right _ member))
    · exact absurd kept (by decide)

/-- An offset that is not among the spaces and tabs in front of its line is behind all of them. -/
theorem Trimmed.behindLead (trimmed : Trimmed line.text lead shown trail)
    (lies : line.LiesIn first source offset) (visible : ¬ SourceLine.Indents source offset) :
    SourceLine.lineStart source offset + Text.size lead ≤ offset := by
  by_contra within
  refine visible ?_
  intro place start upTo
  have inside : place - SourceLine.lineStart source offset < (Text.bytes lead).length := by
    rw [Text.length_bytes]
    omega
  rw [← lies.getElem?_eq start upTo, trimmed.whole, Text.bytes_append,
    List.getElem?_append_left inside, List.getElem?_eq_getElem inside]
  rcases trimmed.of_mem_bytes (List.getElem_mem inside) with same | same
  · exact Or.inl (congrArg some same)
  · exact Or.inr (congrArg some same)

/-- Behind what was removed in front, a line goes on as the source does. -/
theorem Trimmed.getElem?_eq (trimmed : Trimmed line.text lead shown trail)
    (lies : line.LiesIn first source offset)
    (behind : SourceLine.lineStart source offset + Text.size lead ≤ offset) :
    (Text.bytes (shown ++ trail))[
      offset - (SourceLine.lineStart source offset + Text.size lead)]? = source[offset]? := by
  have beyond : (Text.bytes lead).length ≤ offset - SourceLine.lineStart source offset := by
    rw [Text.length_bytes]
    omega
  rw [← lies.getElem?_eq SourceLine.lineStart_le (Nat.le_refl _), trimmed.whole,
    Text.bytes_append lead, List.getElem?_append_right beyond, Text.length_bytes, Nat.sub_sub]

end

/-! ## The last two rows -/

/-- What stands in front of a line that is shown. -/
def label (number : Nat) : List Char :=
  (toString number).toList ++ [' ', '|', ' ']

/-- What stands in front of the tip of a marker. -/
def shaft (number dashes : Nat) : List Char :=
  List.replicate ((toString number).length + 1) ' ' ++ '|' :: ' ' :: List.replicate dashes '-'

theorem size_label (number : Nat) : Text.size (label number) = (toString number).length + 3 := by
  rw [Text.size_eq_length, label, List.length_append, String.length_toList]
  · rfl
  · intro c member
    rw [label, List.mem_append] at member
    rcases member with digit | mark
    · exact Text.toNat_lt_of_isDigit (Text.isDigit_of_mem_toString digit)
    · simp only [List.mem_cons, List.not_mem_nil, or_false] at mark
      rcases mark with rfl | rfl | rfl <;> decide

theorem of_mem_shaft {number dashes : Nat} {c : Char} (member : c ∈ shaft number dashes) :
    c = ' ' ∨ c = '|' ∨ c = '-' := by
  simp only [shaft, List.mem_append, List.mem_cons, List.mem_replicate] at member
  tauto

theorem size_shaft (number dashes : Nat) :
    Text.size (shaft number dashes) = (toString number).length + 3 + dashes := by
  rw [Text.size_eq_length, shaft, List.length_append, List.length_cons, List.length_cons,
    List.length_replicate, List.length_replicate]
  · omega
  · intro c member
    rcases of_mem_shaft member with rfl | rfl | rfl <;> decide

/-- Each of the two rows is a single line. -/
theorem Trimmed.newline_not_mem_row {text lead shown trail : List Char} (number : Nat)
    (trimmed : Trimmed text lead shown trail) (single : '\n' ∉ text.dropLast) :
    '\n' ∉ label number ++ shown := by
  rw [label, List.mem_append, List.mem_append]
  rintro ((digit | mark) | member)
  · exact absurd (Text.isDigit_of_mem_toString digit) (by decide)
  · exact absurd mark (by decide)
  · exact trimmed.newline_not_mem single member

theorem newline_not_mem_marker (number dashes : Nat) : '\n' ∉ shaft number dashes ++ ['^'] := by
  rw [List.mem_append]
  rintro (member | tip)
  · exact absurd (of_mem_shaft member) (by decide)
  · exact absurd tip (by decide)

/-- The last two rows of a report are a line of the source, without the blanks at its ends, and a
marker under the byte at an offset. -/
structure PointsAt (source : List Char) (offset : Nat) (report : String) (line : SourceLine)
    (lead shown trail : List Char) (dashes : Nat) : Prop where
  lies : line.LiesIn 1 (Text.bytes source) offset
  trimmed : Trimmed line.text lead shown trail
  rows : exists top, report = top ++ "\n" ++ String.ofList (label line.number ++ shown) ++ "\n" ++
    String.ofList (shaft line.number dashes ++ ['^'])
  single : '\n' ∉ label line.number ++ shown ∧ '\n' ∉ shaft line.number dashes ++ ['^']
  behindLead : SourceLine.lineStart (Text.bytes source) offset + Text.size lead ≤ offset
  /-- The tip of the marker is as far behind the label as the offset is behind what was removed
  in front of the line. -/
  place : Text.size (shaft line.number dashes) = Text.size (label line.number) +
    (offset - (SourceLine.lineStart (Text.bytes source) offset + Text.size lead))
  /-- The byte above the tip is the byte at the offset.  There the row counts with the blanks
  that were removed behind it, and both bytes are missing at the end of the source. -/
  printed : (Text.bytes (label line.number ++ (shown ++ trail)))[
    Text.size (shaft line.number dashes)]? = (Text.bytes source)[offset]?

/-- The rows that an excerpt ends with, from their parts.  There are none behind too many
dashes. -/
theorem excerpt?_eq (line : SourceLine) :
    excerpt? line =
      if line.column - (line.text.takeWhile isIndentation).length < widest then
        some (gutter (toString line.number) ++ "\n" ++
          String.ofList (label line.number ++ Text.trimEnd (line.text.dropWhile isIndentation)) ++
          "\n" ++ String.ofList (shaft line.number
            (line.column - (line.text.takeWhile isIndentation).length) ++ ['^']))
      else none := by
  unfold excerpt? marker?
  simp only [Nat.succ_le_iff]
  split
  · rw [Option.map_some, Option.some_inj, ← String.toList_inj]
    simp [gutter, label, shaft]
  · rfl

end Report

/-- A fault is shown by a line of its source.  The report has this line and a marker under the
byte of the fault, unless the marker would be too wide.  Then there is no report. -/
structure Fault.Shown (source : String) (fault : Fault) (line : SourceLine)
    (lead shown trail : List Char) (dashes : Nat) : Prop where
  found : SourceLine.find? source.toList fault.position.offset.toNat = some line
  trimmed : Report.Trimmed line.text lead shown trail
  /-- The dashes reach from what was removed in front of the line to the fault. -/
  column : SourceLine.lineStart (Text.bytes source.toList) fault.position.offset.toNat +
    Text.size lead + dashes = fault.position.offset.toNat
  written : dashes < Report.widest -> exists output, fault.report? source = some output ∧
    Report.PointsAt source.toList fault.position.offset.toNat output line lead shown trail dashes
  refused : Report.widest ≤ dashes -> fault.report? source = none

/-- Any fault is shown that is not among the spaces and tabs in front of its line. -/
theorem Fault.exists_shown {source : String} {fault : Fault}
    (within : fault.position.offset.toNat ≤ source.utf8ByteSize)
    (visible : ¬ SourceLine.Indents (Text.bytes source.toList) fault.position.offset.toNat) :
    exists line lead shown trail dashes, fault.Shown source line lead shown trail dashes := by
  rw [← Text.size_toList] at within
  rcases SourceLine.exists_find? within with ⟨line, found⟩
  have lies := (SourceLine.liesIn_of_find? found).2
  rcases Report.trimmed_excerpt line.text with ⟨trail, trimmed⟩
  have behind := trimmed.behindLead lies visible
  have dashes : line.column - (line.text.takeWhile Report.isIndentation).length =
      fault.position.offset.toNat -
        (SourceLine.lineStart (Text.bytes source.toList) fault.position.offset.toNat +
          Text.size (line.text.takeWhile Report.isIndentation)) := by
    rw [lies.column, trimmed.size_lead, Nat.sub_sub]
  have place : Text.size (Report.shaft line.number
      (line.column - (line.text.takeWhile Report.isIndentation).length)) =
      Text.size (Report.label line.number) + (fault.position.offset.toNat -
        (SourceLine.lineStart (Text.bytes source.toList) fault.position.offset.toNat +
          Text.size (line.text.takeWhile Report.isIndentation))) := by
    rw [Report.size_shaft, Report.size_label, dashes]
  refine ⟨line, _, _, trail,
    line.column - (line.text.takeWhile Report.isIndentation).length, found, trimmed, ?_, ?_, ?_⟩
  · rw [dashes]
    exact Nat.add_sub_cancel' behind
  · intro narrow
    refine ⟨_, ?_, lies, trimmed, ⟨Report.heading fault.cause ++ "-> " ++ fault.position.file ++
      "\n" ++ Report.gutter (toString line.number), rfl⟩,
      ⟨trimmed.newline_not_mem_row _ (SourceLine.single_of_find? found),
        Report.newline_not_mem_marker _ _⟩, behind, place, ?_⟩
    · rw [Fault.report?, found]
      simp only [Report.excerpt?_eq, if_pos narrow, Option.map_some, String.append_assoc]
    · have beyond (extra : Nat) : (Text.bytes (Report.label line.number)).length ≤
          Text.size (Report.label line.number) + extra := by
        rw [Text.length_bytes]
        exact Nat.le_add_right _ _
      rw [place, Text.bytes_append, List.getElem?_append_right (beyond _), Text.length_bytes,
        Nat.add_sub_cancel_left, trimmed.getElem?_eq lies behind]
  · intro wide
    rw [Fault.report?, found]
    simp only [Report.excerpt?_eq, if_neg (Nat.not_lt.mpr wide), Option.map_none]

/-- No fault of a rejected source stands among the spaces and tabs in front of its line. -/
theorem Fault.StandsAt.not_indents {file source : String} {fault : Fault} {text : List Char}
    {scanner : Scanner} (stands : fault.StandsAt file source text scanner)
    (short : source.utf8ByteSize < 2 ^ 32) :
    ¬ SourceLine.Indents (Text.bytes source.toList) fault.position.offset.toNat := by
  have whole : source.toList = text ++ scanner.rest := stands.passed.rest
  have offset : fault.position.offset.toNat = Text.size text := by
    rw [stands.offset_eq short, stands.passed.offset]
    exact Nat.zero_add _
  intro indents
  have blank := indents _ SourceLine.lineStart_le (Nat.le_refl _)
  rw [offset, whole, Text.bytes_append, List.getElem?_append_right (by rw [Text.length_bytes]),
    Text.length_bytes, Nat.sub_self] at blank
  cases unread : scanner.rest with
  | nil =>
      rw [unread] at blank
      rcases blank with same | same <;> cases same
  | cons c later =>
      have something : 0 < (String.utf8EncodeChar c).length := by
        rw [String.length_utf8EncodeChar]
        exact c.utf8Size_pos
      rw [unread, Text.bytes_cons, List.getElem?_append_left something] at blank
      have ascii : c.toNat = 32 ∨ c.toNat = 9 := by
        rcases blank with same | same
        · exact Or.inl ((Text.mem_utf8EncodeChar_iff c (by decide)).mp (List.mem_of_getElem? same))
        · exact Or.inr ((Text.mem_utf8EncodeChar_iff c (by decide)).mp (List.mem_of_getElem? same))
      have isBlank : Text.isBlank c = true := by
        rw [← Char.ofNat_toNat c]
        rcases ascii with same | same
        · rw [same]
          decide
        · rw [same]
          decide
      have notBlank := stands.notBlank
      rw [unread] at notBlank
      exact notBlank (Lexeme.first?_of_blank later isBlank)

/-- The marker of a report points at the byte of the fault, unless the fault stands among the
spaces and tabs in front of its line.  The faults of rejected sources never stand there.  A
report is written wherever the column is less than the greatest width. -/
theorem report_pointsAt (source : String) :
    (forall fault : Fault, fault.position.offset.toNat ≤ source.utf8ByteSize ->
      ¬ SourceLine.Indents (Text.bytes source.toList) fault.position.offset.toNat ->
      (fault.position.offset.toNat -
          SourceLine.lineStart (Text.bytes source.toList) fault.position.offset.toNat <
            Report.widest ->
        exists output, fault.report? source = some output) ∧
      exists line lead shown trail dashes, forall output, fault.report? source = some output ->
        Report.PointsAt source.toList fault.position.offset.toNat output line
          lead shown trail dashes) ∧
    (source.utf8ByteSize < 2 ^ 32 -> forall file fault,
      tokenize file source = .error fault ∨ parse file source = .error fault ->
      fault.position.offset.toNat ≤ source.utf8ByteSize ∧
        ¬ SourceLine.Indents (Text.bytes source.toList) fault.position.offset.toNat) := by
  constructor
  · intro fault within visible
    rcases fault.exists_shown within visible with ⟨line, lead, shown, trail, dashes, isShown⟩
    have column := isShown.column
    constructor
    · intro narrow
      rcases isShown.written (by omega) with ⟨output, written, _⟩
      exact ⟨output, written⟩
    · refine ⟨line, lead, shown, trail, dashes, ?_⟩
      intro output printed
      by_cases narrow : dashes < Report.widest
      · rcases isShown.written narrow with ⟨other, written, points⟩
        cases printed.symm.trans written
        exact points
      · cases printed.symm.trans (isShown.refused (Nat.not_lt.mp narrow))
  · rintro short file fault (broken | refused)
    · rcases stands_of_tokenize broken with ⟨text, scanner, stands⟩
      exact ⟨(stands.located short).within, stands.not_indents short⟩
    · rcases stands_of_parseWithin short refused with ⟨text, scanner, stands⟩
      exact ⟨(stands.located short).within, stands.not_indents short⟩

theorem report_pointsAt_text :
    "a;\n\t'é' + % \n".utf8ByteSize < 2 ^ 32 ∧
    parse "shell" "a;\n\t'é' + % \n" = .error ⟨.unrecognised "%", ⟨11, "shell"⟩⟩ ∧
    ¬ SourceLine.Indents (Text.bytes "a;\n\t'é' + % \n".toList) 11 ∧
    11 - SourceLine.lineStart (Text.bytes "a;\n\t'é' + % \n".toList) 11 < Report.widest ∧
    Fault.report? ⟨.unrecognised "%", ⟨11, "shell"⟩⟩ "a;\n\t'é' + % \n" =
      some "Error: UnrecognisedToken\n-> shell\n  |\n2 | 'é' + %\n  | -------^" ∧
    exists line lead shown trail dashes,
      Report.PointsAt "a;\n\t'é' + % \n".toList 11
        "Error: UnrecognisedToken\n-> shell\n  |\n2 | 'é' + %\n  | -------^" line
          lead shown trail dashes := by
  have short : "a;\n\t'é' + % \n".utf8ByteSize < 2 ^ 32 := by decide
  have refused : parse "shell" "a;\n\t'é' + % \n" =
      .error ⟨.unrecognised "%", ⟨11, "shell"⟩⟩ := by
    cbv
  have narrow : 11 - SourceLine.lineStart (Text.bytes "a;\n\t'é' + % \n".toList) 11 <
      Report.widest :=
    Nat.lt_of_le_of_lt (Nat.sub_le _ _) (by decide)
  have printed : Fault.report? ⟨.unrecognised "%", ⟨11, "shell"⟩⟩ "a;\n\t'é' + % \n" =
      some "Error: UnrecognisedToken\n-> shell\n  |\n2 | 'é' + %\n  | -------^" := by
    cbv
  rcases (report_pointsAt _).2 short _ _ (Or.inr refused) with ⟨within, visible⟩
  rcases (report_pointsAt _).1 _ within visible with
    ⟨_, line, lead, shown, trail, dashes, points⟩
  exact ⟨short, refused, visible, narrow, printed, line, lead, shown, trail, dashes,
    points _ printed⟩

end SignalScript
