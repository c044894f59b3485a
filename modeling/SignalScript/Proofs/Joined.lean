import SignalScript.Proofs.Lines
import SignalScript.Proofs.Location

namespace SignalScript

/-!
Sources joined at a newline.

The first source must be one that can be read.  Its scanner then reaches the newline without a
token left over, and from there it reads what a scanner of the second source reads, only farther
back.  So the tokens of the second source follow those of the first, and if the second source
cannot be read, the whole cannot be read for the same reason.

Offsets keep 32 bits.  As long as the whole is short, moving a token or a fault changes its
offsets by exactly the bytes in front, and nothing is lost.
-/

namespace Scanner

/-- Two scanners that read the same next are alike for as long as anything is read. -/
theorem Scans.of_next_eq {first other last : Scanner} {tokens : List Token}
    (same : first.next = other.next) (scans : Scans other tokens last) :
    exists final, Scans first tokens final ∧ final.next = last.next := by
  cases scans with
  | stay => exact ⟨first, .stay first, same⟩
  | onward held more rest => exact ⟨last, .onward (same.trans held) more rest, rfl⟩

/-- Behind the tokens of the first source begins the second one. -/
theorem exists_seam {file first second whole : String} {tokens : List Token} {last : Token}
    (listed : tokenize file first = .ok (tokens ++ [last]))
    (written : whole.toList = first.toList ++ '\n' :: second.toList) :
    exists seam, (ofSource file whole).Scans tokens seam ∧
      seam.next = ((ofSource file second).moved (first.utf8ByteSize + 1)).next := by
  rcases tokenize_eq_ok_iff_scans.mp listed with ⟨middle, final, scans, read, atEnd⟩
  have start : ofSource file whole = (ofSource file first).followedBy ('\n' :: second.toList) := by
    rw [ofSource, written]
    rfl
  refine ⟨middle.followedBy ('\n' :: second.toList), ?_, ?_⟩
  · rw [start]
    exact scans.followedBy_line second.toList
  · have nothing := (yields_of_next read).last atEnd
    rcases scans.passes with ⟨text, reached⟩
    rcases (yields_of_next read).passes with ⟨gap, passedGap⟩
    have passed := reached.append passedGap
    have all : first.toList = text ++ gap := by
      have rest := passed.rest
      rw [nothing, List.append_nil] at rest
      exact rest
    have offset : final.offset = first.utf8ByteSize := by
      rw [passed.offset, ← Text.size_toList, all]
      exact Nat.zero_add _
    have named : final.file = file := passed.file
    rw [next_followedBy_line _ read, if_pos atEnd, next_of_line _ nothing, offset, named, moved,
      ofSource, Nat.zero_add]

end Scanner

section
variable {file first second whole : String} {tokens : List Token} {last : Token}

/-- A second line adds its tokens to those of the first. -/
theorem tokenize_line {later : List Token} {ended : Token}
    (listed : tokenize file first = .ok (tokens ++ [last]))
    (listedLine : tokenize file second = .ok (later ++ [ended]))
    (written : whole.toList = first.toList ++ '\n' :: second.toList) :
    tokenize file whole = .ok (tokens ++ later.map (Token.moved (first.utf8ByteSize + 1)) ++
      [ended.moved (first.utf8ByteSize + 1)]) := by
  rcases Scanner.exists_seam listed written with ⟨seam, scans, onward⟩
  rcases tokenize_eq_ok_iff_scans.mp listedLine with ⟨middle, final, scansLine, read, atEnd⟩
  rcases (scansLine.moved (first.utf8ByteSize + 1)).of_next_eq onward with
    ⟨reached, scansMoved, same⟩
  exact tokenize_eq_ok_iff_scans.mpr ⟨reached, _, scans.append scansMoved,
    same.trans (Scanner.next_moved _ read), atEnd⟩

/-- A second line that cannot be read makes the whole one that cannot be read. -/
theorem tokenize_line_failed {fault : Fault}
    (listed : tokenize file first = .ok (tokens ++ [last]))
    (broken : tokenize file second = .error fault)
    (written : whole.toList = first.toList ++ '\n' :: second.toList) :
    tokenize file whole = .error (fault.moved (first.utf8ByteSize + 1)) := by
  rcases Scanner.exists_seam listed written with ⟨seam, scans, onward⟩
  rcases tokenize_eq_error_iff_scans.mp broken with ⟨middle, stopped, left, scansLine, failed⟩
  rcases (scansLine.moved (first.utf8ByteSize + 1)).of_next_eq onward with
    ⟨reached, scansMoved, same⟩
  refine tokenize_eq_error_iff_scans.mpr ⟨_, reached, left.moved (first.utf8ByteSize + 1),
    scans.append scansMoved, ?_⟩
  rw [same, Scanner.next_moved_eq, failed]
  rfl

end

/-! ## Offsets of short sources -/

theorem toNat_add_ofNat {offset : UInt32} {distance : Nat}
    (fits : offset.toNat + distance < 2 ^ 32) :
    (offset + UInt32.ofNat distance).toNat = offset.toNat + distance := by
  rw [UInt32.toNat_add, UInt32.toNat_ofNat_of_lt' (Nat.lt_of_le_of_lt (by omega) fits),
    Nat.mod_eq_of_lt fits]

/-- The tokens of a short source stand within it. -/
theorem span_le_of_tokenize {file source : String} {tokens : List Token} {token : Token}
    (listed : tokenize file source = .ok tokens) (short : source.utf8ByteSize < 2 ^ 32)
    (member : token ∈ tokens) :
    token.span.start.toNat ≤ source.utf8ByteSize ∧
      token.span.stop.toNat ≤ source.utf8ByteSize := by
  rcases Scanner.laid_of_tokensAfter listed with ⟨tiles, rfl, whole, laid⟩
  rcases List.mem_map.mp member with ⟨tile, listedTile, rfl⟩
  rcases List.append_of_mem listedTile with ⟨before, after, row⟩
  have covered : Text.size (Tile.spread tiles) = source.utf8ByteSize := by
    rw [whole, ← Text.size_toList]
    rfl
  have within : (Scanner.ofSource file source).offset + Text.size (Tile.spread tiles) < 2 ^ 32 := by
    rw [covered, Scanner.ofSource, Nat.zero_add]
    exact short
  rcases laid.offsets within row with ⟨start, stop⟩
  rw [start, stop, ← covered, row, Tile.spread_append, Tile.spread_cons, Tile.text,
    Scanner.ofSource]
  simp only [Text.size_append]
  omega

/-- A newline separates whatever can be read in front of it from what stands behind it, and the
second text is read there as it is read by itself. -/
theorem tokenize_joined {file first second : String} {tokens : List Token}
    (short : (first ++ "\n" ++ second).utf8ByteSize < 2 ^ 32)
    (listed : tokenize file first = .ok tokens) :
    (forall later, tokenize file second = .ok later ->
      tokenize file (first ++ "\n" ++ second) =
        .ok (tokens.dropLast ++ later.map (Token.moved (first.utf8ByteSize + 1))) ∧
      forall token, token ∈ later ->
        (token.moved (first.utf8ByteSize + 1)).span.start.toNat =
          token.span.start.toNat + (first.utf8ByteSize + 1) ∧
        (token.moved (first.utf8ByteSize + 1)).span.stop.toNat =
          token.span.stop.toNat + (first.utf8ByteSize + 1)) ∧
    forall fault, tokenize file second = .error fault ->
      tokenize file (first ++ "\n" ++ second) = .error (fault.moved (first.utf8ByteSize + 1)) ∧
      (fault.moved (first.utf8ByteSize + 1)).position.offset.toNat =
        fault.position.offset.toNat + (first.utf8ByteSize + 1) := by
  have written : (first ++ "\n" ++ second).toList = first.toList ++ '\n' :: second.toList := by
    rw [String.toList_append, String.toList_append, List.append_assoc]
    rfl
  have total : (first ++ "\n" ++ second).utf8ByteSize =
      first.utf8ByteSize + 1 + second.utf8ByteSize := by
    rw [String.utf8ByteSize_append, String.utf8ByteSize_append]
    rfl
  rw [total] at short
  rcases exists_trail_of_tokenize listed with ⟨_, front, last, _, _, _, rfl⟩
  constructor
  · intro later listedLine
    rcases exists_trail_of_tokenize listedLine with ⟨_, body, ended, _, _, _, rfl⟩
    refine ⟨?_, ?_⟩
    · rw [tokenize_line listed listedLine written, List.dropLast_concat, List.map_append,
        List.append_assoc]
      rfl
    · intro token member
      rcases span_le_of_tokenize listedLine (by omega) member with ⟨start, stop⟩
      exact ⟨toNat_add_ofNat (by omega), toNat_add_ofNat (by omega)⟩
  · intro fault broken
    have within := (located_of_tokenize (by omega) broken).within
    exact ⟨tokenize_line_failed listed broken written, toNat_add_ofNat (by omega)⟩

/-- A comment ends with its line, and a sign does not reach over it. -/
theorem tokenize_joined_comment :
    ("a // +" ++ "\n" ++ "=").utf8ByteSize < 2 ^ 32 ∧
    tokenize "shell" "a // +" =
      .ok ([⟨.identifier, "a", ⟨0, 1⟩⟩] ++ [⟨.endOfInput, "EOF", ⟨6, 6⟩⟩]) ∧
    tokenize "shell" "=" = .ok ([⟨.assign, "=", ⟨0, 1⟩⟩] ++ [⟨.endOfInput, "EOF", ⟨1, 1⟩⟩]) ∧
    tokenize "shell" ("a // +" ++ "\n" ++ "=") = .ok [⟨.identifier, "a", ⟨0, 1⟩⟩,
      ⟨.assign, "=", ⟨7, 8⟩⟩, ⟨.endOfInput, "EOF", ⟨8, 8⟩⟩] ∧
    tokenize "shell" "'é" = .error ⟨.unterminatedText, ⟨0, "shell"⟩⟩ ∧
    tokenize "shell" ("a // +" ++ "\n" ++ "'é") = .error ⟨.unterminatedText, ⟨7, "shell"⟩⟩ := by
  have name : (Scanner.ofSource "shell" "a // +").next =
      .done ⟨.identifier, "a", ⟨0, 1⟩⟩ ⟨"shell", 1, " // +".toList⟩ := by
    cbv
  have listed : tokenize "shell" "a // +" =
      .ok ([⟨.identifier, "a", ⟨0, 1⟩⟩] ++ [⟨.endOfInput, "EOF", ⟨6, 6⟩⟩]) :=
    tokenize_eq_ok_iff_scans.mpr ⟨_, ⟨"shell", 6, []⟩, .onward name (by decide) (.stay _),
      by cbv, rfl⟩
  have sign : (Scanner.ofSource "shell" "=").next =
      .done ⟨.assign, "=", ⟨0, 1⟩⟩ ⟨"shell", 1, []⟩ := by
    cbv
  have listedSign : tokenize "shell" "=" =
      .ok ([⟨.assign, "=", ⟨0, 1⟩⟩] ++ [⟨.endOfInput, "EOF", ⟨1, 1⟩⟩]) :=
    tokenize_eq_ok_iff_scans.mpr ⟨_, ⟨"shell", 1, []⟩, .onward sign (by decide) (.stay _),
      by cbv, rfl⟩
  have broken : tokenize "shell" "'é" = .error ⟨.unterminatedText, ⟨0, "shell"⟩⟩ :=
    tokenize_eq_error_iff_scans.mpr ⟨_, _, ⟨"shell", 0, ['\'', 'é']⟩, .stay _, by cbv⟩
  have short : ("a // +" ++ "\n" ++ "=").utf8ByteSize < 2 ^ 32 := by decide
  have otherShort : ("a // +" ++ "\n" ++ "'é").utf8ByteSize < 2 ^ 32 := by decide
  exact ⟨short, listed, listedSign, ((tokenize_joined short listed).1 _ listedSign).1, broken,
    ((tokenize_joined otherShort listed).2 _ broken).1⟩

end SignalScript
