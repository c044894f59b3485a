import SignalScript.Proofs.Reading

namespace SignalScript

/-!
Tokens and gaps tile the source.

Every token of a source is given a tile, which is the token together with the gap
in front of it.  Laid in a row, the tiles give back the source, and the span of
each token is the place of its own text in that row.  The last tile is special:
its token is the end of the input, so it holds only the gap behind everything
else.

Spans keep 32 bits of an offset.  In a source of fewer than `2 ^ 32` bytes that is
the whole offset, and there a text can be cut out of the source by a span.
-/

namespace Text

/-- The first `bytes` bytes of a text.  There are none when the text is shorter or
the cut would split a character. -/
def takeBytes? : Nat -> List Char -> Option (List Char)
  | 0, _ => some []
  | _ + 1, [] => none
  | bytes + 1, c :: rest =>
      if c.utf8Size ≤ bytes + 1 then
        (takeBytes? (bytes + 1 - c.utf8Size) rest).map (c :: ·)
      else
        none

/-- The text between two byte offsets, if both fall between characters. -/
def slice? (start stop : Nat) (text : List Char) : Option (List Char) :=
  (dropBytes? start text).bind (takeBytes? (stop - start))

theorem dropBytes?_size_append (first second : List Char) :
    dropBytes? (size first) (first ++ second) = some second := by
  induction first with
  | nil => rw [size_nil, List.nil_append, dropBytes?]
  | cons c first inductionHypothesis =>
      obtain ⟨bytes, same⟩ := Nat.exists_eq_succ_of_ne_zero
        (Nat.ne_of_gt (Nat.lt_of_lt_of_le c.utf8Size_pos (Nat.le_add_right _ (size first))))
      have shorter : bytes + 1 - c.utf8Size = size first := by omega
      rw [size_cons, same, List.cons_append, dropBytes?, if_pos (by omega), shorter]
      exact inductionHypothesis

theorem takeBytes?_size_append (first second : List Char) :
    takeBytes? (size first) (first ++ second) = some first := by
  induction first with
  | nil => rw [size_nil, takeBytes?]
  | cons c first inductionHypothesis =>
      obtain ⟨bytes, same⟩ := Nat.exists_eq_succ_of_ne_zero
        (Nat.ne_of_gt (Nat.lt_of_lt_of_le c.utf8Size_pos (Nat.le_add_right _ (size first))))
      have shorter : bytes + 1 - c.utf8Size = size first := by omega
      rw [size_cons, same, List.cons_append, takeBytes?, if_pos (by omega), shorter,
        inductionHypothesis]
      rfl

theorem size_pos {text : List Char} (some : text ≠ []) : 0 < size text := by
  cases text with
  | nil => exact absurd rfl some
  | cons c rest => exact Nat.lt_of_lt_of_le c.utf8Size_pos (Nat.le_add_right _ _)

/-- A part of a text is found at its own offsets. -/
theorem slice?_append (before middle after : List Char) :
    slice? (size before) (size before + size middle) (before ++ (middle ++ after)) =
      some middle := by
  rw [slice?, dropBytes?_size_append, Nat.add_sub_cancel_left]
  exact takeBytes?_size_append middle after

/-- The size of a text is the number of bytes of the string. -/
theorem size_toList (text : String) : size text.toList = text.utf8ByteSize := by
  have listed : forall chars : List Char, size chars = (String.ofList chars).utf8ByteSize := by
    intro chars
    induction chars with
    | nil => rfl
    | cons c chars inductionHypothesis =>
        have split : String.ofList (c :: chars) = String.singleton c ++ String.ofList chars := by
          rw [String.singleton_eq_ofList, ← String.ofList_append]
          rfl
        rw [size_cons, inductionHypothesis, split, String.utf8ByteSize_append,
          String.utf8ByteSize_singleton]
  rw [listed, String.ofList_toList]

end Text

/-- A token and the gap in front of it. -/
structure Tile where
  gap : List Char
  token : Token

namespace Tile

/-- The text that a tile covers. -/
def text (tile : Tile) : List Char :=
  tile.gap ++ tile.token.written

/-- The text that tiles cover in a row. -/
def spread (tiles : List Tile) : List Char :=
  tiles.flatMap text

@[simp] theorem spread_nil : spread [] = [] := rfl

@[simp] theorem spread_cons (tile : Tile) (later : List Tile) :
    spread (tile :: later) = tile.text ++ spread later := rfl

@[simp] theorem spread_append (earlier later : List Tile) :
    spread (earlier ++ later) = spread earlier ++ spread later :=
  List.flatMap_append

/-- A tile lies at an offset in front of a text: its gap is one there, and its token
says where it stands and what it holds. -/
structure Fits (offset : Nat) (tile : Tile) (after : List Char) : Prop where
  gap : Gap tile.gap (tile.token.written ++ after)
  span : tile.token.span =
    Span.ofOffset (offset + Text.size tile.gap) (Text.size tile.token.written)
  admitted : tile.token.kind.Admits tile.token.value.toList
  ended : tile.token.kind = .endOfInput <-> tile.token.written = []

/-- Tiles lie in a row from an offset on, and exactly the last of them is the end of
the input. -/
inductive Laid : Nat -> List Tile -> Prop
  | last {offset : Nat} {tile : Tile} :
      tile.token.kind = .endOfInput -> Fits offset tile [] -> Laid offset [tile]
  | more {offset : Nat} {tile : Tile} {later : List Tile} :
      tile.token.kind ≠ .endOfInput -> Fits offset tile (spread later) ->
      Laid (offset + Text.size tile.text) later -> Laid offset (tile :: later)

end Tile

namespace Scanner

/-- A reading lays a tile. -/
theorem Yields.fits {scanner after : Scanner} {token : Token}
    (yielded : Yields scanner token after) :
    exists gap, Passes scanner (Tile.mk gap token).text after ∧
      Tile.Fits scanner.offset ⟨gap, token⟩ after.rest := by
  rcases yielded.passed with ⟨middle, ⟨gap, cleared, isGap⟩, passed, span⟩
  rw [passed.rest] at isGap
  rw [cleared.offset] at span
  exact ⟨gap, cleared.append passed, isGap, span, yielded.admitted, yielded.ended⟩

/-- Reading a whole source lays tiles up to its end. -/
theorem laid_of_tokensAfter {scanner : Scanner} {taken all : List Token}
    (read : scanner.tokensAfter taken = .ok all) :
    exists tiles, all = taken.reverse ++ tiles.map Tile.token ∧
      Tile.spread tiles = scanner.rest ∧ Tile.Laid scanner.offset tiles := by
  fun_induction tokensAfter taken scanner with
  | case1 => cases read
  | case2 taken scanner token after reply last =>
      cases read
      have yielded := yields_of_next reply
      rcases yielded.fits with ⟨gap, passed, fits⟩
      have nothing := yielded.last last
      rw [nothing] at fits
      refine ⟨[⟨gap, token⟩], by simp, ?_, .last last fits⟩
      rw [passed.rest, nothing]
      rfl
  | case3 taken scanner token after reply more inductionHypothesis =>
      rcases inductionHypothesis read with ⟨tiles, same, rest, laid⟩
      rcases (yields_of_next reply).fits with ⟨gap, passed, fits⟩
      rw [passed.offset] at laid
      refine ⟨⟨gap, token⟩ :: tiles, by simp [same], ?_, .more more (rest.symm ▸ fits) laid⟩
      rw [Tile.spread_cons, rest, passed.rest]

end Scanner

namespace Tile

/-- Every tile of a row lies behind those in front of it. -/
theorem Laid.fits {offset : Nat} {before after : List Tile} {tile : Tile}
    (laid : Laid offset (before ++ tile :: after)) :
    Fits (offset + Text.size (spread before)) tile (spread after) := by
  induction before generalizing offset with
  | nil =>
      cases laid with
      | last _ fits => exact fits
      | more _ fits _ => exact fits
  | cons first before inductionHypothesis =>
      rw [List.cons_append] at laid
      generalize row : before ++ tile :: after = later at laid
      cases laid with
      | last => cases (List.append_eq_nil_iff.mp row).2
      | more _ _ laid =>
          have behind := inductionHypothesis (row ▸ laid)
          rw [Nat.add_assoc, ← Text.size_append] at behind
          exact behind

/-- Exactly the last tile of a row is the end of the input. -/
theorem Laid.ended {offset : Nat} {tiles : List Tile} (laid : Laid offset tiles) :
    exists front last, tiles = front ++ [last] ∧ last.token.kind = .endOfInput ∧
      forall tile, tile ∈ front -> tile.token.kind ≠ .endOfInput := by
  induction laid with
  | @last _ tile atEnd _ => exact ⟨[], tile, rfl, atEnd, nofun⟩
  | @more _ tile later goesOn _ _ inductionHypothesis =>
      rcases inductionHypothesis with ⟨front, last, same, atEnd, before⟩
      refine ⟨tile :: front, last, by rw [same]; rfl, atEnd, ?_⟩
      intro other member
      rcases List.mem_cons.mp member with first | behind
      · rw [first]
        exact goesOn
      · exact before other behind

/-! ## Short sources -/

section
variable {offset : Nat} {tile : Tile} {after : List Char}

theorem Fits.start_eq (fits : Fits offset tile after)
    (short : offset + Text.size tile.text < 2 ^ 32) :
    tile.token.span.start.toNat = offset + Text.size tile.gap := by
  rw [text, Text.size_append] at short
  rw [fits.span, Span.ofOffset, UInt32.toNat_ofNat_of_lt']
  exact Nat.lt_of_le_of_lt (by omega) short

theorem Fits.stop_eq (fits : Fits offset tile after)
    (short : offset + Text.size tile.text < 2 ^ 32) :
    tile.token.span.stop.toNat = offset + Text.size tile.text := by
  rw [text, Text.size_append] at short ⊢
  rw [fits.span, Span.ofOffset, UInt32.toNat_ofNat_of_lt', Nat.add_assoc]
  exact Nat.lt_of_le_of_lt (by omega) short

end

/-- Where the last of some tiles stops, which is at the very front if there is
none. -/
def reach (tiles : List Tile) : Nat :=
  (tiles.getLast?.map fun tile => tile.token.span.stop.toNat).getD 0

end Tile

/-- Tiles cover a source, each token with its own text and each gap with nothing but
blanks and comments. -/
structure Tiled (source : List Char) (tiles : List Tile) : Prop where
  /-- Gaps and tokens as they are written, in order, are the source. -/
  whole : Tile.spread tiles = source
  /-- There is one end of the input, behind all other tokens and at the end of the
  source. -/
  ended : exists front last, tiles = front ++ [last] ∧ last.token.kind = .endOfInput ∧
    last.token.span.start.toNat = Text.size source ∧
    last.token.span.stop.toNat = Text.size source ∧
    forall tile, tile ∈ front -> tile.token.kind ≠ .endOfInput
  /-- The span of any other token holds at least a byte. -/
  filled : forall tile, tile ∈ tiles -> tile.token.kind ≠ .endOfInput ->
    tile.token.span.start < tile.token.span.stop
  /-- Spans increase and do not overlap. -/
  ordered : tiles.Pairwise fun earlier later =>
    earlier.token.span.stop ≤ later.token.span.start
  /-- A span lies between characters and cuts out the token as it is written. -/
  sliced : forall tile, tile ∈ tiles ->
    Text.slice? tile.token.span.start.toNat tile.token.span.stop.toNat source =
      some tile.token.written
  /-- A value belongs to the class of its kind. -/
  admitted : forall tile, tile ∈ tiles -> tile.token.kind.Admits tile.token.value.toList
  /-- What stands between a token and the one before it is a gap. -/
  gapped : forall before tile after, tiles = before ++ tile :: after ->
    Text.slice? (Tile.reach before) tile.token.span.start.toNat source = some tile.gap ∧
      Gap tile.gap (tile.token.written ++ Tile.spread after)

namespace Tile

section
variable {offset : Nat} {tiles before after : List Tile} {tile : Tile}

/-- The offsets of a tile in a short source are the sizes of what stands in front. -/
theorem Laid.offsets (laid : Laid offset tiles)
    (short : offset + Text.size (spread tiles) < 2 ^ 32) (row : tiles = before ++ tile :: after) :
    tile.token.span.start.toNat = offset + Text.size (spread before ++ tile.gap) ∧
      tile.token.span.stop.toNat = offset + Text.size (spread before ++ tile.text) := by
  subst row
  have fits := laid.fits
  have within : offset + Text.size (spread before) + Text.size tile.text < 2 ^ 32 := by
    rw [spread_append, spread_cons, Text.size_append, Text.size_append] at short
    omega
  rw [Text.size_append, Text.size_append, ← Nat.add_assoc, ← Nat.add_assoc]
  exact ⟨fits.start_eq within, fits.stop_eq within⟩

/-- The tiles in front of another reach as far as their text does. -/
theorem Laid.reach_eq (laid : Laid 0 tiles) (short : 0 + Text.size (spread tiles) < 2 ^ 32)
    (row : tiles = before ++ after) : reach before = Text.size (spread before) := by
  rcases List.eq_nil_or_concat before with rfl | ⟨earlier, previous, rfl⟩
  · rfl
  · rw [List.concat_eq_append] at row ⊢
    rw [List.append_assoc] at row
    have stop := (laid.offsets short row).2
    rw [reach, List.getLast?_concat, Option.map_some, Option.getD_some, stop, Nat.zero_add,
      spread_append, spread_cons, spread_nil, List.append_nil]

theorem Laid.pairwise (laid : Laid offset tiles)
    (short : offset + Text.size (spread tiles) < 2 ^ 32) :
    tiles.Pairwise fun earlier later => earlier.token.span.stop ≤ later.token.span.start := by
  induction laid with
  | last => exact List.pairwise_singleton _ _
  | @more offset tile later _ fits laid inductionHypothesis =>
      rw [spread_cons, Text.size_append, ← Nat.add_assoc] at short
      refine List.pairwise_cons.mpr ⟨?_, inductionHypothesis short⟩
      intro other member
      rcases List.append_of_mem member with ⟨before, after, row⟩
      have start := (laid.offsets short row).1
      have stop := fits.stop_eq (by omega)
      rw [UInt32.le_iff_toNat_le, start, stop]
      exact Nat.le_add_right _ _

/-- A row of tiles in a short source has everything that its tokens promise. -/
theorem Laid.tiled (laid : Laid 0 tiles) (short : 0 + Text.size (spread tiles) < 2 ^ 32) :
    Tiled (spread tiles) tiles where
  whole := rfl
  ended := by
    rcases laid.ended with ⟨front, last, row, atEnd, before⟩
    rcases laid.offsets short row with ⟨start, stop⟩
    have nothing := (row ▸ laid).fits.ended.mp atEnd
    have whole : spread tiles = spread front ++ last.text := by
      rw [row, spread_append, spread_cons, spread_nil, List.append_nil]
    refine ⟨front, last, row, atEnd, ?_, ?_, before⟩
    · rw [start, whole, text, nothing, List.append_nil, Nat.zero_add]
    · rw [stop, whole, Nat.zero_add]
  filled := by
    intro tile member more
    rcases List.append_of_mem member with ⟨before, after, row⟩
    rcases laid.offsets short row with ⟨start, stop⟩
    have something : tile.token.written ≠ [] := fun nothing =>
      more ((row ▸ laid).fits.ended.mpr nothing)
    rw [UInt32.lt_iff_toNat_lt, start, stop, text, ← List.append_assoc,
      Text.size_append _ tile.token.written]
    have positive := Text.size_pos something
    omega
  ordered := laid.pairwise short
  sliced := by
    intro tile member
    rcases List.append_of_mem member with ⟨before, after, row⟩
    rcases laid.offsets short row with ⟨start, stop⟩
    have cut := Text.slice?_append (spread before ++ tile.gap) tile.token.written (spread after)
    rw [start, stop, Nat.zero_add, Nat.zero_add, row, spread_append, spread_cons, text,
      ← List.append_assoc, Text.size_append _ tile.token.written]
    rw [List.append_assoc] at cut
    rw [List.append_assoc]
    exact cut
  admitted := by
    intro tile member
    rcases List.append_of_mem member with ⟨before, after, row⟩
    exact (row ▸ laid).fits.admitted
  gapped := by
    intro before tile after row
    refine ⟨?_, (row ▸ laid).fits.gap⟩
    rw [laid.reach_eq short row, (laid.offsets short row).1, row, spread_append, spread_cons, text,
      List.append_assoc, Nat.zero_add, Text.size_append]
    exact Text.slice?_append _ _ _

end
end Tile

/-- The tokens of a short source and the gaps between them tile it without loss. -/
theorem tokenize_tiles {file source : String} {tokens : List Token}
    (listed : tokenize file source = .ok tokens) (short : source.utf8ByteSize < 2 ^ 32) :
    exists tiles, tokens = tiles.map Tile.token ∧ Tiled source.toList tiles := by
  rcases Scanner.laid_of_tokensAfter listed with ⟨tiles, same, whole, laid⟩
  rw [List.reverse_nil, List.nil_append] at same
  have covered : Tile.spread tiles = source.toList := whole
  rw [← Text.size_toList, ← covered, ← Nat.zero_add (Text.size _)] at short
  rw [← covered]
  exact ⟨tiles, same, Tile.Laid.tiled laid short⟩

theorem tokenize_tiles_comment :
    tokenize "shell" "f('é')// x" =
      .ok ([⟨.identifier, "f", ⟨0, 1⟩⟩, ⟨.openParen, "(", ⟨1, 2⟩⟩, ⟨.string, "é", ⟨2, 6⟩⟩,
        ⟨.closeParen, ")", ⟨6, 7⟩⟩] ++ [⟨.endOfInput, "EOF", ⟨11, 11⟩⟩]) ∧
    "f('é')// x".utf8ByteSize < 2 ^ 32 ∧
    exists tiles, [⟨.identifier, "f", ⟨0, 1⟩⟩, ⟨.openParen, "(", ⟨1, 2⟩⟩, ⟨.string, "é", ⟨2, 6⟩⟩,
        ⟨.closeParen, ")", ⟨6, 7⟩⟩, ⟨.endOfInput, "EOF", ⟨11, 11⟩⟩] = tiles.map Tile.token ∧
      Tiled "f('é')// x".toList tiles := by
  have listed : tokenize "shell" "f('é')// x" =
      .ok ([⟨.identifier, "f", ⟨0, 1⟩⟩, ⟨.openParen, "(", ⟨1, 2⟩⟩, ⟨.string, "é", ⟨2, 6⟩⟩,
        ⟨.closeParen, ")", ⟨6, 7⟩⟩] ++ [⟨.endOfInput, "EOF", ⟨11, 11⟩⟩]) := by
    refine tokenize_eq_ok_iff.mpr
      ⟨⟨⟨"shell", 1, "('é')// x".toList⟩, ⟨.identifier, "f", ⟨0, 1⟩⟩, 0⟩,
      ⟨⟨"shell", 11, []⟩, ⟨.endOfInput, "EOF", ⟨11, 11⟩⟩, 0⟩, by cbv, ?_, rfl, rfl⟩
    repeat refine .onward (by decide) (by cbv) ?_
    exact .stay _
  have short : "f('é')// x".utf8ByteSize < 2 ^ 32 := by decide
  exact ⟨listed, short, tokenize_tiles listed short⟩

end SignalScript
