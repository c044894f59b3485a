import SignalScript.Proofs.Tiling
import SignalScript.SourceLine

namespace SignalScript

/-!
The line of an offset, told from the bytes of its source.

There are two ways to a line.  The line of a byte is found by a walk through the lines of the
source, and the line of the end is cut off from the back.  What either of them finds can be said
without walking.  The number of the line counts the newlines in front of the offset, the line
starts behind the last of these, and it stops behind the next newline.

All of this is said in bytes, so it also holds of an offset within a character.  A newline is a
single byte, and no other character has that byte in its encoding.
-/

namespace Text

/-- The bytes that encode a text. -/
def bytes (text : List Char) : List UInt8 :=
  text.flatMap String.utf8EncodeChar

@[simp] theorem bytes_cons (c : Char) (text : List Char) :
    bytes (c :: text) = String.utf8EncodeChar c ++ bytes text := rfl

@[simp] theorem bytes_append (first second : List Char) :
    bytes (first ++ second) = bytes first ++ bytes second :=
  List.flatMap_append

@[simp] theorem length_bytes (text : List Char) : (bytes text).length = size text := by
  induction text with
  | nil => rfl
  | cons c text inductionHypothesis =>
      rw [bytes_cons, size_cons, List.length_append, inductionHypothesis,
        String.length_utf8EncodeChar]

theorem bytes_inj {first second : List Char} (same : bytes first = bytes second) :
    first = second := by
  have encoded : first.utf8Encode = second.utf8Encode := congrArg List.toByteArray same
  have texts : String.ofList first = String.ofList second := by
    rw [← String.toByteArray_inj, String.toByteArray_ofList, String.toByteArray_ofList, encoded]
  exact String.ofList_injective texts

/-- A byte below 128 encodes one character, and it occurs in no other encoding. -/
theorem mem_utf8EncodeChar_iff {code : Nat} (c : Char) (ascii : code < 128) :
    UInt8.ofNat code ∈ String.utf8EncodeChar c <-> c.toNat = code := by
  have byte : forall value, value < 256 ->
      (UInt8.ofNat code = UInt8.ofNat value <-> value = code) := by
    intro value fits
    rw [← UInt8.toNat_inj, UInt8.toNat_ofNat_of_lt' (Nat.lt_trans ascii (by decide)),
      UInt8.toNat_ofNat_of_lt' fits, eq_comm]
  have same : c.val.toNat = c.toNat := rfl
  unfold String.utf8EncodeChar
  simp only [same]
  split
  next small =>
    rw [List.mem_singleton, byte _ (by omega)]
  next large =>
    split
    · simp only [List.mem_cons, List.not_mem_nil, or_false]
      rw [byte _ (by omega), byte _ (by omega)]
      omega
    · split
      · simp only [List.mem_cons, List.not_mem_nil, or_false]
        rw [byte _ (by omega), byte _ (by omega), byte _ (by omega)]
        omega
      · simp only [List.mem_cons, List.not_mem_nil, or_false]
        rw [byte _ (by omega), byte _ (by omega), byte _ (by omega), byte _ (by omega)]
        omega

theorem mem_bytes_iff {c : Char} (text : List Char) (ascii : c.toNat < 128) :
    UInt8.ofNat c.toNat ∈ bytes text <-> c ∈ text := by
  rw [bytes, List.mem_flatMap]
  constructor
  · rintro ⟨other, member, encoded⟩
    have same := (mem_utf8EncodeChar_iff other ascii).mp encoded
    rw [← Char.ofNat_toNat c, ← same, Char.ofNat_toNat]
    exact member
  · intro member
    exact ⟨c, member, (mem_utf8EncodeChar_iff c ascii).mpr rfl⟩

end Text

namespace SourceLine

/-- The byte of a newline. -/
def newline : UInt8 :=
  10

/-- The offset just behind the last newline in front of an offset, and zero if there is none. -/
def lineStart (source : List UInt8) (offset : Nat) : Nat :=
  offset - ((source.take offset).reverse.takeWhile (· != newline)).length

/-- The offset just behind the next newline from an offset on, and the end of the source if there
is none. -/
def lineStop (source : List UInt8) (offset : Nat) : Nat :=
  min source.length (offset + ((source.drop offset).takeWhile (· != newline)).length + 1)

/-- The line of an offset, in a source whose first line has the given number. -/
structure LiesIn (first : Nat) (source : List UInt8) (offset : Nat) (line : SourceLine) :
    Prop where
  number : line.number = first + (source.take offset).count newline
  column : line.column = offset - lineStart source offset
  text : Text.bytes line.text =
    (source.take (lineStop source offset)).drop (lineStart source offset)

/-! ## Lines and newlines -/

section
variable {front later source : List UInt8} {offset : Nat}

theorem takeWhile_eq_self {text : List UInt8} (single : newline ∉ text) :
    text.takeWhile (· != newline) = text := by
  rw [List.takeWhile_eq_self_iff]
  intro byte member
  rw [bne_iff_ne]
  rintro rfl
  exact single member

/-- What stands in front of a newline does not matter behind it. -/
theorem takeWhile_newline (text after : List UInt8) :
    (text ++ newline :: after).takeWhile (· != newline) = text.takeWhile (· != newline) := by
  rw [List.takeWhile_append]
  split
  next whole =>
    have same := (List.takeWhile_prefix (· != newline) (l := text)).eq_of_length whole
    simp [same]
  next => rfl

theorem lineStart_le : lineStart source offset ≤ offset :=
  Nat.sub_le _ _

theorem lineStart_of_single (single : newline ∉ source.take offset)
    (within : offset ≤ source.length) : lineStart source offset = 0 := by
  rw [lineStart, takeWhile_eq_self (by rwa [List.mem_reverse]), List.length_reverse,
    List.length_take, Nat.min_eq_left within, Nat.sub_self]

theorem take_behind (front later : List UInt8) (offset : Nat) :
    (front ++ newline :: later).take (front.length + 1 + offset) =
      front ++ newline :: later.take offset := by
  rw [Nat.add_assoc, List.take_length_add_append, Nat.add_comm 1, List.take_succ_cons]

theorem drop_behind (front later : List UInt8) (offset : Nat) :
    (front ++ newline :: later).drop (front.length + 1 + offset) = later.drop offset := by
  rw [Nat.add_assoc, List.drop_length_add_append, Nat.add_comm 1, List.drop_succ_cons]

/-- A line behind the first one starts where it starts without the first one. -/
theorem lineStart_behind : lineStart (front ++ newline :: later) (front.length + 1 + offset) =
    front.length + 1 + lineStart later offset := by
  have least : ((later.take offset).reverse.takeWhile (· != newline)).length ≤ offset := by
    have short := (List.takeWhile_sublist (l := (later.take offset).reverse)
      (· != newline)).length_le
    rw [List.length_reverse, List.length_take] at short
    omega
  rw [lineStart, take_behind, List.reverse_append, List.reverse_cons, List.append_assoc,
    List.singleton_append, takeWhile_newline, lineStart]
  omega

theorem lineStop_behind : lineStop (front ++ newline :: later) (front.length + 1 + offset) =
    front.length + 1 + lineStop later offset := by
  rw [lineStop, drop_behind, lineStop, List.length_append, List.length_cons]
  omega

theorem lineStop_of_first (single : newline ∉ front) (within : offset ≤ front.length) :
    lineStop (front ++ newline :: later) offset = front.length + 1 := by
  have rest : newline ∉ front.drop offset := fun member => single (List.mem_of_mem_drop member)
  rw [lineStop, List.drop_append_of_le_length within, takeWhile_newline, takeWhile_eq_self rest,
    List.length_drop, List.length_append, List.length_cons]
  omega

theorem lineStop_of_last (single : newline ∉ source) (within : offset ≤ source.length) :
    lineStop source offset = source.length := by
  have rest : newline ∉ source.drop offset := fun member => single (List.mem_of_mem_drop member)
  rw [lineStop, takeWhile_eq_self rest, List.length_drop]
  omega

/-! ## The three places of a line -/

theorem liesIn_first {first : Nat} {text : List Char} (single : newline ∉ front)
    (within : offset ≤ front.length) (same : Text.bytes text = front ++ [newline]) :
    LiesIn first (front ++ newline :: later) offset ⟨first, text, offset⟩ := by
  have before : newline ∉ (front ++ newline :: later).take offset := by
    rw [List.take_append_of_le_length within]
    exact fun member => single (List.mem_of_mem_take member)
  have start : lineStart (front ++ newline :: later) offset = 0 :=
    lineStart_of_single before (by rw [List.length_append]; omega)
  refine ⟨?_, ?_, ?_⟩
  · rw [List.count_eq_zero.mpr before]
    rfl
  · rw [start]
    rfl
  · rw [same, lineStop_of_first single within, start, List.take_length_add_append]
    rfl

theorem liesIn_last {first : Nat} {text : List Char} (single : newline ∉ source)
    (within : offset ≤ source.length) (same : Text.bytes text = source) :
    LiesIn first source offset ⟨first, text, offset⟩ := by
  have before : newline ∉ source.take offset := fun member => single (List.mem_of_mem_take member)
  have start := lineStart_of_single before within
  refine ⟨?_, ?_, ?_⟩
  · rw [List.count_eq_zero.mpr before]
    rfl
  · rw [start]
    rfl
  · rw [same, lineStop_of_last single within, start, List.take_length]
    rfl

/-- Newlines in front make the number of a line greater, and what they end moves it back. -/
theorem LiesIn.behind {first : Nat} {line : SourceLine}
    (lies : LiesIn (first + front.count newline + 1) later offset line) :
    LiesIn first (front ++ newline :: later) (front.length + 1 + offset) line := by
  refine ⟨?_, ?_, ?_⟩
  · rw [lies.number, take_behind, List.count_append, List.count_cons_self]
    omega
  · rw [lies.column, lineStart_behind]
    omega
  · rw [lies.text, lineStart_behind, lineStop_behind, take_behind, drop_behind]

end

/-! ## The lookup -/

theorem split_eq_some {text line later : List Char} (parts : split text = (line, some later)) :
    exists front, '\n' ∉ front ∧ line = front ++ ['\n'] ∧ text = front ++ '\n' :: later := by
  unfold split at parts
  split at parts
  next => cases parts
  next c rest found =>
    cases parts
    have stops := List.head?_dropWhile_not (· != '\n') text
    rw [found] at stops
    have same : c = '\n' := by simpa using stops
    subst same
    refine ⟨text.takeWhile (· != '\n'), ?_, rfl, ?_⟩
    · intro member
      have other := List.all_eq_true.mp List.all_takeWhile _ member
      simp at other
    · rw [← found, List.takeWhile_append_dropWhile]

theorem split_eq_none {text line : List Char} (parts : split text = (line, none)) :
    line = text ∧ '\n' ∉ text := by
  unfold split at parts
  split at parts
  next found =>
    cases parts
    refine ⟨rfl, ?_⟩
    intro member
    have other := List.dropWhile_eq_nil_iff.mp found _ member
    simp at other
  next => cases parts

theorem newline_mem_bytes_iff (text : List Char) : newline ∈ Text.bytes text <-> '\n' ∈ text :=
  Text.mem_bytes_iff (c := '\n') text (by decide)

theorem count_newline_bytes (text : List Char) :
    (Text.bytes text).count newline = text.count '\n' := by
  induction text with
  | nil => rfl
  | cons c text inductionHypothesis =>
      rw [Text.bytes_cons, List.count_append, inductionHypothesis]
      by_cases same : c = '\n'
      · subst same
        rw [List.count_cons_self, Nat.add_comm]
        rfl
      · have other : newline ∉ String.utf8EncodeChar c := by
          intro member
          have code := (Text.mem_utf8EncodeChar_iff c (by decide)).mp member
          rw [← Char.ofNat_toNat c, code] at same
          exact same rfl
        rw [List.count_eq_zero.mpr other, Nat.zero_add, List.count_cons_of_ne same]

section
variable {number start offset : Nat} {text : List Char} {line : SourceLine}

/-- Every byte of a text belongs to one of its lines. -/
theorem exists_holding? (number start : Nat) (within : offset < Text.size text) :
    exists line, holding? number start (start + offset) (lines text) = some line := by
  fun_induction lines text generalizing number start offset with
  | case1 text row later parts inductionHypothesis =>
      rw [holding?]
      split
      next => exact ⟨_, rfl⟩
      next beyond =>
        rcases split_eq_some parts with ⟨front, _, rfl, rfl⟩
        have place : start + offset = start + Text.size (front ++ ['\n']) +
            (offset - Text.size (front ++ ['\n'])) := by
          omega
        rw [place]
        apply inductionHypothesis
        simp only [Text.size_append, Text.size_cons, Text.size_nil] at within beyond ⊢
        omega
  | case2 text row parts empty =>
      rw [(split_eq_none parts).1] at empty
      rw [List.isEmpty_iff.mp empty] at within
      exact absurd within (Nat.not_lt_zero _)
  | case3 text row parts some =>
      rw [(split_eq_none parts).1, holding?, if_pos ⟨Nat.le_add_right _ _, by omega⟩]
      exact ⟨_, rfl⟩

/-- A line that holds a byte lies where it is said to lie. -/
theorem liesIn_of_holding?
    (found : holding? number start (start + offset) (lines text) = some line) :
    LiesIn number (Text.bytes text) offset line := by
  have one : Text.bytes ['\n'] = [newline] := rfl
  have size : Text.size ['\n'] = 1 := rfl
  fun_induction lines text generalizing number start offset with
  | case1 text row later parts inductionHypothesis =>
      rcases split_eq_some parts with ⟨front, single, rfl, rfl⟩
      have singleByte := mt (newline_mem_bytes_iff front).mp single
      rw [Text.bytes_append, ← List.singleton_append, Text.bytes_append, one]
      rw [holding?, Text.size_append, size] at found
      split at found
      next before =>
        cases found
        rw [Nat.add_sub_cancel_left]
        refine liesIn_first singleByte ?_ ?_
        · rw [Text.length_bytes]
          omega
        · rw [Text.bytes_append, one]
      next beyond =>
        have place : start + offset = start + (Text.size front + 1) +
            (offset - (Text.size front + 1)) := by
          omega
        rw [place] at found
        have lies := inductionHypothesis found
        have moved : (Text.bytes front).length + 1 + (offset - (Text.size front + 1)) = offset := by
          rw [Text.length_bytes]
          omega
        rw [← moved]
        refine LiesIn.behind ?_
        rw [List.count_eq_zero.mpr singleByte]
        exact lies
  | case2 => cases found
  | case3 text row parts some =>
      rcases split_eq_none parts with ⟨rfl, single⟩
      rw [holding?] at found
      split at found
      next within =>
        cases found
        rw [Nat.add_sub_cancel_left]
        exact liesIn_last (mt (newline_mem_bytes_iff row).mp single)
          (by rw [Text.length_bytes]; omega) rfl
      next => cases found

end

/-- The line of the end is what stands behind the last newline. -/
theorem atEnd_text (source : List Char) : '\n' ∉ (atEnd source).text ∧
    ((atEnd source).text = source ∨
      exists front, source = front ++ '\n' :: (atEnd source).text) := by
  have whole : source.rdropWhile (· != '\n') ++ (atEnd source).text = source :=
    List.rdropWhile_append_rtakeWhile
  constructor
  · intro member
    have other := List.mem_rtakeWhile_imp member
    simp at other
  · rcases List.eq_nil_or_concat (source.rdropWhile (· != '\n')) with none | ⟨front, c, found⟩
    · rw [none, List.nil_append] at whole
      exact Or.inl whole
    · have stops := List.rdropWhile_last_not (· != '\n') source (by rw [found]; simp)
      simp only [found, List.concat_eq_append, List.getLast_append_singleton, bne_iff_ne,
        Decidable.not_not] at stops
      rw [found, stops, List.concat_eq_append, List.append_assoc, List.singleton_append] at whole
      exact Or.inr ⟨front, whole.symm⟩

/-- It lies at the end of the source. -/
theorem liesIn_atEnd (source : List Char) :
    LiesIn 1 (Text.bytes source) (Text.size source) (atEnd source) := by
  have parts := atEnd_text source
  have same : atEnd source =
      ⟨source.count '\n' + 1, (atEnd source).text, Text.size (atEnd source).text⟩ := rfl
  rw [same]
  generalize (atEnd source).text = text at parts
  rcases parts with ⟨single, whole⟩
  have last (first : Nat) : LiesIn first (Text.bytes text) (Text.size text)
      ⟨first, text, Text.size text⟩ :=
    liesIn_last (mt (newline_mem_bytes_iff text).mp single)
      (Nat.le_of_eq (Text.length_bytes text).symm) rfl
  rcases whole with rfl | ⟨front, rfl⟩
  · rw [List.count_eq_zero.mpr single]
    exact last 1
  · have place : Text.size (front ++ '\n' :: text) =
        (Text.bytes front).length + 1 + Text.size text := by
      rw [Text.size_append, Text.size_cons, Text.length_bytes, ← Nat.add_assoc]
      rfl
    have number : (front ++ '\n' :: text).count '\n' + 1 =
        1 + (Text.bytes front).count newline + 1 := by
      rw [List.count_append, List.count_cons_self, List.count_eq_zero.mpr single,
        count_newline_bytes]
      omega
    rw [place, number, Text.bytes_append]
    exact (last _).behind

/-- A line that is found lies where it is said to lie. -/
theorem liesIn_of_find? {source : List Char} {offset : Nat} {line : SourceLine}
    (found : find? source offset = some line) :
    offset ≤ Text.size source ∧ LiesIn 1 (Text.bytes source) offset line := by
  rw [find?] at found
  split at found
  next => cases found
  next within =>
    refine ⟨Nat.not_lt.mp within, ?_⟩
    split at found
    next line held =>
      cases found
      rw [← Nat.zero_add offset] at held
      exact liesIn_of_holding? held
    next none =>
      cases found
      have atEnd : offset = Text.size source := by
        by_contra before
        rcases exists_holding? 1 0 (show offset < Text.size source by omega) with ⟨line, held⟩
        rw [Nat.zero_add, none] at held
        cases held
      rw [atEnd]
      exact liesIn_atEnd source

/-- Every offset up to the end of a source has a line. -/
theorem exists_find? {source : List Char} {offset : Nat} (within : offset ≤ Text.size source) :
    exists line, find? source offset = some line := by
  rw [find?, if_neg (Nat.not_lt.mpr within)]
  split
  next line held => exact ⟨line, rfl⟩
  next => exact ⟨_, rfl⟩

/-- A newline ends the line that it is in. -/
theorem single_of_mem_lines {text row : List Char} (member : row ∈ lines text) :
    '\n' ∉ row.dropLast := by
  fun_induction lines text with
  | case1 text first later parts inductionHypothesis =>
      rcases List.mem_cons.mp member with rfl | behind
      · rcases split_eq_some parts with ⟨front, single, rfl, _⟩
        rwa [List.dropLast_concat]
      · exact inductionHypothesis behind
  | case2 => cases member
  | case3 text last parts some =>
      rcases split_eq_none parts with ⟨rfl, single⟩
      rw [List.mem_singleton.mp member]
      exact fun newline => single (List.dropLast_subset _ newline)

theorem mem_of_holding? {number start offset : Nat} {rows : List (List Char)} {line : SourceLine}
    (found : holding? number start offset rows = some line) : line.text ∈ rows := by
  fun_induction holding? number start offset rows with
  | case1 => cases found
  | case2 =>
      cases found
      exact List.mem_cons_self
  | case3 number start row later stop beyond inductionHypothesis =>
      exact List.mem_cons_of_mem _ (inductionHypothesis found)

theorem single_of_find? {source : List Char} {offset : Nat} {line : SourceLine}
    (found : find? source offset = some line) : '\n' ∉ line.text.dropLast := by
  rw [find?] at found
  split at found
  next => cases found
  next =>
    split at found
    next held =>
      cases found
      exact single_of_mem_lines (mem_of_holding? held)
    next =>
      cases found
      exact fun newline => (atEnd_text source).1 (List.dropLast_subset _ newline)

/-- The description leaves no choice. -/
theorem LiesIn.unique {first offset : Nat} {source : List UInt8} {line other : SourceLine}
    (lies : LiesIn first source offset line) (also : LiesIn first source offset other) :
    line = other := by
  cases line
  cases other
  rw [mk.injEq]
  exact ⟨lies.number.trans also.number.symm, Text.bytes_inj (lies.text.trans also.text.symm),
    lies.column.trans also.column.symm⟩

/-- There is a line for every offset within the source, and it is the one that the newlines
around the offset determine. -/
theorem find?_determined (source : String) (offset : Nat) :
    (find? source.toList offset = none <-> source.utf8ByteSize < offset) ∧
    forall line, find? source.toList offset = some line <->
      offset ≤ source.utf8ByteSize ∧ LiesIn 1 (Text.bytes source.toList) offset line := by
  have found : forall within : offset ≤ source.utf8ByteSize,
      exists line, find? source.toList offset = some line := by
    rw [← Text.size_toList]
    exact exists_find?
  have lies : forall line, find? source.toList offset = some line ->
      offset ≤ source.utf8ByteSize ∧ LiesIn 1 (Text.bytes source.toList) offset line := by
    intro line same
    rw [← Text.size_toList]
    exact liesIn_of_find? same
  constructor
  · constructor
    · intro none
      by_contra within
      rcases found (Nat.not_lt.mp within) with ⟨line, some⟩
      cases none.symm.trans some
    · intro beyond
      cases same : find? source.toList offset with
      | none => rfl
      | some line => exact absurd (lies line same).1 (Nat.not_le.mpr beyond)
  · intro line
    refine ⟨lies line, ?_⟩
    rintro ⟨within, place⟩
    rcases found within with ⟨other, same⟩
    rw [same, (lies other same).2.unique place]

/-- The offset behind a newline at the end of a source belongs to an empty line. -/
example : find? "é\n".toList 3 = some ⟨2, [], 0⟩ := by
  cbv

end SourceLine
end SignalScript
