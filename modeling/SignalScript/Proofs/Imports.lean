import Mathlib
import SignalScript.ImportSpec

namespace SignalScript

/-!
Import specifications and the texts that name them.

A text is cut at its first `#`.  What stands in front of it names the module, and what stands
behind it names the symbols, one between any two commas.  A name loses the blanks around it, and
a piece that holds nothing else names no symbol.  The relation `ReadsAs` says this without
splitting or trimming anything: it asks for parts that make up the text.

A specification that was read has a normal form.  The normal form leaves nothing to be cut or
trimmed, so writing such a specification down and reading it again changes nothing, and no other
specification can come back from its own writing.
-/

namespace Text

/-! ## Blanks at the ends -/

/-- There is no blank at either end of a text. -/
structure Tight (text : List Char) : Prop where
  first : forall c, text.head? = some c -> isBlank c = false
  last : forall c, text.getLast? = some c -> isBlank c = false

/-- A text is another one with nothing but blanks around it. -/
def Surrounds (text core : List Char) : Prop :=
  Tight core ∧ exists lead trail, text = lead ++ (core ++ trail) ∧
    forall c, c ∈ lead ++ trail -> isBlank c = true

theorem trimEnd_eq_self {text : List Char} (tight : Tight text) : trimEnd text = text := by
  refine List.rdropWhile_eq_self_iff.mpr ?_
  intro some
  rw [tight.last _ (List.getLast?_eq_some_getLast some)]
  exact Bool.false_ne_true

theorem surrounds_trim (text : List Char) : Surrounds text (trim text) := by
  have behind : trim text ++ (trimStart text).rtakeWhile isBlank = trimStart text :=
    List.rdropWhile_append_rtakeWhile
  refine ⟨⟨?_, ?_⟩, text.takeWhile isBlank, (trimStart text).rtakeWhile isBlank, ?_, ?_⟩
  · intro c first
    have inFront : (trimStart text).head? = some c := by
      rw [← behind, List.head?_append, first, Option.some_or]
    have stops := List.head?_dropWhile_not isBlank text
    rw [← trimStart, inFront] at stops
    exact stops
  · intro c last
    have stops := List.head?_dropWhile_not isBlank (trimStart text).reverse
    rw [trim, trimEnd, List.getLast?_reverse] at last
    rw [last] at stops
    exact stops
  · rw [behind, trimStart, List.takeWhile_append_dropWhile]
  · intro c member
    rcases List.mem_append.mp member with front | back
    · exact List.mem_takeWhile_imp front
    · exact List.mem_rtakeWhile_imp back

/-- Only one text without blanks at its ends is left of a text. -/
theorem Surrounds.eq_trim {text core : List Char} (surrounds : Surrounds text core) :
    core = trim text := by
  rcases surrounds with ⟨tight, lead, trail, rfl, blank⟩
  have front : trimStart (lead ++ (core ++ trail)) = trimStart (core ++ trail) :=
    List.dropWhile_append_of_pos fun c member => blank c (List.mem_append_left _ member)
  have back : trimEnd (core ++ trail) = trimEnd core := by
    rw [trimEnd, trimEnd, List.reverse_append, List.dropWhile_append_of_pos]
    intro c member
    exact blank c (List.mem_append_right _ (List.mem_reverse.mp member))
  rw [trim, front]
  cases core with
  | nil =>
      have nothing : trimStart ([] ++ trail) = [] :=
        List.dropWhile_eq_nil_iff.mpr fun c member => blank c (List.mem_append_right _ member)
      rw [nothing]
      rfl
  | cons c rest =>
      have kept : trimStart (c :: rest ++ trail) = c :: rest ++ trail := by
        rw [List.cons_append, trimStart, List.dropWhile_cons_of_neg]
        rw [tight.first c rfl]
        exact Bool.false_ne_true
      rw [kept, back, trimEnd_eq_self tight]

theorem surrounds_iff {text core : List Char} : Surrounds text core <-> core = trim text := by
  constructor
  · exact Surrounds.eq_trim
  · rintro rfl
    exact surrounds_trim text

theorem surrounds_self {text : List Char} (tight : Tight text) : Surrounds text text :=
  ⟨tight, [], [], by simp, nofun⟩

theorem Surrounds.mem {text core : List Char} {c : Char} (surrounds : Surrounds text core)
    (member : c ∈ core) : c ∈ text := by
  rcases surrounds with ⟨_, lead, trail, rfl, _⟩
  exact List.mem_append_right _ (List.mem_append_left _ member)

/-- Something is left of a text exactly when it is not blank altogether. -/
theorem Surrounds.ne_nil_iff {text core : List Char} (surrounds : Surrounds text core) :
    core ≠ [] <-> text.any (fun c => !isBlank c) = true := by
  rcases surrounds with ⟨tight, lead, trail, rfl, blank⟩
  rw [List.any_eq_true]
  constructor
  · intro some
    rcases List.exists_cons_of_ne_nil some with ⟨c, rest, rfl⟩
    exact ⟨c, List.mem_append_right _ (List.mem_append_left _ List.mem_cons_self),
      by rw [tight.first c rfl]; rfl⟩
  · rintro ⟨c, member, visible⟩ rfl
    rw [List.nil_append] at member
    rw [blank c member] at visible
    cases visible

/-! ## Pieces -/

theorem pieces_cons (separator c : Char) (text : List Char) :
    pieces separator (c :: text) =
      if c = separator then [] :: pieces separator text
      else growFirst c (pieces separator text) := rfl

theorem pieces_eq_splitOn (separator : Char) (text : List Char) :
    pieces separator text = text.splitOn separator := by
  induction text with
  | nil => rfl
  | cons c text inductionHypothesis =>
      rw [pieces_cons, List.splitOn_cons_eq_if_modifyHead, inductionHypothesis, beq_eq_decide]
      by_cases same : c = separator
      · rw [if_pos same, if_pos (decide_eq_true same)]
      · rw [if_neg same, if_neg (by simpa using same)]
        rcases List.exists_cons_of_ne_nil (List.splitOn_ne_nil separator text) with
          ⟨first, later, found⟩
        rw [found]
        rfl

theorem not_mem_of_mem_pieces {separator : Char} {text piece : List Char}
    (member : piece ∈ pieces separator text) : separator ∉ piece := by
  induction text generalizing piece with
  | nil =>
      rw [List.mem_singleton.mp member]
      exact List.not_mem_nil
  | cons c text inductionHypothesis =>
      rw [pieces_cons] at member
      split at member
      next =>
        rcases List.mem_cons.mp member with rfl | later
        · exact List.not_mem_nil
        · exact inductionHypothesis later
      next other =>
        cases found : pieces separator text with
        | nil =>
            rw [found, growFirst, List.mem_singleton] at member
            rw [member, List.mem_singleton]
            exact fun same => other same.symm
        | cons first later =>
            rw [found, growFirst, List.mem_cons] at member
            rw [found] at inductionHypothesis
            rcases member with rfl | behind
            · rw [List.mem_cons, not_or]
              exact ⟨fun same => other same.symm, inductionHypothesis List.mem_cons_self⟩
            · exact inductionHypothesis (List.mem_cons_of_mem _ behind)

/-- The pieces of a text are the only ones without a separator that make it up. -/
theorem pieces_eq_iff {separator : Char} {text : List Char} {parts : List (List Char)} :
    pieces separator text = parts <->
      parts ≠ [] ∧ (forall part, part ∈ parts -> separator ∉ part) ∧
        [separator].intercalate parts = text := by
  constructor
  · rintro rfl
    refine ⟨?_, fun part member => not_mem_of_mem_pieces member, ?_⟩
    · rw [pieces_eq_splitOn]
      exact List.splitOn_ne_nil separator text
    · rw [pieces_eq_splitOn]
      exact List.intercalate_splitOn separator
  · rintro ⟨some, free, rfl⟩
    rw [pieces_eq_splitOn]
    exact List.splitOn_intercalate separator free some

end Text

namespace ImportSpec

/-! ## What a text says -/

/-- What the string of an import says.  Without a `#` it names a module only.  Otherwise the
symbols are the names between the commas behind the first `#`, and a piece that is blank names
none. -/
inductive ReadsAs : List Char -> ImportSpec -> Prop
  | whole {text path : List Char} :
      '#' ∉ text -> Text.Surrounds text path -> ReadsAs text ⟨path, []⟩
  | listed {front path : List Char} {pieces symbols : List (List Char)} :
      '#' ∉ front -> Text.Surrounds front path ->
      pieces ≠ [] -> (forall piece, piece ∈ pieces -> ',' ∉ piece) ->
      List.Forall₂ Text.Surrounds
        (pieces.filter fun piece => piece.any fun c => !Text.isBlank c) symbols ->
      ReadsAs (front ++ '#' :: [','].intercalate pieces) ⟨path, symbols⟩

/-- Nothing is left to be cut or trimmed. -/
structure Normal (spec : ImportSpec) : Prop where
  unmarked : '#' ∉ spec.path
  tight : Text.Tight spec.path
  symbols : forall symbol, symbol ∈ spec.symbols ->
    symbol ≠ [] ∧ ',' ∉ symbol ∧ Text.Tight symbol

/-- A specification as one text. -/
def written (spec : ImportSpec) : List Char :=
  match spec.symbols with
  | [] => spec.path
  | symbols => spec.path ++ '#' :: [','].intercalate symbols

theorem ReadsAs.normal {text : List Char} {spec : ImportSpec} (reads : ReadsAs text spec) :
    spec.Normal := by
  cases reads with
  | whole unmarked around =>
      exact ⟨fun member => unmarked (around.mem member), around.1, nofun⟩
  | listed unmarked around some free named =>
      refine ⟨fun member => unmarked (around.mem member), around.1, ?_⟩
      intro symbol member
      rcases List.mem_iff_getElem.mp member with ⟨place, bound, rfl⟩
      have inPieces := named.length_eq ▸ bound
      have names := named.get inPieces bound
      rcases List.mem_filter.mp (List.getElem_mem inPieces) with ⟨listed, visible⟩
      exact ⟨names.ne_nil_iff.mpr visible, fun comma => free _ listed (names.mem comma), names.1⟩

/-- The symbols are the pieces that are not blank, without the blanks at their ends. -/
theorem symbolsOf_eq_iff {text : List Char} {symbols : List (List Char)} :
    symbolsOf text = symbols <->
      List.Forall₂ Text.Surrounds
        ((Text.pieces ',' text).filter fun piece => piece.any fun c => !Text.isBlank c)
        symbols := by
  have visible : ((Text.pieces ',' text).map Text.trim).filter (fun symbol => !symbol.isEmpty) =
      ((Text.pieces ',' text).filter fun piece => piece.any fun c => !Text.isBlank c).map
        Text.trim := by
    rw [List.filter_map]
    refine congrArg (List.map Text.trim) (List.filter_congr ?_)
    intro piece _
    rw [Bool.eq_iff_iff, ← (Text.surrounds_trim piece).ne_nil_iff]
    simp
  have trims : Text.Surrounds = fun text core => Text.trim text = core := by
    funext text core
    exact propext (Text.surrounds_iff.trans eq_comm)
  rw [symbolsOf, visible, trims, ← List.forall₂_map_left_iff (R := fun left right => left = right),
    List.forall₂_eq_eq_eq]

theorem differs_of_unmarked {text : List Char} (unmarked : '#' ∉ text) :
    forall c, c ∈ text -> (c != '#') = true := by
  intro c member
  rw [bne_iff_ne]
  rintro rfl
  exact unmarked member

theorem ofText_of_unmarked {text : List Char} (unmarked : '#' ∉ text) :
    ofText text = ⟨Text.trim text, []⟩ := by
  have plain := differs_of_unmarked unmarked
  rw [ofText, List.takeWhile_eq_self_iff.mpr plain, List.dropWhile_eq_nil_iff.mpr plain]

theorem ofText_of_marked {front : List Char} (unmarked : '#' ∉ front) (listed : List Char) :
    ofText (front ++ '#' :: listed) = ⟨Text.trim front, symbolsOf listed⟩ := by
  have plain := differs_of_unmarked unmarked
  rw [ofText, List.takeWhile_append_of_pos plain, List.dropWhile_append_of_pos plain,
    List.takeWhile_cons_of_neg (p := fun c => c != '#') (by decide),
    List.dropWhile_cons_of_neg (p := fun c => c != '#') (by decide), List.append_nil]

theorem readsAs_ofText (text : List Char) : ReadsAs text (ofText text) := by
  by_cases marked : '#' ∈ text
  · rcases List.eq_append_cons_of_mem marked with ⟨front, listed, rfl, unmarked⟩
    rcases Text.pieces_eq_iff.mp (Eq.refl (Text.pieces ',' listed)) with ⟨some, free, whole⟩
    have named := symbolsOf_eq_iff.mp (Eq.refl (symbolsOf listed))
    have reads := ReadsAs.listed unmarked (Text.surrounds_trim front) some free named
    rw [whole] at reads
    rw [ofText_of_marked unmarked]
    exact reads
  · rw [ofText_of_unmarked marked]
    exact .whole marked (Text.surrounds_trim text)

/-- A text says only one thing. -/
theorem ReadsAs.ofText_eq {text : List Char} {spec : ImportSpec} (reads : ReadsAs text spec) :
    ofText text = spec := by
  cases reads with
  | whole unmarked around => rw [ofText_of_unmarked unmarked, around.eq_trim]
  | listed unmarked around some free named =>
      have cut := Text.pieces_eq_iff.mpr ⟨some, free, rfl⟩
      rw [ofText_of_marked unmarked, around.eq_trim, symbolsOf_eq_iff.mpr (cut ▸ named)]

/-- What a specification in normal form is written as says that specification. -/
theorem Normal.readsAs {spec : ImportSpec} (normal : spec.Normal) :
    ReadsAs spec.written spec := by
  rcases spec with ⟨path, symbols⟩
  have around := Text.surrounds_self normal.tight
  cases symbols with
  | nil => exact .whole normal.unmarked around
  | cons symbol later =>
      refine .listed normal.unmarked around (List.cons_ne_nil symbol later)
        (fun piece member => (normal.symbols piece member).2.1) ?_
      have visible : (symbol :: later).filter (fun piece => piece.any fun c => !Text.isBlank c) =
          symbol :: later := by
        refine List.filter_eq_self.mpr ?_
        intro piece member
        rcases normal.symbols piece member with ⟨some, _, tight⟩
        exact (Text.surrounds_self tight).ne_nil_iff.mp some
      rw [visible]
      exact List.forall₂_same.mpr fun piece member =>
        Text.surrounds_self (normal.symbols piece member).2.2

theorem Normal.ofText_written {spec : ImportSpec} (normal : spec.Normal) :
    ofText spec.written = spec :=
  normal.readsAs.ofText_eq

end ImportSpec

/-- A text is read as the specification that it says, which is in normal form.  The specifications
in normal form are those that come back when they are written down and read again. -/
theorem ofText_normal (text : List Char) (spec : ImportSpec) :
    (ImportSpec.ofText text).Normal ∧
    ImportSpec.ReadsAs text (ImportSpec.ofText text) ∧
    ImportSpec.ofText (ImportSpec.ofText text).written = ImportSpec.ofText text ∧
    (spec.Normal <-> ImportSpec.ofText spec.written = spec) := by
  have reads := ImportSpec.readsAs_ofText text
  refine ⟨reads.normal, reads, reads.normal.ofText_written, ?_⟩
  constructor
  · exact ImportSpec.Normal.ofText_written
  · intro back
    rw [← back]
    exact (ImportSpec.readsAs_ofText spec.written).normal

/-- A symbol may hold the sign that ends the path, and a path the sign between symbols. -/
example : ImportSpec.ofText " a,b # c#d ,, e".toList =
    ⟨"a,b".toList, ["c#d".toList, "e".toList]⟩ := by
  decide

end SignalScript
