import SignalScript.Proofs.Balance
import SignalScript.Proofs.Cuts
import SignalScript.Proofs.Pulling

namespace SignalScript

/-!
Sessions of reading.

A cursor that no one moves by hand can be asked for its next token and for what stands where it
stands, and it can be cloned and put back to a clone.  Whatever is asked, it stays between two
characters of the source or at one of its ends.  So there is always an answer, and only a clone
brings it back to where it has been.

The token list and the parser read in the same way.  The parser pulls its tokens one at a time and
may be refused in between.  Wherever this leaves it, a cursor that stands there reads what the
parser gets next.

An offset has 64 bits and wraps around.  This does not matter for a source that can be held in
memory with offsets of this size.
-/

namespace Cursor

/-- The cursor stands in the source, and not inside a character. -/
structure InPlace (file source : String) (cursor : Cursor) : Prop where
  named : cursor.file = file
  held : cursor.source = source.toList
  within : cursor.offset.toNat ≤ source.utf8ByteSize
  boundary : String.Pos.Raw.IsValid source ⟨cursor.offset.toNat⟩

/-- Where a cursor stands in place, a scanner of the source can stand. -/
theorem InPlace.exists_passes {file source : String} {cursor : Cursor}
    (inPlace : cursor.InPlace file source) :
    exists front scanner, Scanner.Passes (.ofSource file source) front scanner ∧
      scanner.cursor source.toList = cursor := by
  rcases String.Pos.Raw.isValid_iff_exists_append.mp inPlace.boundary with
    ⟨front, behind, whole, position⟩
  have offset : cursor.offset.toNat = Text.size front.toList :=
    (congrArg String.Pos.Raw.byteIdx position).trans (Text.size_toList front).symm
  refine ⟨front.toList, ⟨file, Text.size front.toList, behind.toList⟩, ⟨?rest, ?offset, rfl⟩, ?same⟩
  case rest => exact (congrArg String.toList whole).trans String.toList_append
  case offset => exact (Nat.zero_add _).symm
  case same =>
    rw [Scanner.cursor, ← offset, UInt64.ofNat_toNat, ← inPlace.named, ← inPlace.held]

end Cursor

namespace Scanner

theorem Passes.inPlace_cursor {file source : String} {front : List Char} {scanner : Scanner}
    (passed : Passes (ofSource file source) front scanner) (fits : source.utf8ByteSize < 2 ^ 64) :
    (scanner.cursor source.toList).InPlace file source where
  named := passed.file
  held := rfl
  within := by
    rw [passed.toNat_offset fits]
    exact passed.offset_le_size
  boundary := by
    have whole : source = String.ofList front ++ String.ofList scanner.rest := by
      rw [← String.ofList_append, ← passed.whole, String.ofList_toList]
    refine String.Pos.Raw.isValid_iff_exists_append.mpr ⟨_, _, whole, ?_⟩
    have size := Text.size_toList (String.ofList front)
    rw [String.toList_ofList] at size
    rw [passed.toNat_offset fits, passed.offset_eq, size]
    rfl

end Scanner

@[simp] theorem Reply.left_along {State Other Value : Type} (change : State -> Other)
    (reply : Reply State Value) : (reply.along change).left = change reply.left := by
  cases reply <;> rfl

/-! ## Sessions -/

/-- A cursor that is in use, and the clones that have been put aside, the first one first. -/
structure Session where
  cursor : Cursor
  clones : List Cursor

/-- What can be asked in a session.  The place of any number of bytes may be asked for, and a clone
is known by when it was made. -/
inductive Query where
  | next
  | character
  | remainder
  | atEnd
  | position
  | place (bytes : Nat)
  | clone
  | restore (index : Nat)

namespace Session

def ofSource (file source : String) : Session where
  cursor := .ofSource file source
  clones := []

/-- What a session is like behind a query, if there is an answer.  Where there is no such clone, the
cursor is left alone. -/
def ask (session : Session) : Query -> Option Session
  | .next => session.cursor.next?.map fun reply => ⟨reply.left, session.clones⟩
  | .character => session.cursor.character?.map fun _ => session
  | .remainder => session.cursor.rest?.map fun _ => session
  | .atEnd | .position | .place _ => some session
  | .clone => some ⟨session.cursor, session.clones ++ [session.cursor]⟩
  | .restore index => some ⟨session.clones.getD index session.cursor, session.clones⟩

/-- What a session is like behind some queries, if all of them have answers. -/
def run (queries : List Query) (session : Session) : Option Session :=
  queries.foldlM ask session

/-- All cursors of a session stand in the source, and not inside a character. -/
structure InPlace (file source : String) (session : Session) : Prop where
  cursor : session.cursor.InPlace file source
  clones : forall clone, clone ∈ session.clones -> clone.InPlace file source

section
variable {file source : String} {session : Session}

theorem inPlace_ofSource (file : String) {source : String} (fits : source.utf8ByteSize < 2 ^ 64) :
    (ofSource file source).InPlace file source where
  cursor := (Scanner.Passes.nothing (.ofSource file source)).inPlace_cursor fits
  clones := nofun

/-- A query has an answer in place, and only a restore can put the cursor back. -/
theorem InPlace.ask (inPlace : session.InPlace file source) (fits : source.utf8ByteSize < 2 ^ 64)
    (query : Query) :
    exists next, session.ask query = some next ∧ next.InPlace file source ∧
      ((forall index, query ≠ .restore index) -> session.cursor.offset ≤ next.cursor.offset) := by
  rcases inPlace.cursor.exists_passes with ⟨front, scanner, passed, same⟩
  have still : (forall index, query ≠ .restore index) ->
      session.cursor.offset ≤ session.cursor.offset := fun _ => UInt64.le_refl _
  cases query with
  | next =>
      rcases Scanner.passes_left scanner with ⟨text, onward⟩
      have further := passed.append onward
      refine ⟨⟨scanner.next.left.cursor source.toList, session.clones⟩, ?answer,
        ⟨further.inPlace_cursor fits, inPlace.clones⟩, fun _ => ?forward⟩
      case answer =>
        rw [Session.ask, ← same, passed.next?_cursor fits, Option.map_some, Reply.left_along]
      case forward =>
        rw [← same, UInt64.le_iff_toNat_le, passed.toNat_offset fits, further.toNat_offset fits]
        exact onward.offset_le
  | character =>
      refine ⟨session, ?_, inPlace, still⟩
      rw [Session.ask, Cursor.character?, ← same, passed.rest?_cursor fits]
      rfl
  | remainder =>
      refine ⟨session, ?_, inPlace, still⟩
      rw [Session.ask, ← same, passed.rest?_cursor fits]
      rfl
  | atEnd => exact ⟨session, rfl, inPlace, still⟩
  | position => exact ⟨session, rfl, inPlace, still⟩
  | place bytes => exact ⟨session, rfl, inPlace, still⟩
  | clone =>
      refine ⟨_, rfl, ⟨inPlace.cursor, ?_⟩, still⟩
      intro clone member
      rcases List.mem_append.mp member with earlier | new
      · exact inPlace.clones clone earlier
      · rw [List.mem_singleton.mp new]
        exact inPlace.cursor
  | restore index =>
      refine ⟨_, rfl, ⟨?_, inPlace.clones⟩, fun other => absurd rfl (other index)⟩
      rw [List.getD_eq_getElem?_getD]
      cases found : session.clones[index]? with
      | none => exact inPlace.cursor
      | some clone => exact inPlace.clones clone (List.mem_of_getElem? found)

/-- The same holds of any number of queries. -/
theorem InPlace.run (inPlace : session.InPlace file source) (fits : source.utf8ByteSize < 2 ^ 64)
    (queries : List Query) :
    exists last, session.run queries = some last ∧ last.InPlace file source ∧
      ((forall index, Query.restore index ∉ queries) ->
        session.cursor.offset ≤ last.cursor.offset) := by
  induction queries generalizing session with
  | nil => exact ⟨session, rfl, inPlace, fun _ => UInt64.le_refl _⟩
  | cons query queries inductionHypothesis =>
      rcases inPlace.ask fits query with ⟨next, answer, nextInPlace, step⟩
      rcases inductionHypothesis nextInPlace with ⟨last, answers, lastInPlace, steps⟩
      refine ⟨last, ?answers, lastInPlace, fun none => ?forward⟩
      case answers =>
        rw [Session.run, List.foldlM_cons, answer]
        exact answers
      case forward =>
        have first : session.cursor.offset ≤ next.cursor.offset :=
          step fun index same => none index (same ▸ List.mem_cons_self)
        have later : next.cursor.offset ≤ last.cursor.offset :=
          steps fun index member => none index (List.mem_cons_of_mem _ member)
        exact UInt64.le_trans first later

/-- The string takes four bytes, and the sign behind the blank cannot be read. -/
example :
    ((Session.ofSource "shell" "'é' §").run [.clone, .next, .next]).map (·.cursor.offset) =
      some 5 := by
  cbv

end

end Session

/-! ## Parsers -/

namespace Parser

/-- The cursor of a source that stands where the scanner of a parser does. -/
def cursor (source : String) (parser : Parser) : Cursor :=
  parser.scanner.cursor source.toList

/-- The cursor reads what the parser gets next. -/
structure ReadsOn (file source : String) (parser : Parser) : Prop where
  inPlace : (parser.cursor source).InPlace file source
  taken : forall token next, parser.advance = .done token next ->
    (parser.cursor source).Reads (.done next.ahead (next.cursor source))
  refused : forall fault left, parser.advance = .failed fault left ->
    (parser.cursor source).Reads (.failed fault (left.cursor source))

section
variable {file source : String} {first parser : Parser}

/-- Where a parser pulls its tokens, its scanner stays in the source. -/
theorem exists_passes_of_pulled {last : Parser} {tokens : List Token} {front : List Char}
    (pulled : Pulled parser tokens last)
    (passed : Scanner.Passes (.ofSource file source) front parser.scanner) :
    exists text, Scanner.Passes (.ofSource file source) text last.scanner := by
  induction pulled generalizing front with
  | stay => exact ⟨front, passed⟩
  | taken step _ inductionHypothesis =>
      rcases (Scanner.yields_of_next (advance_eq_done_iff.mp step).2.2).passes with ⟨_, onward⟩
      exact inductionHypothesis (passed.append onward)
  | refused step _ inductionHypothesis =>
      rcases (Scanner.clears_of_failed (advance_eq_failed_iff.mp step).2.2).1.passes with
        ⟨_, onward⟩
      exact inductionHypothesis (passed.append onward)
  | moved depth _ inductionHypothesis => exact inductionHypothesis passed

theorem readsOn_of_passes {front : List Char} (fits : source.utf8ByteSize < 2 ^ 64)
    (passed : Scanner.Passes (.ofSource file source) front parser.scanner) :
    parser.ReadsOn file source where
  inPlace := passed.inPlace_cursor fits
  taken token next step := by
    have reads := passed.reads_cursor fits
    rw [(advance_eq_done_iff.mp step).2.2] at reads
    exact reads
  refused fault left step := by
    have reads := passed.reads_cursor fits
    rw [(advance_eq_failed_iff.mp step).2.2] at reads
    exact reads

/-- The first token of a parser is what a cursor reads at the start of the source. -/
theorem reads_of_ofSource (fits : source.utf8ByteSize < 2 ^ 64)
    (opened : ofSource file source = .ok first) :
    (Cursor.ofSource file source).Reads (.done first.ahead (first.cursor source)) := by
  have reads := (Scanner.Passes.nothing (.ofSource file source)).reads_cursor fits
  rw [(ofSource_eq_ok_iff.mp opened).2] at reads
  exact reads

/-- Whatever a parser has been through, a cursor reads what it gets next. -/
theorem readsOn_of_reaches (fits : source.utf8ByteSize < 2 ^ 64)
    (opened : ofSource file source = .ok first) (reached : first.Reaches parser) :
    parser.ReadsOn file source := by
  rcases reached with ⟨tokens, pulled⟩
  rcases (Scanner.yields_of_next (ofSource_eq_ok_iff.mp opened).2).passes with ⟨_, passed⟩
  rcases exists_passes_of_pulled pulled passed with ⟨text, passedAll⟩
  exact readsOn_of_passes fits passedAll

theorem reaches_read (power : Power) (parser : Parser) :
    parser.Reaches (parser.read (some nestingLimit) power).left := by
  have reached := Operation.reaches_run (.expression power) parser
  rw [Operation.run, Reply.left_map] at reached
  exact reached

end

end Parser

/-- Reading a source never breaks off, whoever reads it. -/
structure Unbroken (file source : String) : Prop where
  /-- Whatever is asked has an answer, and every cursor stays in place. -/
  answered : forall queries, exists session,
    (Session.ofSource file source).run queries = some session ∧ session.InPlace file source
  /-- A cursor is not put back unless by a restore. -/
  forward : forall earlier later middle last,
    (Session.ofSource file source).run earlier = some middle -> middle.run later = some last ->
    (forall index, Query.restore index ∉ later) -> middle.cursor.offset ≤ last.cursor.offset
  /-- Wherever a cursor is in place, all cuts are possible, and it is in place afterwards. -/
  cuts : forall cursor : Cursor, cursor.InPlace file source ->
    exists reply, cursor.Reads reply ∧ reply.left.InPlace file source
  /-- The token list, or its fault, is what a cursor reads from the start on. -/
  listed : (Cursor.ofSource file source).Lists (tokenize file source)
  /-- A parser that cannot be opened has the fault that a cursor gets. -/
  refused : forall fault, Parser.ofSource file source = .error fault ->
    parse file source = .error fault ∧
      exists left, (Cursor.ofSource file source).Reads (.failed fault left)
  /-- A parser that can be opened holds the token that a cursor gets. -/
  opened : forall first, Parser.ofSource file source = .ok first ->
    (Cursor.ofSource file source).Reads (.done first.ahead (first.cursor source))
  /-- Whatever the parser has been asked for, a cursor reads what it gets next. -/
  pulled : forall first parser, Parser.ofSource file source = .ok first ->
    first.Reaches parser -> parser.ReadsOn file source
  /-- A parse is one of these things that it can be asked for. -/
  parsed : forall first, Parser.ofSource file source = .ok first ->
    first.Reaches (first.read (some Parser.nestingLimit) .loosest).left ∧
      parse file source =
        match first.read (some Parser.nestingLimit) .loosest with
        | .failed fault _ => .error fault
        | .done tree last => last.conclude tree

/-- No reading of a source ever breaks off.  A source that is held in memory has fewer than `2 ^ 64`
bytes, so that an offset into it fits into a cursor. -/
theorem reading_unbroken {file source : String} (fits : source.utf8ByteSize < 2 ^ 64) :
    Unbroken file source where
  answered queries := by
    rcases (Session.inPlace_ofSource file fits).run fits queries with ⟨last, answers, inPlace, _⟩
    exact ⟨last, answers, inPlace⟩
  forward earlier later middle last reached answers none := by
    rcases (Session.inPlace_ofSource file fits).run fits earlier with ⟨_, same, inPlace, _⟩
    cases reached.symm.trans same
    rcases inPlace.run fits later with ⟨_, same, _, forward⟩
    cases answers.symm.trans same
    exact forward none
  cuts cursor inPlace := by
    rcases inPlace.exists_passes with ⟨front, scanner, passed, rfl⟩
    rcases Scanner.passes_left scanner with ⟨text, onward⟩
    refine ⟨_, passed.reads_cursor fits, ?_⟩
    rw [Reply.left_along]
    exact (passed.append onward).inPlace_cursor fits
  listed := Scanner.lists_ofSource file fits
  refused fault unopened := by
    refine ⟨parseWithin_of_error unopened, ?_⟩
    have reads := (Scanner.Passes.nothing (.ofSource file source)).reads_cursor fits
    rcases Parser.ofSource_eq_error_iff.mp unopened with ⟨left, reading⟩
    rw [reading] at reads
    exact ⟨_, reads⟩
  opened first := Parser.reads_of_ofSource fits
  pulled first parser := Parser.readsOn_of_reaches fits
  parsed first opened := ⟨first.reaches_read .loosest, parseWithin_eq opened⟩

theorem reading_unbroken_accented :
    "x = 'é' §".utf8ByteSize < 2 ^ 64 ∧ Unbroken "shell" "x = 'é' §" :=
  ⟨by decide, reading_unbroken (by decide)⟩

end SignalScript
