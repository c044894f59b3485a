import Mathlib
import SignalScript.Proofs.Parts

namespace SignalScript

/-!
Laying a notation out once more changes nothing, and laying it out loses nothing but blanks.

A layout replaces the blanks in front of an inner bracket.  When it is laid out again, the blanks in
front of that bracket are the ones just written, they are taken away once more, and the same ones
are written in their place.  For this the count of open brackets has to agree at every bracket of
both passes.  It does, because blanks do not take part in the count.  The argument is about rows of
parts and makes no use of balanced brackets or of closed quoted texts.
-/

namespace Layout

/-! ## Blanks -/

theorem put_blank {part : Part} (blank : part.isBlank = true) (draft : Draft) :
    draft.put part = { written := part :: draft.written, opened := draft.opened } := by
  refine put_other draft ?opens ?closes
  case opens =>
    rintro rfl
    exact absurd blank (by decide)
  case closes =>
    rintro rfl
    exact absurd blank (by decide)

/-- Blank parts are written as they are and change no count. -/
theorem foldl_put_blanks {blanks : List Part}
    (blank : forall part, part ∈ blanks -> part.isBlank = true) (draft : Draft) :
    blanks.foldl Draft.put draft =
      { written := blanks.reverse ++ draft.written, opened := draft.opened } := by
  induction blanks generalizing draft with
  | nil => rfl
  | cons part blanks inductionHypothesis =>
      rw [List.foldl_cons, put_blank (blank part List.mem_cons_self),
        inductionHypothesis fun other member => blank other (List.mem_cons_of_mem _ member),
        List.reverse_cons, List.append_assoc, List.singleton_append]

theorem draftOf_append (front back : List Part) :
    draftOf (front ++ back) = back.foldl Draft.put (draftOf front) :=
  List.foldl_append

theorem draftOf_snoc (row : List Part) (part : Part) :
    draftOf (row ++ [part]) = (draftOf row).put part := by
  rw [draftOf_append, List.foldl_cons, List.foldl_nil]

/-- The blanks that a new row starts with. -/
def rowStart (opened : Nat) : List Part :=
  .bare '\n' :: List.replicate (2 * opened) (.bare ' ')

theorem isBlank_of_mem_rowStart {opened : Nat} {part : Part} (member : part ∈ rowStart opened) :
    part.isBlank = true := by
  rcases List.mem_cons.mp member with rfl | member
  · decide
  · rw [(List.mem_replicate.mp member).2]
    decide

theorem newRow_eq (opened : Nat) (written : List Part) :
    newRow opened written = (rowStart opened).reverse ++ written.dropWhile Part.isBlank := by
  rw [newRow, rowStart, List.reverse_cons, List.reverse_replicate, List.append_assoc,
    List.singleton_append]

/-- A new row can be started again in the place where it was started. -/
theorem newRow_rowStart (opened : Nat) (written : List Part) :
    newRow opened ((rowStart opened).reverse ++ written.dropWhile Part.isBlank) =
      newRow opened written := by
  have blank : forall part, part ∈ (rowStart opened).reverse -> part.isBlank = true :=
    fun part member => isBlank_of_mem_rowStart (List.mem_reverse.mp member)
  rw [newRow, List.dropWhile_append_of_pos blank, List.dropWhile_idempotent, newRow]

/-! ## The second layout -/

/-- A draft is settled when laying it out again gives the same draft. -/
def Draft.Settled (draft : Draft) : Prop :=
  draftOf draft.written.reverse = draft

/-- A settled draft stays settled when the blanks written last are taken away. -/
theorem Draft.Settled.dropWhile {written : List Part} {opened : Nat}
    (settled : Settled { written := written, opened := opened }) :
    Settled { written := written.dropWhile Part.isBlank, opened := opened } := by
  have blank : forall part, part ∈ (written.takeWhile Part.isBlank).reverse ->
      part.isBlank = true :=
    fun part member => List.mem_takeWhile_imp (List.mem_reverse.mp member)
  have whole := List.takeWhile_append_dropWhile (p := Part.isBlank) (l := written)
  unfold Settled at settled ⊢
  rcases shorter : draftOf (written.dropWhile Part.isBlank).reverse with ⟨kept, count⟩
  have again : draftOf written.reverse =
      { written := written.takeWhile Part.isBlank ++ kept, opened := count } := by
    rw [← whole, List.reverse_append, draftOf_append, shorter, foldl_put_blanks blank,
      List.reverse_reverse, whole]
  rcases Draft.mk.inj (again.symm.trans settled) with ⟨same, rfl⟩
  rw [List.append_cancel_left (same.trans whole.symm)]

/-- One more part keeps a draft settled. -/
theorem Draft.Settled.put {draft : Draft} (settled : draft.Settled) (part : Part) :
    (draft.put part).Settled := by
  rcases written_put draft part with same | ⟨rfl, inner, same⟩
  · rw [Settled, same, List.reverse_cons, draftOf_snoc, settled]
  · -- In front of the bracket the second pass has written the new row of the first.  It takes that
    -- row away again and starts it once more, with the same count.
    rcases draft with ⟨written, opened⟩
    have trimmed : draftOf (written.dropWhile Part.isBlank).reverse =
        { written := written.dropWhile Part.isBlank, opened := opened } :=
      settled.dropWhile
    have ready : draftOf (newRow opened written).reverse =
        { written := newRow opened written, opened := opened } := by
      rw [newRow_eq, List.reverse_append, List.reverse_reverse, draftOf_append, trimmed,
        foldl_put_blanks fun part member => isBlank_of_mem_rowStart member]
    rw [Settled, same, List.reverse_cons, draftOf_snoc, ready, put_bracket, put_bracket,
      if_pos inner, if_pos inner, newRow_eq opened written, newRow_rowStart, newRow_eq]

theorem settled_draftOf (row : List Part) : (draftOf row).Settled := by
  induction row using List.reverseRecOn with
  | nil => rfl
  | append_singleton row part inductionHypothesis =>
      rw [draftOf_snoc]
      exact inductionHypothesis.put part

theorem lay_lay (row : List Part) : lay (lay row) = lay row := by
  rw [lay, lay, settled_draftOf row]

/-! ## What is kept -/

/-- A part that is no blank.  Nothing takes it away once it is written. -/
def Part.isKept (part : Part) : Bool :=
  !part.isBlank

theorem filter_dropWhile (written : List Part) :
    (written.dropWhile Part.isBlank).filter Part.isKept = written.filter Part.isKept := by
  induction written with
  | nil => rfl
  | cons part written inductionHypothesis =>
      cases blank : part.isBlank with
      | true => simp [Part.isKept, blank, inductionHypothesis]
      | false => rw [List.dropWhile_cons_of_neg (by simp [blank])]

theorem filter_newRow (opened : Nat) (written : List Part) :
    (newRow opened written).filter Part.isKept = written.filter Part.isKept := by
  have none : (rowStart opened).reverse.filter Part.isKept = [] :=
    List.filter_eq_nil_iff.mpr fun part member => by
      simp [Part.isKept, isBlank_of_mem_rowStart (List.mem_reverse.mp member)]
  rw [newRow_eq, List.filter_append, none, filter_dropWhile, List.nil_append]

/-- A layout has the parts that are no blanks in the order of the row. -/
theorem filter_lay (row : List Part) : (lay row).filter Part.isKept = row.filter Part.isKept := by
  induction row using List.reverseRecOn with
  | nil => rfl
  | append_singleton row part inductionHypothesis =>
      have kept : ((draftOf (row ++ [part])).written).filter Part.isKept =
          (part :: (draftOf row).written).filter Part.isKept := by
        rw [draftOf_snoc]
        rcases written_put (draftOf row) part with same | ⟨_, _, same⟩
        · rw [same]
        · rw [same, List.filter_cons, List.filter_cons, filter_newRow]
      rw [lay, List.filter_reverse, kept, ← List.filter_reverse, List.reverse_cons,
        List.filter_append, List.filter_append, ← inductionHypothesis, lay]

/-- The text of a quoted part. -/
def Part.quoted? : Part -> Option (List Char)
  | bare _ => none
  | quoted text => some text

/-- A text without the blanks that stand outside quotation marks. -/
def withoutBlanks (text : List Char) : List Char :=
  unparted ((parts text).filter Part.isKept)

/-- The quoted texts of a text in order. -/
def quotations (text : List Char) : List (List Char) :=
  (parts text).filterMap Part.quoted?

/-- Blanks are not quoted. -/
theorem filterMap_filter (row : List Part) :
    (row.filter Part.isKept).filterMap Part.quoted? = row.filterMap Part.quoted? := by
  rw [List.filterMap_filter]
  refine List.filterMap_congr fun part _ => ?_
  cases part with
  | bare c => simp [Part.quoted?]
  | quoted text => rfl

/-- Laying a text out a second time changes nothing.  Laying it out keeps every character that is
no blank outside quotation marks, and keeps the quoted texts. -/
theorem spread_settles (text : List Char) :
    spread (spread text) = spread text ∧
      withoutBlanks (spread text) = withoutBlanks text ∧
      quotations (spread text) = quotations text := by
  have kept := filter_lay (parts text)
  refine ⟨?again, ?blanks, ?quoted⟩
  case again => rw [spread_eq (spread text), parts_spread, lay_lay, ← spread_eq]
  case blanks => rw [withoutBlanks, parts_spread, kept, withoutBlanks]
  case quoted =>
    rw [quotations, parts_spread, ← filterMap_filter, kept, filterMap_filter, quotations]

example : spread "] [a \t [b 'c  [".toList = "] [a\n  [b 'c  [".toList := by decide

end Layout
end SignalScript
