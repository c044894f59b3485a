import SignalScript.Proofs.Completeness
import SignalScript.Proofs.Extent
import SignalScript.Proofs.Location
import SignalScript.Proofs.Refusal

namespace SignalScript

/-!
Input behind a complete program.

An expression ends in front of a token that cannot continue it.  Which token that is makes
no difference: had the source ended there, the expression would have been read in the same
way.  To prove this, a parser runs beside a twin whose source is cut off in front of the
token.  The two take the same tokens, and the twin may hold the end of the input only where
the parser holds the token at which it stops.

Nothing inside an expression complains of a token that is merely left over.  So when a parse
does, what stands in front of that token is a program of its own.
-/

theorem Scanner.isScanned_of_next {scanner after : Scanner} {fault : Fault}
    (read : scanner.next = .failed fault after) : fault.cause.isScanned = true := by
  rcases (clears_of_failed read).2 with ⟨c, rest, _, _, rfl⟩
  rw [faultAt]
  split <;> rfl

namespace Parser

theorem isScanned_of_ofSource {file source : String} {fault : Fault}
    (opened : ofSource file source = .error fault) : fault.cause.isScanned = true := by
  rcases ofSource_eq_error_iff.mp opened with ⟨left, read⟩
  exact Scanner.isScanned_of_next read

/-! ## A parser beside its twin -/

/-- The same tokens lead a parser to the state `cut` and its twin to the state `ended`. -/
structure Shadows (cut ended parser twin : Parser) : Prop where
  depth : twin.depth = parser.depth
  trails : exists tokens, Trail parser tokens (cut.atDepth parser.depth) ∧
    Trail twin tokens (ended.atDepth parser.depth)

/-- The twin succeeds with the same value, and it stays beside the parser. -/
def Echoes {Value : Type} (cut ended : Parser) (value : Value) (last : Parser)
    (twinReply : Reply Parser Value) : Prop :=
  exists twinLast, twinReply = .done value twinLast ∧ Shadows cut ended last twinLast

section
variable {cut ended parser twin : Parser}

namespace Shadows

theorem atDepth (shadows : Shadows cut ended parser twin) (depth : Nat) :
    Shadows cut ended (parser.atDepth depth) (twin.atDepth depth) := by
  rcases shadows.trails with ⟨tokens, trail, twinTrail⟩
  exact ⟨rfl, tokens, trail.atDepth depth, twinTrail.atDepth depth⟩

/-- A parser that can move on without passing the cut is not there yet. -/
theorem uncut (shadows : Shadows cut ended parser twin)
    (more : cut.ahead.kind ≠ .endOfInput) (kept : cut.weight ≤ parser.unread) :
    twin.ahead = parser.ahead ∧ exists next twinNext,
      parser.advance = .done parser.ahead next ∧
      twin.advance = .done parser.ahead twinNext ∧ Shadows cut ended next twinNext := by
  rcases shadows.trails with ⟨tokens, trail, twinTrail⟩
  cases tokens with
  | nil =>
      -- At the cut there is nothing left to take that weighs as much as the cut itself.
      have lighter : cut.unread < cut.weight := unread_lt_weight more
      have same : cut.unread = parser.unread := by
        rw [← trail.eq_of_nil]
        rfl
      omega
  | cons token tokens =>
      rcases trail.uncons with ⟨rfl, _, next, taken, rest⟩
      rcases twinTrail.uncons with ⟨held, _, twinNext, twinTaken, twinRest⟩
      have depth := depth_of_advance taken
      refine ⟨held.symm, next, twinNext, taken, twinTaken, ?_, tokens, ?_, ?_⟩
      · rw [depth_of_advance twinTaken, shadows.depth, depth]
      · rw [depth]
        exact rest
      · rw [depth]
        exact twinRest

/-- What the parser takes, its twin takes too. -/
theorem advance {token : Token} {next : Parser} (shadows : Shadows cut ended parser twin)
    (more : cut.ahead.kind ≠ .endOfInput) (taken : parser.advance = .done token next)
    (kept : cut.weight ≤ next.weight) : Echoes cut ended token next twin.advance := by
  rcases shadows.uncut more (Nat.le_trans kept (weight_of_advance taken)) with
    ⟨_, other, twinNext, same, twinTaken, beside⟩
  cases taken.symm.trans same
  exact ⟨twinNext, twinTaken, beside⟩

/-- The twin holds the same token or the end of the input. -/
theorem ahead (shadows : Shadows cut ended parser twin)
    (atEnd : ended.ahead.kind = .endOfInput) :
    twin.ahead = parser.ahead ∨ twin.ahead.kind = .endOfInput := by
  rcases shadows.trails with ⟨tokens, trail, twinTrail⟩
  cases tokens with
  | nil =>
      right
      rw [← twinTrail.eq_of_nil]
      exact atEnd
  | cons token tokens =>
      left
      exact twinTrail.uncons.1.symm.trans trail.uncons.1

/-- What is true of the held token, and would be of the end of the input, is true of the
token that the twin holds. -/
theorem kind (shadows : Shadows cut ended parser twin)
    (atEnd : ended.ahead.kind = .endOfInput) (holds : Kind -> Prop)
    (held : holds parser.ahead.kind) (none : holds .endOfInput) : holds twin.ahead.kind := by
  rcases shadows.ahead atEnd with same | stopped
  · rw [same]
    exact held
  · rw [stopped]
    exact none

end Shadows

/-- A successful reading has started with a token that can start one. -/
theorem startsExpression_of_read {limit : Option Nat} {power : Power} {tree : Tree}
    {last : Parser} (reply : parser.read limit power = .done tree last) :
    parser.ahead.kind.startsExpression = true := by
  rcases (read_reads reply).spelled with ⟨levels, tokens, spelled, trail⟩
  exact startsExpression_of_trail spelled (by rw [List.append_nil]; exact trail)

/-- What a literal denotes does not depend on the parser. -/
theorem atom_eq_done {token : Token} {tree : Tree} {next last : Parser}
    (denoted : parser.atom token next = .done tree last) :
    last = next ∧ forall other otherNext : Parser,
      other.atom token otherNext = .done tree otherNext := by
  unfold atom at denoted ⊢
  split at denoted
  next =>
    split at denoted
    next inRange =>
      cases denoted
      exact ⟨rfl, fun _ _ => if_pos inRange⟩
    next => cases denoted
  next =>
    cases denoted
    exact ⟨rfl, fun _ _ => rfl⟩
  next =>
    cases denoted
    exact ⟨rfl, fun _ _ => rfl⟩
  next => cases denoted

/-- The depth alone decides whether another level is allowed. -/
theorem tooDeep?_none_of_depth {limit : Option Nat} (same : twin.depth = parser.depth)
    (allowed : parser.tooDeep? limit = none) : twin.tooDeep? limit = none := by
  cases limit with
  | none => rfl
  | some levels =>
      rw [tooDeep?] at allowed ⊢
      split at allowed
      next => cases allowed
      next room => rw [same, if_neg room]

end

/-! ## The twin follows -/

/-- All expressions that start at states of bounded weight, and end without passing the
cut, are echoed. -/
def EchoesWithin (cut ended : Parser) (limit : Option Nat) (weight : Nat) : Prop :=
  forall (parser twin : Parser) (power : Power) (tree : Tree) (last : Parser),
    parser.weight ≤ weight -> Shadows cut ended parser twin ->
    parser.read limit power = .done tree last -> cut.weight ≤ last.weight ->
    Echoes cut ended tree last (twin.read limit power)

section
variable {cut ended parser twin last : Parser} {limit : Option Nat} {weight : Nat} {tree : Tree}
variable (more : cut.ahead.kind ≠ .endOfInput)
include more

theorem inside_echoes {opened : Token} {close : Kind}
    (within : EchoesWithin cut ended limit weight) (small : parser.weight ≤ weight)
    (shadows : Shadows cut ended parser twin)
    (reply : parser.inside limit opened close = .done tree last)
    (kept : cut.weight ≤ last.weight) :
    Echoes cut ended tree last (twin.inside limit opened close) := by
  rcases inside_eq_done_iff.mp reply with ⟨middle, closed, contents, isClose, closing⟩
  have keptMiddle : cut.weight ≤ middle.unread := Nat.le_trans kept (weight_of_advance closing)
  rcases within parser twin .loosest tree middle small shadows contents
    (Nat.le_trans keptMiddle middle.unread_le_weight) with ⟨twinMiddle, twinContents, beside⟩
  have held := (beside.uncut more keptMiddle).1
  rcases beside.advance more closing kept with ⟨twinLast, twinClosing, besideLast⟩
  exact ⟨twinLast, inside_eq_done_iff.mpr
    ⟨twinMiddle, closed, twinContents, held ▸ isClose, twinClosing⟩, besideLast⟩

theorem delimited_echoes {tag : Tag} {front : List Tree} {close : Kind}
    (never : close.startsExpression = false) (within : EchoesWithin cut ended limit weight)
    (small : parser.unread ≤ weight) (shadows : Shadows cut ended parser twin)
    (reply : parser.delimited limit tag front close = .done tree last)
    (kept : cut.weight ≤ last.weight) :
    Echoes cut ended tree last (twin.delimited limit tag front close) := by
  rcases delimited_eq_done reply with ⟨opened, next, taken, empty | filled⟩
  · rcases empty with ⟨closed, isClose, closing, rfl⟩
    have keptNext : cut.weight ≤ next.unread := Nat.le_trans kept (weight_of_advance closing)
    rcases shadows.advance more taken (Nat.le_trans keptNext next.unread_le_weight) with
      ⟨twinNext, twinTaken, beside⟩
    have held := (beside.uncut more keptNext).1
    rcases beside.advance more closing kept with ⟨twinLast, twinClosing, besideLast⟩
    exact ⟨twinLast, delimited_of_empty twinTaken (held ▸ isClose) twinClosing, besideLast⟩
  · rcases filled with ⟨content, contents, rfl⟩
    have keptNext : cut.weight ≤ next.weight := 
      Nat.le_trans kept (Nat.le_trans (weight_of_inside contents) next.unread_le_weight)
    have smaller : next.weight ≤ weight := Nat.le_trans (weight_of_advance taken) small
    rcases shadows.advance more taken keptNext with ⟨twinNext, twinTaken, beside⟩
    rcases inside_echoes more within smaller beside contents kept with
      ⟨twinLast, twinContents, besideLast⟩
    refine ⟨twinLast, ?_, besideLast⟩
    rcases inside_eq_done_iff.mp twinContents with ⟨_, _, twinRead, _⟩
    have starts := startsExpression_of_read twinRead
    have filled : ¬ twinNext.ahead.kind = close := by
      intro empty
      rw [empty, never] at starts
      cases starts
    rw [delimited, twinTaken, Reply.done_andThen, if_neg filled, twinContents,
      Reply.done_andThen]

/-- A name, which is a call in both sources or in neither. -/
theorem name_echoes (atEnd : ended.ahead.kind = .endOfInput)
    (within : EchoesWithin cut ended limit weight) (small : parser.unread ≤ weight)
    (shadows : Shadows cut ended parser twin)
    (reply : parser.start limit .name = .done tree last) (kept : cut.weight ≤ last.weight) :
    Echoes cut ended tree last (twin.start limit .name) := by
  rw [start_name] at reply ⊢
  rcases Reply.andThen_eq_done_iff.mp reply with ⟨name, next, expected, rest⟩
  rcases demand_eq_done_iff.mp expected with ⟨isName, taken⟩
  have keptNext : cut.weight ≤ next.weight := by
    split at rest
    next =>
      have lighter := weight_of_delimited rest
      have less := next.unread_le_weight
      omega
    next =>
      cases rest
      exact kept
  have held := (shadows.uncut more (Nat.le_trans keptNext (weight_of_advance taken))).1
  rcases shadows.advance more taken keptNext with ⟨twinNext, twinTaken, beside⟩
  have twinExpected : (twin.expect .identifier).reply = .done name twinNext :=
    demand_eq_done_iff.mpr ⟨held ▸ isName, twinTaken⟩
  rw [twinExpected, Reply.done_andThen]
  by_cases call : next.ahead.kind = .openParen ∧ next.ahead.span.start = name.span.stop
  · rw [if_pos call] at rest
    have heldNext := (beside.uncut more (Nat.le_trans kept (weight_of_delimited rest))).1
    rw [if_pos (heldNext.symm ▸ call)]
    exact delimited_echoes more rfl within
      (Nat.le_trans next.unread_le_weight (Nat.le_trans (weight_of_advance taken) small)) beside
      rest kept
  · rw [if_neg call] at rest
    cases rest
    have twinAlone : ¬ (twinNext.ahead.kind = .openParen ∧
        twinNext.ahead.span.start = name.span.stop) := by
      rcases beside.ahead atEnd with same | stopped
      · rw [same]
        exact call
      · rw [stopped]
        rintro ⟨isOpened, _⟩
        cases isOpened
    rw [if_neg twinAlone]
    exact ⟨twinNext, rfl, beside⟩

theorem marked_echoes {kind : Kind} {wanted : Wanted} {build : Token -> Tree}
    (shadows : Shadows cut ended parser twin)
    (reply : parser.marked kind wanted build = .done tree last)
    (kept : cut.weight ≤ last.weight) :
    Echoes cut ended tree last (twin.marked kind wanted build) := by
  rcases Reply.andThen_eq_done_iff.mp reply with ⟨marker, next, taken, rest⟩
  rcases Reply.andThen_eq_done_iff.mp rest with ⟨token, after, demanded, same⟩
  cases same
  rcases demand_eq_done_iff.mp demanded with ⟨isKind, takenNext⟩
  have keptNext : cut.weight ≤ next.unread := Nat.le_trans kept (weight_of_advance takenNext)
  rcases shadows.advance more taken (Nat.le_trans keptNext next.unread_le_weight) with
    ⟨twinNext, twinTaken, beside⟩
  have held := (beside.uncut more keptNext).1
  rcases beside.advance more takenNext kept with ⟨twinLast, twinTakenNext, besideLast⟩
  refine ⟨twinLast, ?_, besideLast⟩
  rw [marked, twinTaken, Reply.done_andThen,
    demand_eq_done_iff.mpr ⟨held ▸ isKind, twinTakenNext⟩, Reply.done_andThen]

theorem start_echoes {head : Head} (atEnd : ended.ahead.kind = .endOfInput)
    (within : EchoesWithin cut ended limit weight) (small : parser.unread ≤ weight)
    (shadows : Shadows cut ended parser twin)
    (reply : parser.start limit head = .done tree last) (kept : cut.weight ≤ last.weight) :
    Echoes cut ended tree last (twin.start limit head) := by
  cases head with
  | literal =>
      have literal : parser.literal.reply = .done tree last := reply
      rw [reply_literal] at literal
      rcases Reply.andThen_eq_done_iff.mp literal with ⟨token, next, taken, denoted⟩
      rcases atom_eq_done denoted with ⟨rfl, anywhere⟩
      rcases shadows.advance more taken kept with ⟨twinLast, twinTaken, beside⟩
      refine ⟨twinLast, ?_, beside⟩
      have twinLiteral := reply_literal twin
      rw [twinTaken, Reply.done_andThen, anywhere] at twinLiteral
      exact twinLiteral
  | name => exact name_echoes more atEnd within small shadows reply kept
  | group =>
      rw [start_group] at reply ⊢
      rcases Reply.andThen_eq_done_iff.mp reply with ⟨opened, next, taken, rest⟩
      rcases Reply.andThen_eq_done_iff.mp rest with ⟨content, after, contents, same⟩
      cases same
      have keptNext : cut.weight ≤ next.weight :=
        Nat.le_trans kept (Nat.le_trans (weight_of_inside contents) next.unread_le_weight)
      rcases shadows.advance more taken keptNext with ⟨twinNext, twinTaken, beside⟩
      rcases inside_echoes more within (Nat.le_trans (weight_of_advance taken) small) beside
        contents kept with ⟨twinLast, twinContents, besideLast⟩
      rw [twinTaken, Reply.done_andThen, twinContents, Reply.done_andThen]
      exact ⟨twinLast, rfl, besideLast⟩
  | bracket =>
      rw [start_bracket] at reply ⊢
      exact delimited_echoes more rfl within small shadows reply kept
  | importing =>
      have marked : parser.importing.reply = .done tree last := reply
      rw [reply_importing] at marked
      rcases marked_echoes more shadows marked kept with ⟨twinLast, twinMarked, beside⟩
      exact ⟨twinLast, (reply_importing twin).trans twinMarked, beside⟩
  | declaring =>
      have marked : parser.declaring.reply = .done tree last := reply
      rw [reply_declaring] at marked
      rcases marked_echoes more shadows marked kept with ⟨twinLast, twinMarked, beside⟩
      exact ⟨twinLast, (reply_declaring twin).trans twinMarked, beside⟩

theorem paired_echoes {tag : Tag} {power : Power} {left : Tree}
    (within : EchoesWithin cut ended limit weight) (small : parser.unread ≤ weight)
    (shadows : Shadows cut ended parser twin)
    (reply : parser.paired limit tag power left = .done tree last)
    (kept : cut.weight ≤ last.weight) :
    Echoes cut ended tree last (twin.paired limit tag power left) := by
  rcases paired_eq_done reply with ⟨sign, next, right, taken, operand, rfl⟩
  have keptNext : cut.weight ≤ next.weight :=
    Nat.le_trans kept (Nat.le_trans (weight_of_read limit operand) next.unread_le_weight)
  rcases shadows.advance more taken keptNext with ⟨twinNext, twinTaken, beside⟩
  rcases within next twinNext power right last (Nat.le_trans (weight_of_advance taken) small)
    beside operand kept with ⟨twinLast, twinOperand, besideLast⟩
  refine ⟨twinLast, ?_, besideLast⟩
  rw [paired, twinTaken, Reply.done_andThen, if_pos (startsExpression_of_read twinOperand),
    twinOperand, Reply.done_andThen]

/-- The loop over siblings.  Behind a trailing separator the twin may find the end of the
input, where no sibling starts either. -/
theorem collect_echoes {row : Operator} (atEnd : ended.ahead.kind = .endOfInput)
    (isSign : row.kind ≠ .endOfInput) (within : EchoesWithin cut ended limit weight)
    (items : List Tree) (parser twin : Parser) (small : parser.unread ≤ weight)
    (shadows : Shadows cut ended parser twin)
    (reply : parser.collect limit row items = .done tree last)
    (kept : cut.weight ≤ last.weight) :
    Echoes cut ended tree last (twin.collect limit row items) := by
  rw [collect_eq] at reply ⊢
  rcases Reply.andThen_eq_done_iff.mp reply with ⟨separator, next, taken, rest⟩
  have below : next.weight ≤ parser.unread := weight_of_advance taken
  by_cases doubled : next.ahead.kind = row.kind
  · rw [if_pos doubled] at rest
    cases rest
  rw [if_neg doubled] at rest
  by_cases starts : next.ahead.kind.startsExpression = true
  · rw [if_pos starts] at rest
    rcases Reply.andThen_eq_done_iff.mp rest with ⟨item, after, operand, onward⟩
    have shorter : after.weight ≤ next.unread := weight_of_read limit operand
    have lighter := unread_lt_weight (Kind.ne_endOfInput_of_startsExpression starts)
    have less := after.unread_le_weight
    have keptAfter : cut.weight ≤ after.weight := by
      split at onward
      next =>
        have settled := weight_of_collect onward
        omega
      next =>
        cases onward
        exact kept
    rcases shadows.advance more taken (by omega) with ⟨twinNext, twinTaken, beside⟩
    rcases within next twinNext row.power item after (Nat.le_trans below small) beside operand
      keptAfter with ⟨twinAfter, twinOperand, besideAfter⟩
    have twinSingle := beside.kind atEnd (· ≠ row.kind) doubled isSign.symm
    rw [collectOnce, twinTaken, Reply.done_andThen, if_neg twinSingle,
      if_pos (startsExpression_of_read twinOperand), twinOperand, Reply.done_andThen]
    by_cases again : after.ahead.kind = row.kind
    · rw [if_pos again] at onward
      have held := (besideAfter.uncut more (Nat.le_trans kept (weight_of_collect onward))).1
      rw [if_pos (held.symm ▸ again)]
      exact collect_echoes atEnd isSign within (item :: items) after twinAfter (by omega)
        besideAfter onward kept
    · rw [if_neg again] at onward
      cases onward
      rw [if_neg (besideAfter.kind atEnd (· ≠ row.kind) again isSign.symm)]
      exact ⟨twinAfter, rfl, besideAfter⟩
  · rw [if_neg starts] at rest
    by_cases tighter : row.power < next.ahead.kind.power
    · rw [if_pos tighter] at rest
      cases rest
    · rw [if_neg tighter] at rest
      cases rest
      -- The end of the input is no separator, starts nothing and binds nothing.
      rcases shadows.advance more taken kept with ⟨twinNext, twinTaken, beside⟩
      have twinSingle := beside.kind atEnd (· ≠ row.kind) doubled isSign.symm
      have twinNever := beside.kind atEnd (¬ ·.startsExpression = true) starts (by decide)
      have twinLoose := beside.kind atEnd (¬ row.power < ·.power) tighter (Nat.not_lt_zero _)
      rw [collectOnce, twinTaken, Reply.done_andThen, if_neg twinSingle, if_neg twinNever,
        if_neg twinLoose]
      exact ⟨twinNext, rfl, beside⟩
termination_by parser.unread

theorem grow_echoes {row : Operator} {left : Tree} (atEnd : ended.ahead.kind = .endOfInput)
    (isSign : row.kind ≠ .endOfInput) (within : EchoesWithin cut ended limit weight)
    (small : parser.unread ≤ weight) (shadows : Shadows cut ended parser twin)
    (reply : parser.grow limit row left = .done tree last) (kept : cut.weight ≤ last.weight) :
    Echoes cut ended tree last (twin.grow limit row left) := by
  unfold grow at reply ⊢
  cases role : row.role with
  | binary =>
      rw [role] at reply
      exact paired_echoes more within small shadows reply kept
  | conditional =>
      rw [role] at reply
      exact paired_echoes more within small shadows reply kept
  | sequence =>
      rw [role] at reply
      exact collect_echoes more atEnd isSign within [left] parser twin small shadows reply kept

/-- The loop over operators.  Where the parser leaves it, the twin holds the same token or
none. -/
theorem extend_echoes {power : Power} (atEnd : ended.ahead.kind = .endOfInput)
    (within : EchoesWithin cut ended limit weight) (left : Tree) (parser twin : Parser)
    (small : parser.unread ≤ weight) (shadows : Shadows cut ended parser twin)
    (reply : parser.extend limit power left = .done tree last)
    (kept : cut.weight ≤ last.weight) :
    Echoes cut ended tree last (twin.extend limit power left) := by
  by_cases stops : parser.ahead.kind.power.rank ≤ power.rank
  · rw [extend_of_stops stops] at reply
    cases reply
    have twinStops := shadows.kind atEnd (·.power.rank ≤ power.rank) stops (Nat.zero_le _)
    exact ⟨twin, extend_of_stops twinStops, shadows⟩
  · cases found : Operator.ofKind? parser.ahead.kind with
    | none =>
        refine absurd ?_ stops
        rw [Kind.power_eq_loosest found]
        exact Nat.zero_le _
    | some row =>
        rw [Operator.power_of_ofKind? found] at stops
        have tight : ¬ row.power ≤ power := stops
        have isSign : row.kind ≠ .endOfInput := by
          rw [Operator.kind_of_ofKind? found]
          exact Operator.ne_endOfInput_of_ofKind? found
        rw [extend_eq, extendOnce_of_some limit found, if_neg tight] at reply
        rcases Reply.andThen_eq_done_iff.mp reply with ⟨grown, next, step, onward⟩
        have below : next.weight ≤ parser.unread := weight_of_grow limit step
        have lighter : parser.unread < parser.weight :=
          unread_lt_weight (Operator.ne_endOfInput_of_ofKind? found)
        have less := next.unread_le_weight
        have keptNext : cut.weight ≤ next.weight := Nat.le_trans kept (weight_of_extend onward)
        have held := (shadows.uncut more (Nat.le_trans keptNext below)).1
        rcases grow_echoes more atEnd isSign within small shadows step keptNext with
          ⟨twinNext, twinStep, beside⟩
        rw [extend_eq, extendOnce_of_some limit (held.symm ▸ found), if_neg tight, twinStep,
          Reply.done_andThen]
        exact extend_echoes atEnd within grown next twinNext (by omega) beside onward kept
termination_by parser.weight

/-- An expression that stops at the cut is read in the same way if the source ends there. -/
theorem read_echoes (atEnd : ended.ahead.kind = .endOfInput) (limit : Option Nat) (power : Power)
    (tree : Tree) (last parser twin : Parser) (shadows : Shadows cut ended parser twin)
    (reply : parser.read limit power = .done tree last) (kept : cut.weight ≤ last.weight) :
    Echoes cut ended tree last (twin.read limit power) := by
  cases deep : parser.tooDeep? limit with
  | some fault =>
      rw [read_of_some limit deep] at reply
      cases reply
  | none =>
      rw [read_of_none limit deep] at reply
      rw [read_of_none limit (tooDeep?_none_of_depth shadows.depth deep)]
      rcases Reply.andThen_eq_done_iff.mp reply with ⟨program, after, inner, same⟩
      cases same
      rw [weight_leave] at kept
      have below : Shadows cut ended parser.deeper twin.deeper := by
        rw [deeper_eq_atDepth, deeper_eq_atDepth, shadows.depth]
        exact shadows.atDepth _
      cases found : Head.ofKind? parser.deeper.ahead.kind with
      | none =>
          rw [body_of_none limit found] at inner
          cases inner
      | some head =>
          rw [body_of_some limit found] at inner
          rcases Reply.andThen_eq_done_iff.mp inner with ⟨left, middle, started, extended⟩
          have keptMiddle : cut.weight ≤ middle.weight :=
            Nat.le_trans kept (weight_of_extend extended)
          have within : middle.weight ≤ parser.deeper.unread := weight_of_start limit started
          -- The head was read without passing the cut, so both parsers stand at the same one.
          have held := (below.uncut more (Nat.le_trans keptMiddle within)).1
          have lighter : parser.unread < parser.weight := unread_lt_weight_of_head found
          have nested : EchoesWithin cut ended limit parser.deeper.unread := by
            intro inside insideTwin innerPower innerTree innerLast small beside innerReply
              innerKept
            have less : inside.weight < parser.weight := Nat.lt_of_le_of_lt small lighter
            exact read_echoes atEnd limit innerPower innerTree innerLast inside insideTwin beside
              innerReply innerKept
          rcases start_echoes more atEnd nested (Nat.le_refl _) below started keptMiddle with
            ⟨twinMiddle, twinStarted, besideMiddle⟩
          rcases extend_echoes more atEnd nested left middle twinMiddle
            (Nat.le_trans middle.unread_le_weight within) besideMiddle extended kept with
            ⟨twinAfter, twinExtended, besideAfter⟩
          rw [body_of_some limit (held.symm ▸ found), twinStarted, Reply.done_andThen, twinExtended,
            Reply.done_andThen]
          refine ⟨twinAfter.leave 1, rfl, ?_⟩
          rw [leave_eq_atDepth, leave_eq_atDepth, besideAfter.depth]
          exact besideAfter.atDepth _
termination_by parser.weight

end

/-! ## Where an expression stops -/

namespace Shadows

/-- Where the parser stands at the cut, its twin has reached the end of the input. -/
theorem ended {cut ended twin : Parser} (shadows : Shadows cut ended cut twin)
    (more : cut.ahead.kind ≠ .endOfInput) (atEnd : ended.ahead.kind = .endOfInput) :
    twin.ahead.kind = .endOfInput := by
  rcases shadows.trails with ⟨tokens, trail, twinTrail⟩
  cases tokens with
  | nil =>
      rw [← twinTrail.eq_of_nil]
      exact atEnd
  | cons token tokens =>
      -- A token taken makes the rest lighter, so the trail would not lead back.
      rcases trail.uncons with ⟨_, _, next, taken, rest⟩
      have back : cut.weight ≤ next.weight := rest.weight_le
      have below := weight_of_advance taken
      have lighter := unread_lt_weight more
      omega

end Shadows

theorem Trail.reaches {first last : Parser} {tokens : List Token}
    (trail : Trail first tokens last) : Reaches first last :=
  ⟨tokens, trail.pulled⟩

/-- A token that binds nothing is no operator. -/
theorem ofKind?_eq_none {kind : Kind} (stops : kind.power.rank ≤ Power.loosest.rank) :
    Operator.ofKind? kind = none := by
  cases kind <;> first | rfl | exact absurd stops (by decide)

/-- The complaint about a token behind a complete expression. -/
theorem conclude_eq_error {parser : Parser} {tree : Tree} {fault : Fault}
    (refused : parser.conclude tree = .error fault) :
    parser.ahead.kind ≠ .endOfInput ∧
      fault = parser.faultAt parser.ahead
        (if parser.ahead.kind = .closeParen ∨ parser.ahead.kind = .closeBracket then
          .unmatched parser.ahead.value
        else
          .unexpected parser.ahead.value) := by
  unfold conclude at refused
  cases kind : parser.ahead.kind <;> rw [kind] at refused <;> cases refused <;> simp

/-- Cut off where an expression stops, the source is a program. -/
theorem parseWithin_of_cut {limit : Option Nat} {file source : String} {first last : Parser}
    {tree : Tree} (opened : ofSource file source = .ok first)
    (reply : first.read limit .loosest = .done tree last)
    (more : last.ahead.kind ≠ .endOfInput) :
    exists before, source.toList = before ++ (last.ahead.written ++ last.scanner.rest) ∧
      last.ahead.span.start = UInt32.ofNat (Text.size before) ∧
      parseWithin limit file (String.ofList before) = .ok tree := by
  rcases (read_reads reply).spelled with ⟨levels, tokens, _, trail⟩
  rcases exists_cut opened trail more with
    ⟨before, twin, ended, whole, start, twinOpened, twinTrail, atEnd⟩
  have depth := depth_of_ofSource opened
  have twinDepth := depth_of_ofSource twinOpened
  have shadows : Shadows last ended first twin := by
    refine ⟨twinDepth.trans depth.symm, tokens, ?_, ?_⟩
    · rw [← trail.depth_eq]
      exact trail
    · rw [depth, ← twinDepth, ← twinTrail.depth_eq]
      exact twinTrail
  rcases read_echoes more atEnd limit .loosest tree last first twin shadows reply
    (Nat.le_refl _) with ⟨twinLast, twinReply, beside⟩
  exact ⟨before, whole, start,
    parseWithin_eq_ok_iff.mpr ⟨twin, twinLast, twinOpened, twinReply, beside.ended more atEnd⟩⟩

end Parser

/-- The causes that complain of a token which is merely left over. -/
def Cause.isLeftover : Cause -> Bool
  | .unexpected _ | .unmatched _ => true
  | _ => false

theorem Cause.outer_of_isLeftover {cause : Cause} (leftover : cause.isLeftover = true) :
    cause.isScanned = false ∧ cause.isInner = false := by
  cases cause <;> first | exact ⟨rfl, rfl⟩ | cases leftover

/-- Only a token behind a complete expression is complained of as left over. -/
theorem concluded_of_parseWithin {limit : Option Nat} {file source : String} {fault : Fault}
    (refused : parseWithin limit file source = .error fault)
    (leftover : fault.cause.isLeftover = true) :
    exists first last tree, Parser.ofSource file source = .ok first ∧
      first.read limit .loosest = .done tree last ∧ last.conclude tree = .error fault := by
  rcases Cause.outer_of_isLeftover leftover with ⟨unscanned, outer⟩
  cases opened : Parser.ofSource file source with
  | error refusal =>
      cases refused.symm.trans (parseWithin_of_error opened)
      cases unscanned.symm.trans (Parser.isScanned_of_ofSource opened)
  | ok first =>
      rw [parseWithin_eq opened] at refused
      cases reply : first.read limit .loosest with
      | done tree last =>
          rw [reply] at refused
          exact ⟨first, last, tree, rfl, reply, refused⟩
      | failed stopped last =>
          rw [reply] at refused
          cases refused
          rcases Parser.read_halts (fun inner => inner) limit .loosest first fault last reply with
            stuck | inner
          · cases unscanned.symm.trans (Scanner.isScanned_of_next stuck)
          · cases outer.symm.trans inner

/-- A parse complains of a token as left over only behind a complete program: cut off in
front of the token, the source is accepted.  The token is no operator, and it is called
unmatched exactly when it is a closing delimiter. -/
theorem leftover_behind_program {file source : String} {fault : Fault}
    (short : source.utf8ByteSize < 2 ^ 32) (refused : parse file source = .error fault)
    (leftover : fault.cause.isLeftover = true) :
    exists (before : List Char) (tree : Tree) (token : Token),
      Text.takeBytes? fault.position.offset.toNat source.toList = some before ∧
      parse file (String.ofList before) = .ok tree ∧
      token ∈ (Scanner.ofSource file source).stream ∧
      token.span.start = fault.position.offset ∧
      Operator.ofKind? token.kind = none ∧
      fault.cause =
        if token.kind = .closeParen ∨ token.kind = .closeBracket then .unmatched token.value
        else .unexpected token.value := by
  rcases concluded_of_parseWithin refused leftover with ⟨first, last, tree, opened, reply, rejected⟩
  rcases Parser.conclude_eq_error rejected with ⟨more, rfl⟩
  rcases Parser.parseWithin_of_cut opened reply more with ⟨before, whole, start, accepted⟩
  have reads := Parser.read_reads reply
  rcases reads.spelled with ⟨_, _, _, trail⟩
  have draws := (Parser.drawsOn_of_next (Parser.ofSource_eq_ok_iff.mp opened).2).reached
    trail.reaches
  refine ⟨before, tree, last.ahead, ?_, accepted, draws.held, rfl,
    Parser.ofKind?_eq_none reads.stops, rfl⟩
  have total : Text.size before ≤ source.utf8ByteSize := by
    rw [← Text.size_toList, whole, Text.size_append]
    exact Nat.le_add_right _ _
  have offset : (UInt32.ofNat (Text.size before)).toNat = Text.size before :=
    UInt32.toNat_ofNat_of_lt' (Nat.lt_of_le_of_lt total short)
  rw [Parser.faultAt, Parser.positionOf, start, offset, whole]
  exact Text.takeBytes?_size_append _ _

theorem leftover_behind_program_separator :
    "'é', *f;// q\n) b".utf8ByteSize < 2 ^ 32 ∧
    parse "shell" "'é', *f;// q\n) b" = .error ⟨.unmatched ")", ⟨14, "shell"⟩⟩ ∧
    exists (before : List Char) (tree : Tree) (token : Token),
      Text.takeBytes? 14 "'é', *f;// q\n) b".toList = some before ∧
      parse "shell" (String.ofList before) = .ok tree ∧
      token ∈ (Scanner.ofSource "shell" "'é', *f;// q\n) b").stream ∧
      token.span.start = 14 ∧ Operator.ofKind? token.kind = none ∧
      Cause.unmatched ")" =
        if token.kind = .closeParen ∨ token.kind = .closeBracket then .unmatched token.value
        else .unexpected token.value := by
  have short : "'é', *f;// q\n) b".utf8ByteSize < 2 ^ 32 := by decide
  have refused : parse "shell" "'é', *f;// q\n) b" = .error ⟨.unmatched ")", ⟨14, "shell"⟩⟩ := by
    cbv
  exact ⟨short, refused, leftover_behind_program short refused rfl⟩

end SignalScript
