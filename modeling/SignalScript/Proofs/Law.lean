import SignalScript.Proofs.Refusal

namespace SignalScript

/-!
Laws that every reading keeps.

A law relates the state in which a reading starts to the state in which it ends.  It has two
parts, one for a success and one for a failure, because a failure keeps less.  A law that holds
of a single token, of a single literal, and of a level that is entered and left again, and that
survives being put in sequence, holds of every form and of every expression.

What a form complains of is one of two tokens: the one it has started with, which is an opening
delimiter or an operator by then, or the one that is held.

The induction over the recursion of the parser is made here, once for all laws.
-/

namespace Parser

/-- What a reading keeps when it succeeds and when it fails, and which tokens may be taken
without looking at their value. -/
structure Law where
  kept : Parser -> Parser -> Prop
  lost : Parser -> Fault -> Parser -> Prop
  takes : Kind -> Prop

namespace Law

/-- A reply to a reading that started in the given state obeys the law. -/
def Obeyed (law : Law) {Value : Type} (first : Parser) : Reply Parser Value -> Prop
  | .done _ next => law.kept first next
  | .failed fault left => law.lost first fault left

/-- What has to be known of single steps, and of levels under a limit on nesting. -/
structure Sound (law : Law) (limit : Option Nat) : Prop where
  refl (parser : Parser) : law.kept parser parser
  trans {first middle last : Parser} :
    law.kept first middle -> law.kept middle last -> law.kept first last
  after {first middle left : Parser} {fault : Fault} :
    law.kept first middle -> law.lost middle fault left -> law.lost first fault left
  plain (kind : Kind) : kind ≠ .int -> kind ≠ .endOfInput -> law.takes kind
  taken {parser next : Parser} {token : Token} : law.takes parser.ahead.kind ->
    parser.advance = .done token next -> law.kept parser next
  refused {parser left : Parser} {fault : Fault} :
    parser.advance = .failed fault left -> law.lost parser fault left
  literal (parser : Parser) : law.Obeyed parser parser.literal.reply
  raised {first parser : Parser} {token : Token} {cause : Cause} : law.kept first parser ->
    cause.stage = .structural -> token = first.ahead ∨ token = parser.ahead ->
    law.lost first (parser.faultAt token cause) parser
  level {parser next : Parser} : parser.tooDeep? limit = none ->
    law.kept parser.deeper next -> law.kept parser (next.leave 1)
  below {parser left : Parser} {fault : Fault} : parser.tooDeep? limit = none ->
    law.lost parser.deeper fault left -> law.lost parser fault left

/-- All expressions that start at states of bounded weight obey the law. -/
def ObeyedWithin (law : Law) (limit : Option Nat) (weight : Nat) : Prop :=
  forall (parser : Parser) (power : Power), parser.weight ≤ weight ->
    law.Obeyed parser (parser.read limit power)

end Law

section
variable {law : Law} {limit : Option Nat} {weight : Nat} {first parser : Parser}

/-- A success is followed by a reading that is judged from the same state. -/
theorem Law.Obeyed.andThen {Value Other : Type} {reply : Reply Parser Value}
    {resume : Value -> Parser -> Reply Parser Other} (front : law.Obeyed first reply)
    (back : forall value next, reply = .done value next -> law.kept first next ->
      law.Obeyed first (resume value next)) : law.Obeyed first (reply.andThen resume) := by
  cases reply with
  | failed fault left => exact front
  | done value next => exact back value next rfl front

/-- What is obeyed from a later state is obeyed from an earlier one. -/
theorem Law.Sound.along {Value : Type} {reply : Reply Parser Value} (sound : law.Sound limit)
    (kept : law.kept first parser) (obeyed : law.Obeyed parser reply) :
    law.Obeyed first reply := by
  cases reply with
  | done value next => exact sound.trans kept obeyed
  | failed fault left => exact sound.after kept obeyed

/-- A success is followed by a reading that starts where it ends. -/
theorem Law.Sound.andThen {Value Other : Type} {reply : Reply Parser Value}
    {resume : Value -> Parser -> Reply Parser Other} (sound : law.Sound limit)
    (front : law.Obeyed first reply)
    (back : forall value next, reply = .done value next -> law.Obeyed next (resume value next)) :
    law.Obeyed first (reply.andThen resume) :=
  front.andThen fun value next done kept => sound.along kept (back value next done)

/-! ## Single steps -/

theorem advance_obeys (sound : law.Sound limit) (takes : law.takes parser.ahead.kind) :
    law.Obeyed parser parser.advance := by
  cases step : parser.advance with
  | done token next => exact sound.taken takes step
  | failed fault left => exact sound.refused step

theorem demand_obeys (sound : law.Sound limit) {kind : Kind} {token : Token} {cause : Cause}
    (kept : law.kept first parser) (takes : law.takes kind) (structural : cause.stage = .structural)
    (blamed : token = first.ahead ∨ token = parser.ahead) :
    law.Obeyed first (parser.demand kind (parser.faultAt token cause)).reply := by
  unfold demand
  split
  next fits => exact sound.along kept (advance_obeys sound (fits.symm ▸ takes))
  next => exact sound.raised kept structural blamed

theorem closing_obeys (sound : law.Sound limit) (kept : law.kept first parser) {close : Kind}
    (takes : law.takes close) : law.Obeyed first (parser.closing first.ahead close).reply := by
  unfold closing
  dsimp only
  split
  · exact demand_obeys sound kept takes rfl (Or.inl rfl)
  · exact demand_obeys sound kept takes rfl (Or.inr rfl)

theorem marked_obeys (sound : law.Sound limit) {kind : Kind} (wanted : Wanted)
    (build : Token -> Tree) (takes : law.takes parser.ahead.kind) (takesKind : law.takes kind) :
    law.Obeyed parser (parser.marked kind wanted build) := by
  apply sound.andThen (advance_obeys sound takes)
  intro _ next _
  apply sound.andThen (demand_obeys sound (sound.refl next) takesKind rfl (Or.inr rfl))
  intro _ after _
  exact sound.refl after

/-! ## Nested expressions -/

/-- The contents of a form that has started with its opening delimiter. -/
theorem inside_obeys (sound : law.Sound limit) (within : law.ObeyedWithin limit weight)
    (small : parser.weight ≤ weight) (kept : law.kept first parser) {close : Kind}
    (takes : law.takes close) : law.Obeyed first (parser.inside limit first.ahead close) := by
  apply (sound.along kept (within parser .loosest small)).andThen
  intro _ next _ onward
  apply (closing_obeys sound onward takes).andThen
  intro _ after _ further
  exact further

theorem delimited_obeys (sound : law.Sound limit) (within : law.ObeyedWithin limit weight)
    (small : parser.unread ≤ weight) (tag : Tag) (front : List Tree) {close : Kind}
    (takes : law.takes parser.ahead.kind) (takesClose : law.takes close) :
    law.Obeyed parser (parser.delimited limit tag front close) := by
  apply (advance_obeys sound takes).andThen
  intro opened next taken kept
  cases token_of_advance taken
  have smaller : next.weight ≤ weight := Nat.le_trans (weight_of_advance taken) small
  split
  next closes =>
    apply (sound.along kept (advance_obeys sound (closes.symm ▸ takesClose))).andThen
    intro _ after _ further
    exact further
  next =>
    apply (inside_obeys sound within smaller kept takesClose).andThen
    intro _ after _ further
    exact further

theorem name_obeys (sound : law.Sound limit) (within : law.ObeyedWithin limit weight)
    (small : parser.unread ≤ weight) : law.Obeyed parser (parser.start limit .name) := by
  have structural : parser.mismatch.cause.stage = .structural := by
    unfold mismatch faultAt
    split <;> rfl
  have expected : law.Obeyed parser (parser.expect .identifier).reply :=
    demand_obeys sound (sound.refl parser) (sound.plain .identifier nofun nofun) structural
      (Or.inr rfl)
  rw [start_name]
  apply sound.andThen expected
  intro name next demanded
  have taken := (demand_eq_done_iff.mp demanded).2
  have smaller : next.unread ≤ weight :=
    Nat.le_trans next.unread_le_weight (Nat.le_trans (weight_of_advance taken) small)
  split
  next call =>
    exact delimited_obeys sound within smaller .paren _
      (call.1.symm ▸ sound.plain .openParen nofun nofun) (sound.plain .closeParen nofun nofun)
  next => exact sound.refl next

/-- What a head announces obeys the law if it fits the held token, or if any token may be
taken. -/
theorem start_obeys (sound : law.Sound limit) (within : law.ObeyedWithin limit weight)
    (small : parser.unread ≤ weight) {head : Head}
    (fits : Head.ofKind? parser.ahead.kind = some head ∨ forall kind, law.takes kind) :
    law.Obeyed parser (parser.start limit head) := by
  have takes : head ≠ .literal -> law.takes parser.ahead.kind := by
    intro other
    rcases fits with found | all
    · have isKind := kind_of_head found
      cases head with
      | literal => exact absurd rfl other
      | _ => exact isKind.symm ▸ sound.plain _ nofun nofun
    · exact all _
  cases head with
  | literal => exact sound.literal parser
  | name => exact name_obeys sound within small
  | group =>
      rw [start_group]
      apply (advance_obeys sound (takes nofun)).andThen
      intro opened next taken kept
      cases token_of_advance taken
      have smaller : next.weight ≤ weight := Nat.le_trans (weight_of_advance taken) small
      apply (inside_obeys sound within smaller kept (sound.plain .closeParen nofun nofun)).andThen
      intro _ after _ further
      exact further
  | bracket =>
      rw [start_bracket]
      exact delimited_obeys sound within small .bracket [] (takes nofun)
        (sound.plain .closeBracket nofun nofun)
  | importing =>
      have marked : law.Obeyed parser parser.importing.reply := by
        rw [reply_importing]
        exact marked_obeys sound .modulePath _ (takes nofun) (sound.plain .string nofun nofun)
      exact marked
  | declaring =>
      have marked : law.Obeyed parser parser.declaring.reply := by
        rw [reply_declaring]
        exact marked_obeys sound .declaredName _ (takes nofun) (sound.plain .identifier nofun nofun)
      exact marked

/-! ## Operators -/

theorem paired_obeys (sound : law.Sound limit) (within : law.ObeyedWithin limit weight)
    (small : parser.unread ≤ weight) (tag : Tag) (power : Power) (left : Tree)
    (takes : law.takes parser.ahead.kind) :
    law.Obeyed parser (parser.paired limit tag power left) := by
  apply (advance_obeys sound takes).andThen
  intro operator next taken kept
  have smaller : next.weight ≤ weight := Nat.le_trans (weight_of_advance taken) small
  split
  · apply (sound.along kept (within next power smaller)).andThen
    intro _ after _ further
    exact further
  · exact sound.raised kept rfl (Or.inl (token_of_advance taken))

/-- The loop over siblings.  Every round but the first starts at a separator of the row. -/
theorem collect_obeys (sound : law.Sound limit) (within : law.ObeyedWithin limit weight)
    (row : Operator) (items : List Tree) (parser : Parser) (small : parser.unread ≤ weight)
    (takes : law.takes parser.ahead.kind) (again : law.takes row.kind) :
    law.Obeyed parser (parser.collect limit row items) := by
  rw [collect_eq]
  apply (advance_obeys sound takes).andThen
  intro separator next taken kept
  have below : next.weight ≤ parser.unread := weight_of_advance taken
  split
  · exact sound.raised kept rfl (Or.inl (token_of_advance taken))
  split
  next starts =>
    apply (sound.along kept (within next row.power (Nat.le_trans below small))).andThen
    intro item after reply further
    have shorter : after.unread < parser.unread := by
      have settled := weight_of_read limit reply
      have lighter := unread_lt_weight (Kind.ne_endOfInput_of_startsExpression starts)
      have less := after.unread_le_weight
      omega
    split
    next held =>
      exact sound.along further (collect_obeys sound within row (item :: items) after (by omega)
        (held.symm ▸ again) again)
    next => exact further
  next =>
    split
    · exact sound.raised kept rfl (Or.inr rfl)
    · exact kept
termination_by parser.unread

theorem grow_obeys (sound : law.Sound limit) (within : law.ObeyedWithin limit weight)
    (small : parser.unread ≤ weight) {row : Operator} (left : Tree)
    (found : Operator.ofKind? parser.ahead.kind = some row) :
    law.Obeyed parser (parser.grow limit row left) := by
  have takes : law.takes parser.ahead.kind := by
    refine sound.plain _ ?_ (Operator.ne_endOfInput_of_ofKind? found)
    intro isInt
    rw [isInt] at found
    cases found
  have held : row.kind = parser.ahead.kind := Operator.kind_of_ofKind? found
  unfold grow
  cases row.role with
  | binary => exact paired_obeys sound within small row.tag row.power left takes
  | conditional => exact paired_obeys sound within small row.tag .semicolon left takes
  | sequence =>
      exact collect_obeys sound within row [left] parser small takes (held.symm ▸ takes)

/-- The loop over operators. -/
theorem extend_obeys (sound : law.Sound limit) (within : law.ObeyedWithin limit weight)
    (power : Power) (left : Tree) (parser : Parser) (small : parser.unread ≤ weight) :
    law.Obeyed parser (parser.extend limit power left) := by
  rw [extend_eq]
  cases found : Operator.ofKind? parser.ahead.kind with
  | none =>
      rw [extendOnce_of_none limit found]
      exact sound.refl parser
  | some row =>
      rw [extendOnce_of_some limit found]
      split
      · exact sound.refl parser
      · apply sound.andThen (grow_obeys sound within small left found)
        intro grown next step
        have below : next.weight ≤ parser.unread := weight_of_grow limit step
        have lighter : parser.unread < parser.weight :=
          unread_lt_weight (Operator.ne_endOfInput_of_ofKind? found)
        have smaller := next.unread_le_weight
        exact extend_obeys sound within power grown next (by omega)
termination_by parser.weight

/-! ## Expressions -/

theorem missingExpression_structural (parser : Parser) :
    parser.missingExpression.cause.stage = .structural := by
  unfold missingExpression faultAt
  dsimp only
  split
  · rfl
  · split <;> rfl

/-- What an expression does below its level obeys the law there, if lighter expressions do. -/
theorem body_obeys (sound : law.Sound limit) (power : Power)
    (within : parser.unread < parser.weight -> law.ObeyedWithin limit parser.unread) :
    law.Obeyed parser (parser.body limit power) := by
  cases found : Head.ofKind? parser.ahead.kind with
  | none =>
      rw [body_of_none limit found]
      exact sound.raised (sound.refl parser) (missingExpression_structural parser) (Or.inr rfl)
  | some head =>
      have lighter := within (unread_lt_weight_of_head found)
      rw [body_of_some limit found]
      apply sound.andThen (start_obeys sound lighter (Nat.le_refl _) (Or.inl found))
      intro left next started
      exact extend_obeys sound lighter power left next
        (Nat.le_trans next.unread_le_weight (weight_of_start limit started))

/-- A level is entered, and left again on success. -/
theorem Law.Sound.entered {reply : Reply Parser Tree} (sound : law.Sound limit)
    (allowed : parser.tooDeep? limit = none) (inner : law.Obeyed parser.deeper reply) :
    law.Obeyed parser (reply.andThen fun tree after => .done tree (after.leave 1)) := by
  cases reply with
  | done tree after => exact sound.level allowed inner
  | failed fault left => exact sound.below allowed inner

/-- Every expression obeys the law. -/
theorem read_obeys (sound : law.Sound limit) (power : Power) (parser : Parser) :
    law.Obeyed parser (parser.read limit power) := by
  cases deep : parser.tooDeep? limit with
  | some fault =>
      rcases tooDeep?_eq_some deep with ⟨bound, _, _, rfl⟩
      have full : (Cause.tooDeep bound).stage = .structural := rfl
      rw [read_of_some limit deep]
      exact sound.raised (sound.refl parser) full (Or.inr rfl)
  | none =>
      rw [read_of_none limit deep]
      apply sound.entered deep
      apply body_obeys sound power
      intro lighter inside innerPower small
      have nested : inside.weight < parser.weight := Nat.lt_of_le_of_lt small lighter
      exact read_obeys sound innerPower inside
termination_by parser.weight

end
end Parser
end SignalScript
