import SignalScript.Proofs.Law

namespace SignalScript

/-!
The depth of nesting is accounted for.

A level is counted when an expression enters it and given back when the expression has been
read.  A failure gives nothing back, so it may leave a greater depth behind, but it enters no
level that the limit forbids.  Coming up stops at the outermost level and would hide a level
given back too often; that a success comes back to the very depth it started from shows that
nothing is hidden.
-/

namespace Parser

/-- A success comes back to its depth.  A failure stays there or below, within the limit. -/
def balance (bound : Nat) : Law where
  kept first last := last.depth = first.depth
  lost first _ left := first.depth ≤ left.depth ∧ (first.depth ≤ bound -> left.depth ≤ bound)
  takes _ := True

section
variable {bound : Nat} {parser : Parser}

theorem depth_of_refusal {left : Parser} {fault : Fault}
    (refused : parser.advance = .failed fault left) : left.depth = parser.depth :=
  (advance_eq_failed_iff.mp refused).2.1

/-- Where the depth has not changed, nothing is lost. -/
theorem lost_of_depth_eq {left : Parser} (fault : Fault) (same : left.depth = parser.depth) :
    (balance bound).lost parser fault left := by
  refine ⟨Nat.le_of_eq same.symm, ?_⟩
  intro small
  rw [same]
  exact small

theorem literal_balanced (parser : Parser) :
    (balance bound).Obeyed parser parser.literal.reply := by
  rw [reply_literal]
  cases step : parser.advance with
  | failed fault left => exact lost_of_depth_eq fault (depth_of_refusal step)
  | done token next =>
      have same : next.depth = parser.depth := depth_of_advance step
      rw [Reply.done_andThen, atom]
      split
      next =>
        split
        · exact same
        · exact lost_of_depth_eq _ same
      next => exact same
      next => exact same
      next => exact lost_of_depth_eq _ same

theorem depth_lt_of_allowed (allowed : parser.tooDeep? (some bound) = none) :
    parser.depth < bound :=
  allows_of_tooDeep?_none allowed bound rfl

theorem balance_sound (bound : Nat) : (balance bound).Sound (some bound) where
  refl _ := rfl
  trans front back := back.trans front
  after := by
    rintro first middle left fault front ⟨deeper, within⟩
    have same : middle.depth = first.depth := front
    exact ⟨same ▸ deeper, fun small => within (same ▸ small)⟩
  plain _ _ _ := trivial
  taken _ step := depth_of_advance step
  refused refused := lost_of_depth_eq _ (depth_of_refusal refused)
  literal := literal_balanced
  raised kept _ _ := lost_of_depth_eq _ kept
  level := by
    intro parser next _ back
    have same : next.depth = parser.depth + 1 := back
    show next.depth - 1 = parser.depth
    omega
  below := by
    rintro parser left fault allowed ⟨deeper, within⟩
    have room := depth_lt_of_allowed allowed
    have entered : parser.depth + 1 ≤ left.depth := deeper
    exact ⟨by omega, fun _ => within room⟩

/-- An expression that has entered its level and then fails keeps that level. -/
theorem depth_lt_of_read {power : Power} {left : Parser} {fault : Fault}
    (room : parser.depth < bound)
    (failed : parser.read (some bound) power = .failed fault left) :
    parser.depth < left.depth := by
  have allowed : parser.tooDeep? (some bound) = none := if_neg (Nat.not_le.mpr room)
  have inner : (balance bound).Obeyed parser.deeper (parser.deeper.body (some bound) power) :=
    body_obeys (balance_sound bound) power
      fun _ inside innerPower _ => read_obeys (balance_sound bound) innerPower inside
  rw [read_of_none (some bound) allowed] at failed
  cases body : parser.deeper.body (some bound) power with
  | done tree after =>
      rw [body] at failed
      cases failed
  | failed other stopped =>
      rw [body] at failed inner
      cases failed
      exact inner.1

theorem depth_left_of_advance (parser : Parser) : parser.advance.left.depth = parser.depth := by
  cases step : parser.advance with
  | done token next => exact depth_of_advance step
  | failed fault left => exact depth_of_refusal step

theorem depth_left_of_demand (parser : Parser) (kind : Kind) (otherwise : Fault) :
    (parser.demand kind otherwise).reply.left.depth = parser.depth := by
  unfold demand
  split
  · exact depth_left_of_advance parser
  · rfl

end
end Parser

/-! ## Operations -/

theorem Reply.left_map {State Value Other : Type} (build : Value -> Other)
    (reply : Reply State Value) : (reply.map build).left = reply.left := by
  cases reply <;> rfl

namespace Operation

open SignalScript.Parser

/-- The operation reads a form: an expression, what a head announces, or what an operator makes
of its left operand. -/
inductive ReadsForm : Operation -> Prop
  | expression (power : Power) : ReadsForm (.expression power)
  | start (head : Head) : ReadsForm (.start head)
  | binary (row : Operator) (left : Tree) : ReadsForm (.binary row left)
  | conditional (row : Operator) (left : Tree) : ReadsForm (.conditional row left)
  | sequence (row : Operator) (left : Tree) : ReadsForm (.sequence row left)

theorem obeyed_map {law : Law} {Value Other : Type} {first : Parser} {reply : Reply Parser Value}
    (obeyed : law.Obeyed first reply) (build : Value -> Other) :
    law.Obeyed first (reply.map build) := by
  cases reply <;> exact obeyed

/-- A law that lets any token be taken is obeyed by the reading of a form, whatever token is
held. -/
theorem run_obeys {law : Law} (sound : law.Sound (some nestingLimit))
    (takes : forall kind, law.takes kind) {operation : Operation} (reads : operation.ReadsForm)
    (parser : Parser) : law.Obeyed parser (operation.run parser) := by
  have within : law.ObeyedWithin (some nestingLimit) parser.unread :=
    fun inside power _ => read_obeys sound power inside
  cases reads with
  | expression power => exact obeyed_map (read_obeys sound power parser) _
  | start head =>
      refine obeyed_map ?_ _
      rw [reply_headed]
      exact start_obeys sound within (Nat.le_refl _) (Or.inr takes)
  | binary row left =>
      refine obeyed_map ?_ _
      rw [Parser.binary, reply_joined]
      exact paired_obeys sound within (Nat.le_refl _) row.tag row.power left (takes _)
  | conditional row left =>
      refine obeyed_map ?_ _
      rw [Parser.conditional, reply_joined]
      exact paired_obeys sound within (Nat.le_refl _) row.tag .semicolon left (takes _)
  | sequence row left =>
      refine obeyed_map ?_ _
      rw [reply_sequence]
      split
      · exact collect_obeys sound within row [left] parser (Nat.le_refl _) (takes _) (takes _)
      · exact sound.refl parser

/-- Reading a form is balanced. -/
theorem run_balanced {operation : Operation} (reads : operation.ReadsForm) (parser : Parser) :
    (balance nestingLimit).Obeyed parser (operation.run parser) :=
  run_obeys (balance_sound nestingLimit) (fun _ => trivial) reads parser

/-- No operation goes below the limit. -/
theorem depth_left_le (operation : Operation) {parser : Parser}
    (small : parser.depth ≤ nestingLimit) :
    (operation.run parser).left.depth ≤ nestingLimit := by
  have read : operation.ReadsForm -> (operation.run parser).left.depth ≤ nestingLimit := by
    intro reads
    have balanced := run_balanced reads parser
    cases reply : operation.run parser with
    | done answer next =>
        rw [reply] at balanced
        exact Nat.le_trans (Nat.le_of_eq balanced) small
    | failed fault left =>
        rw [reply] at balanced
        exact balanced.2 small
  cases operation with
  | advance =>
      rw [run, Reply.left_map, depth_left_of_advance]
      exact small
  | expect kind =>
      rw [run, Reply.left_map, Parser.expect, depth_left_of_demand]
      exact small
  | expectOr kind otherwise =>
      rw [run, Reply.left_map, depth_left_of_demand]
      exact small
  | expression power => exact read (.expression power)
  | start head => exact read (.start head)
  | binary row left => exact read (.binary row left)
  | conditional row left => exact read (.conditional row left)
  | sequence row left => exact read (.sequence row left)
  | enter =>
      simp only [run, Parser.enter]
      cases deep : parser.tooDeep? (some nestingLimit) with
      | some fault => exact small
      | none => exact depth_lt_of_allowed deep
  | leave => exact Nat.le_trans (Nat.sub_le _ _) small

theorem depth_runAll_le (operations : List Operation) {parser : Parser}
    (small : parser.depth ≤ nestingLimit) : (runAll operations parser).depth ≤ nestingLimit := by
  induction operations generalizing parser with
  | nil => exact small
  | cons operation operations inductionHypothesis =>
      exact inductionHypothesis (depth_left_le operation small)

end Operation

/-- Reading a form gives back all levels on success, and on failure it leaves a depth between
the one it started from and the limit.  An expression that fails below the limit has kept its
level.  So whatever is asked of a parser, and however often that fails, the depth never exceeds
the limit. -/
theorem depth_accounted :
    (forall (operation : Operation) (parser : Parser), operation.ReadsForm ->
      parser.depth ≤ Parser.nestingLimit ->
      (forall answer next, operation.run parser = .done answer next ->
        next.depth = parser.depth) ∧
      forall fault left, operation.run parser = .failed fault left ->
        parser.depth ≤ left.depth ∧ left.depth ≤ Parser.nestingLimit) ∧
    (forall (power : Power) (parser : Parser), parser.depth < Parser.nestingLimit ->
      forall fault left, Operation.run (.expression power) parser = .failed fault left ->
        parser.depth < left.depth) ∧
    forall (file source : String) (first : Parser), Parser.ofSource file source = .ok first ->
      forall operations, (Operation.runAll operations first).depth ≤ Parser.nestingLimit := by
  refine ⟨?_, ?_, ?_⟩
  · intro operation parser reads small
    have balanced := Operation.run_balanced reads parser
    constructor
    · intro answer next succeeded
      rw [succeeded] at balanced
      exact balanced
    · intro fault left failed
      rw [failed] at balanced
      exact ⟨balanced.1, balanced.2 small⟩
  · intro power parser room fault left failed
    exact Parser.depth_lt_of_read room (Operation.failed_of_map failed)
  · intro file source first opened operations
    apply Operation.depth_runAll_le
    rw [(Parser.ofSource_eq_ok_iff.mp opened).1]
    exact Nat.zero_le _

/-- A group that is never closed costs its expression the level it has entered, and a group that
stands at the limit leaves the depth there. -/
theorem depth_accounted_group :
    Parser.ofSource "shell" "(a" =
      .ok ⟨⟨"shell", 1, ['a']⟩, ⟨.openParen, "(", ⟨0, 1⟩⟩, 0⟩ ∧
    Operation.run (.expression .loosest)
        ⟨⟨"shell", 1, ['a']⟩, ⟨.openParen, "(", ⟨0, 1⟩⟩, 0⟩ =
      .failed ⟨.unclosed "(" ")", ⟨0, "shell"⟩⟩
        ⟨⟨"shell", 2, []⟩, ⟨.endOfInput, "EOF", ⟨2, 2⟩⟩, 1⟩ ∧
    0 < (Parser.mk ⟨"shell", 2, []⟩ ⟨.endOfInput, "EOF", ⟨2, 2⟩⟩ 1).depth ∧
    (Operation.runAll [.expression .loosest, .enter, .leave, .leave, .leave]
      ⟨⟨"shell", 1, ['a']⟩, ⟨.openParen, "(", ⟨0, 1⟩⟩, 0⟩).depth ≤ Parser.nestingLimit ∧
    Operation.run (.start .group)
        ⟨⟨"shell", 1, ['a', ')']⟩, ⟨.openParen, "(", ⟨0, 1⟩⟩, 256⟩ =
      .failed ⟨.tooDeep 256, ⟨1, "shell"⟩⟩
        ⟨⟨"shell", 2, [')']⟩, ⟨.identifier, "a", ⟨1, 2⟩⟩, 256⟩ ∧
    256 ≤ (Parser.mk ⟨"shell", 2, [')']⟩ ⟨.identifier, "a", ⟨1, 2⟩⟩ 256).depth := by
  have opened : Parser.ofSource "shell" "(a" =
      .ok ⟨⟨"shell", 1, ['a']⟩, ⟨.openParen, "(", ⟨0, 1⟩⟩, 0⟩ := by
    cbv
  have unclosed : Operation.run (.expression .loosest)
        ⟨⟨"shell", 1, ['a']⟩, ⟨.openParen, "(", ⟨0, 1⟩⟩, 0⟩ =
      .failed ⟨.unclosed "(" ")", ⟨0, "shell"⟩⟩
        ⟨⟨"shell", 2, []⟩, ⟨.endOfInput, "EOF", ⟨2, 2⟩⟩, 1⟩ := by
    cbv
  have full : Operation.run (.start .group)
        ⟨⟨"shell", 1, ['a', ')']⟩, ⟨.openParen, "(", ⟨0, 1⟩⟩, 256⟩ =
      .failed ⟨.tooDeep 256, ⟨1, "shell"⟩⟩
        ⟨⟨"shell", 2, [')']⟩, ⟨.identifier, "a", ⟨1, 2⟩⟩, 256⟩ := by
    cbv
  exact ⟨opened, unclosed, depth_accounted.2.1 .loosest _ (by decide) _ _ unclosed,
    depth_accounted.2.2 _ _ _ opened _, full,
    ((depth_accounted.1 _ _ (.start .group) (by decide)).2 _ _ full).1⟩

end SignalScript
