import SignalScript.Proofs.Levels
import SignalScript.Proofs.Pulling

namespace SignalScript

/-!
What a failure leaves behind.

An expression fails in one of two ways.  Either the scanner refuses to read on, and then
the state that is left behind stands right where it refuses.  Or the parser holds
something against a token, and then the cause is one of a few: what follows a complete
expression is not among them, because an expression never looks at it in order to reject
it.  The argument follows the recursion of the parser, form by form.

A parser that stands where its scanner refuses cannot get away from there.  It keeps the
token it holds, and every attempt to take that token fails as the first one did.
-/

/-- A cause that lies within an expression.  Leftover tokens are not, and neither are
the faults of the scanner. -/
def Cause.isInner : Cause -> Bool
  | .numberOutOfRange _ | .unexpectedWanting _ _ | .unexpectedEnd | .missingOperand _
  | .unclosed _ _ | .tooDeep _ => true
  | .unrecognised _ | .unterminatedText | .unexpected _ | .unmatched _ => false

theorem Cause.isScanned_of_isInner {cause : Cause} (inner : cause.isInner = true) :
    cause.isScanned = false := by
  cases cause <;> first | rfl | cases inner

namespace Parser

/-- The scanner refuses to read on, and it stands where it refuses. -/
def Stuck (fault : Fault) (parser : Parser) : Prop :=
  parser.scanner.next = .failed fault parser.scanner

/-- A reply that fails does so because its state is stuck, or for one of the given
causes. -/
def Halts {Value : Type} (causes : Cause -> Prop) (reply : Reply Parser Value) : Prop :=
  forall fault left, reply = .failed fault left -> left.Stuck fault ∨ causes fault.cause

namespace Halts

variable {causes : Cause -> Prop} {Value Other : Type}

theorem done (value : Value) (next : Parser) : Halts causes (.done value next) := by
  intro fault left same
  cases same

theorem failed {fault : Fault} (cause : causes fault.cause) (left : Parser) :
    Halts causes (.failed fault left : Reply Parser Value) := by
  intro other last same
  cases same
  exact Or.inr cause

theorem andThen {reply : Reply Parser Value} {resume : Value -> Parser -> Reply Parser Other}
    (front : Halts causes reply)
    (back : forall value next, reply = .done value next -> Halts causes (resume value next)) :
    Halts causes (reply.andThen resume) := by
  cases reply with
  | done value next => exact back value next rfl
  | failed fault next =>
      intro other left same
      cases same
      exact front fault next rfl

end Halts

/-- All expressions that start at states of bounded weight halt for these causes. -/
def HaltsWithin (causes : Cause -> Prop) (limit : Option Nat) (weight : Nat) : Prop :=
  forall (parser : Parser) (power : Power), parser.weight ≤ weight ->
    Halts causes (parser.read limit power)

section
variable {causes : Cause -> Prop} {limit : Option Nat} {weight : Nat}

/-! ## Single steps -/

theorem advance_halts (parser : Parser) : Halts causes parser.advance := by
  intro fault left refused
  exact Or.inl (Scanner.next_of_failed (advance_eq_failed_iff.mp refused).2.2)

/-- A token of the wanted kind may still be refused, and any other token is rejected
without being taken. -/
theorem demand_eq_failed_iff {parser left : Parser} {kind : Kind} {otherwise fault : Fault} :
    (parser.demand kind otherwise).reply = .failed fault left <->
      parser.ahead.kind = kind ∧ parser.advance = .failed fault left ∨
        parser.ahead.kind ≠ kind ∧ fault = otherwise ∧ left = parser := by
  unfold demand
  split
  next fits => simp [fits, take]
  next unfit => simp [unfit, eq_comm]

theorem demand_halts {parser : Parser} {kind : Kind} {otherwise : Fault}
    (cause : parser.ahead.kind ≠ kind -> causes otherwise.cause) :
    Halts causes (parser.demand kind otherwise).reply := by
  intro fault left failed
  rcases demand_eq_failed_iff.mp failed with ⟨_, refused⟩ | ⟨unfit, rfl, _⟩
  · exact advance_halts parser fault left refused
  · exact Or.inr (cause unfit)

variable (inner : forall {cause : Cause}, cause.isInner = true -> causes cause)
include inner

theorem closing_halts (parser : Parser) (opened : Token) (close : Kind) :
    Halts causes (parser.closing opened close).reply := by
  apply demand_halts
  intro _
  split <;> exact inner rfl

theorem marked_halts (parser : Parser) (kind : Kind) (wanted : Wanted) (build : Token -> Tree) :
    Halts causes (parser.marked kind wanted build) := by
  apply (advance_halts parser).andThen
  intro _ next _
  apply (demand_halts fun _ => inner rfl).andThen
  intro token after _
  exact .done _ after

/-- A literal takes its token before it looks at it, so it may find the wrong kind. -/
theorem literal_halts {parser : Parser}
    (fits : Head.ofKind? parser.ahead.kind = some .literal ∨
      forall text, causes (.unexpected text)) :
    Halts causes parser.literal.reply := by
  rw [reply_literal]
  apply (advance_halts parser).andThen
  intro token next taken
  rw [token_of_advance taken, atom]
  split
  next =>
    split
    · exact .done _ next
    · exact .failed (inner rfl) next
  next => exact .done _ next
  next => exact .done _ next
  next notInt notFloat notString =>
    rcases fits with isLiteral | unexpected
    · rcases kind_of_head isLiteral with same | same | same
      · exact absurd same notInt
      · exact absurd same notFloat
      · exact absurd same notString
    · exact .failed (unexpected _) next

/-! ## Nested expressions -/

theorem inside_halts {parser : Parser} (opened : Token) (close : Kind)
    (within : HaltsWithin causes limit weight) (small : parser.weight ≤ weight) :
    Halts causes (parser.inside limit opened close) := by
  apply (within parser .loosest small).andThen
  intro tree next _
  apply (closing_halts inner next opened close).andThen
  intro _ after _
  exact .done tree after

theorem delimited_halts {parser : Parser} (tag : Tag) (front : List Tree) (close : Kind)
    (within : HaltsWithin causes limit weight) (small : parser.unread ≤ weight) :
    Halts causes (parser.delimited limit tag front close) := by
  apply (advance_halts parser).andThen
  intro opened next taken
  have smaller : next.weight ≤ weight := Nat.le_trans (weight_of_advance taken) small
  split
  · apply (advance_halts next).andThen
    intro _ after _
    exact .done _ after
  · apply (inside_halts inner opened close within smaller).andThen
    intro content after _
    exact .done _ after

theorem name_halts {parser : Parser} (within : HaltsWithin causes limit weight)
    (small : parser.unread ≤ weight)
    (fits : Head.ofKind? parser.ahead.kind = some .name ∨ forall text, causes (.unexpected text)) :
    Halts causes (parser.start limit .name) := by
  rw [start_name]
  have expected : Halts causes (parser.expect .identifier).reply := by
    apply demand_halts
    intro unfit
    rcases fits with isName | unexpected
    · exact absurd (kind_of_head isName) unfit
    · unfold mismatch
      split
      · exact inner rfl
      · exact unexpected _
  apply expected.andThen
  intro name next demanded
  have taken := (demand_eq_done_iff.mp demanded).2
  have smaller : next.unread ≤ weight :=
    Nat.le_trans next.unread_le_weight (Nat.le_trans (weight_of_advance taken) small)
  split
  · exact delimited_halts inner .paren _ .closeParen within smaller
  · exact .done _ next

/-- What a head announces halts for inner causes if it fits the held token. -/
theorem start_halts {parser : Parser} {head : Head} (within : HaltsWithin causes limit weight)
    (small : parser.unread ≤ weight)
    (fits : Head.ofKind? parser.ahead.kind = some head ∨ forall text, causes (.unexpected text)) :
    Halts causes (parser.start limit head) := by
  cases head with
  | literal => exact literal_halts inner fits
  | name => exact name_halts inner within small fits
  | group =>
      rw [start_group]
      apply (advance_halts parser).andThen
      intro opened next taken
      have smaller : next.weight ≤ weight := Nat.le_trans (weight_of_advance taken) small
      apply (inside_halts inner opened .closeParen within smaller).andThen
      intro content after _
      exact .done _ after
  | bracket =>
      rw [start_bracket]
      exact delimited_halts inner .bracket [] .closeBracket within small
  | importing =>
      have marked := marked_halts inner parser .string .modulePath
        fun path => .form .importing [.string path.value]
      rw [← reply_importing] at marked
      exact marked
  | declaring =>
      have marked := marked_halts inner parser .identifier .declaredName
        fun name => .form .declaring [Tree.ofName name.value]
      rw [← reply_declaring] at marked
      exact marked

/-! ## Operators -/

theorem paired_halts {parser : Parser} (tag : Tag) (power : Power) (left : Tree)
    (within : HaltsWithin causes limit weight) (small : parser.unread ≤ weight) :
    Halts causes (parser.paired limit tag power left) := by
  apply (advance_halts parser).andThen
  intro operator next taken
  have smaller : next.weight ≤ weight := Nat.le_trans (weight_of_advance taken) small
  split
  · apply (within next power smaller).andThen
    intro right after _
    exact .done _ after
  · exact .failed (inner rfl) next

theorem collect_halts (row : Operator) (items : List Tree) (parser : Parser)
    (within : HaltsWithin causes limit weight) (small : parser.unread ≤ weight) :
    Halts causes (parser.collect limit row items) := by
  rw [collect_eq]
  apply (advance_halts parser).andThen
  intro separator next taken
  have below : next.weight ≤ parser.unread := weight_of_advance taken
  split
  · exact .failed (inner rfl) next
  split
  next starts =>
    apply (within next row.power (Nat.le_trans below small)).andThen
    intro item after reply
    have shorter : after.unread < parser.unread := by
      have settled := weight_of_read limit reply
      have lighter := unread_lt_weight (Kind.ne_endOfInput_of_startsExpression starts)
      have less := after.unread_le_weight
      omega
    split
    · exact collect_halts row (item :: items) after within (by omega)
    · exact .done _ after
  next =>
    split
    · exact .failed (inner rfl) next
    · exact .done _ next
termination_by parser.unread

theorem grow_halts (row : Operator) (left : Tree) {parser : Parser}
    (within : HaltsWithin causes limit weight) (small : parser.unread ≤ weight) :
    Halts causes (parser.grow limit row left) := by
  unfold grow
  cases row.role with
  | binary => exact paired_halts inner row.tag row.power left within small
  | conditional => exact paired_halts inner row.tag .semicolon left within small
  | sequence => exact collect_halts inner row [left] parser within small

theorem extend_halts (power : Power) (left : Tree) (parser : Parser)
    (within : HaltsWithin causes limit weight) (small : parser.unread ≤ weight) :
    Halts causes (parser.extend limit power left) := by
  rw [extend_eq]
  cases found : Operator.ofKind? parser.ahead.kind with
  | none =>
      rw [extendOnce_of_none limit found]
      exact .done left parser
  | some row =>
      rw [extendOnce_of_some limit found]
      split
      · exact .done left parser
      · apply (grow_halts inner row left within small).andThen
        intro grown next step
        have below : next.weight ≤ parser.unread := weight_of_grow limit step
        have lighter : parser.unread < parser.weight :=
          unread_lt_weight (Operator.ne_endOfInput_of_ofKind? found)
        have smaller := next.unread_le_weight
        exact extend_halts power grown next within (by omega)
termination_by parser.weight

/-- An expression fails because its scanner is stuck, or for an inner cause. -/
theorem read_halts (limit : Option Nat) (power : Power) (parser : Parser) :
    Halts causes (parser.read limit power) := by
  cases deep : parser.tooDeep? limit with
  | some fault =>
      rcases tooDeep?_eq_some deep with ⟨bound, _, _, rfl⟩
      rw [read_of_some limit deep]
      exact .failed (inner rfl) parser
  | none =>
      rw [read_of_none limit deep]
      refine Halts.andThen ?_ fun tree after _ => .done tree _
      cases found : Head.ofKind? parser.deeper.ahead.kind with
      | none =>
          rw [body_of_none limit found]
          refine .failed (inner ?_) _
          simp only [missingExpression]
          split
          · rfl
          · split <;> rfl
      | some head =>
          have lighter : parser.unread < parser.weight := unread_lt_weight_of_head found
          have within : HaltsWithin causes limit parser.deeper.unread := by
            intro inside innerPower small
            have nested : inside.weight < parser.weight := Nat.lt_of_le_of_lt small lighter
            exact read_halts limit innerPower inside
          rw [body_of_some limit found]
          apply (start_halts inner within (Nat.le_refl _) (Or.inl found)).andThen
          intro left next started
          exact extend_halts inner power left next within
            (Nat.le_trans next.unread_le_weight (weight_of_start limit started))
termination_by parser.weight

end

/-! ## Stuck parsers -/

namespace Stuck

variable {parser last : Parser} {fault : Fault}

theorem advance_eq (stuck : parser.Stuck fault) : parser.advance = .failed fault parser :=
  advance_eq_failed_iff.mpr ⟨rfl, rfl, stuck⟩

/-- A stuck parser stays where it is and keeps what it holds. -/
theorem reached (stuck : parser.Stuck fault) (reaches : Reaches parser last) :
    last.Stuck fault ∧ last.ahead = parser.ahead := by
  rcases reaches with ⟨tokens, pulled⟩
  induction pulled with
  | stay => exact ⟨stuck, rfl⟩
  | taken step => cases stuck.advance_eq.symm.trans step
  | refused step _ inductionHypothesis =>
      cases stuck.advance_eq.symm.trans step
      exact inductionHypothesis stuck
  | moved depth _ inductionHypothesis =>
      rcases inductionHypothesis stuck with ⟨still, held⟩
      exact ⟨still, held⟩

end Stuck
end Parser

namespace Operation

open SignalScript.Parser

/-- The operation takes a held token of this kind. -/
inductive Consumes (kind : Kind) : Operation -> Prop
  | advance : Consumes kind .advance
  | expect : Consumes kind (.expect kind)
  | expectOr (otherwise : Fault) : Consumes kind (.expectOr kind otherwise)

/-- The operation returns the fault that it brings along, because the held token has
another kind. -/
def BringsAlong (parser : Parser) (fault : Fault) (operation : Operation) : Prop :=
  exists kind, operation = .expectOr kind fault ∧ parser.ahead.kind ≠ kind

theorem failed_of_map {Value Other : Type} {reply : Reply Parser Value} {build : Value -> Other}
    {fault : Fault} {left : Parser} (failed : reply.map build = .failed fault left) :
    reply = .failed fault left := by
  cases reply <;> cases failed
  rfl

theorem unchanged_of_refusal {parser left : Parser} {fault : Fault}
    (refused : parser.advance = .failed fault left) :
    left.ahead = parser.ahead ∧ left.depth = parser.depth := by
  rcases advance_eq_failed_iff.mp refused with ⟨held, depth, _⟩
  exact ⟨held, depth⟩

theorem unchanged_of_demand {parser left : Parser} {kind : Kind} {otherwise fault : Fault}
    (failed : (parser.demand kind otherwise).reply = .failed fault left) :
    left.ahead = parser.ahead ∧ left.depth = parser.depth := by
  rcases demand_eq_failed_iff.mp failed with ⟨_, refused⟩ | ⟨_, _, rfl⟩
  · exact unchanged_of_refusal refused
  · exact ⟨rfl, rfl⟩

/-- An attempt to take the held token that fails changes neither that token nor the
depth. -/
theorem unchanged_of_consumes {operation : Operation} {kind : Kind} {parser left : Parser}
    {fault : Fault} (consumes : operation.Consumes kind)
    (failed : operation.run parser = .failed fault left) :
    left.ahead = parser.ahead ∧ left.depth = parser.depth := by
  cases consumes with
  | advance => exact unchanged_of_refusal (failed_of_map failed)
  | expect => exact unchanged_of_demand (failed_of_map failed)
  | expectOr otherwise => exact unchanged_of_demand (failed_of_map failed)

/-- A stuck parser refuses every attempt to take the token it holds. -/
theorem run_of_stuck {operation : Operation} {parser : Parser} {fault : Fault}
    (consumes : operation.Consumes parser.ahead.kind) (stuck : parser.Stuck fault) :
    operation.run parser = .failed fault parser := by
  have demanded : forall otherwise,
      (parser.demand parser.ahead.kind otherwise).reply = .failed fault parser :=
    fun otherwise => demand_eq_failed_iff.mpr (Or.inl ⟨rfl, stuck.advance_eq⟩)
  cases consumes with
  | advance =>
      rw [run, stuck.advance_eq]
      rfl
  | expect =>
      rw [run, Parser.expect, demanded]
      rfl
  | expectOr otherwise =>
      rw [run, demanded]
      rfl

/-- A fault of the scanner leaves a stuck parser behind, unless it was brought along. -/
theorem stuck_of_run {operation : Operation} {parser left : Parser} {fault : Fault}
    (failed : operation.run parser = .failed fault left)
    (scanned : fault.cause.isScanned = true) (raised : ¬ operation.BringsAlong parser fault) :
    left.Stuck fault := by
  have inner : forall {cause : Cause}, cause.isInner = true -> cause.isScanned = false :=
    Cause.isScanned_of_isInner
  have within : HaltsWithin (fun cause => cause.isScanned = false) (some nestingLimit)
      parser.unread :=
    fun inside power _ => read_halts inner _ power inside
  have stuck : forall {Value : Type} {reply : Reply Parser Value} {build : Value -> Answer},
      Halts (fun cause => cause.isScanned = false) reply ->
      reply.map build = .failed fault left -> left.Stuck fault := by
    intro Value reply build halts same
    rcases halts fault left (failed_of_map same) with stuck | other
    · exact stuck
    · cases scanned.symm.trans other
  cases operation with
  | advance => exact stuck (advance_halts parser) failed
  | expect kind =>
      refine stuck (demand_halts fun _ => ?_) failed
      unfold mismatch
      split <;> rfl
  | expectOr kind otherwise =>
      rcases demand_eq_failed_iff.mp (failed_of_map failed) with ⟨_, refused⟩ | ⟨unfit, rfl, _⟩
      · exact stuck (advance_halts parser) (congrArg (Reply.map .token) refused)
      · exact absurd ⟨kind, rfl, unfit⟩ raised
  | expression power => exact stuck (read_halts inner _ power parser) failed
  | start head =>
      refine stuck ?_ failed
      rw [reply_headed]
      exact start_halts inner within (Nat.le_refl _) (Or.inr fun _ => rfl)
  | binary row left =>
      refine stuck ?_ failed
      rw [Parser.binary, reply_joined]
      exact paired_halts inner row.tag row.power left within (Nat.le_refl _)
  | conditional row left =>
      refine stuck ?_ failed
      rw [Parser.conditional, reply_joined]
      exact paired_halts inner row.tag .semicolon left within (Nat.le_refl _)
  | sequence row left =>
      refine stuck ?_ failed
      rw [reply_sequence]
      split
      · exact collect_halts inner row [left] parser within (Nat.le_refl _)
      · exact .done _ parser
  | enter =>
      simp only [run, Parser.enter] at failed
      cases deep : parser.tooDeep? (some nestingLimit) with
      | none =>
          rw [deep] at failed
          cases failed
      | some other =>
          rcases tooDeep?_eq_some deep with ⟨bound, _, _, rfl⟩
          rw [deep] at failed
          cases failed
          cases scanned
  | leave => cases failed

end Operation

/-- In whatever state a parser is, an attempt to take the held token that fails changes
neither that token nor the depth.  And once an operation has failed because the source cannot
be read on, the same token is held ever after, whatever is asked of the parser, and it can
never be taken: every attempt fails with the same fault. -/
theorem refusal_persists (parser : Parser) :
    (forall (operation : Operation) (kind : Kind) (fault : Fault) (left : Parser),
      operation.Consumes kind -> operation.run parser = .failed fault left ->
      left.ahead = parser.ahead ∧ left.depth = parser.depth) ∧
    forall (operation : Operation) (fault : Fault) (left : Parser),
      operation.run parser = .failed fault left -> fault.cause.isScanned = true ->
      ¬ operation.BringsAlong parser fault ->
      forall later : List Operation,
        (Operation.runAll later left).ahead = left.ahead ∧
        forall attempt : Operation, attempt.Consumes left.ahead.kind ->
          attempt.run (Operation.runAll later left) =
            .failed fault (Operation.runAll later left) := by
  constructor
  · intro operation kind fault left consumes failed
    exact Operation.unchanged_of_consumes consumes failed
  · intro operation fault left failed scanned raised later
    have stuck := Operation.stuck_of_run failed scanned raised
    rcases stuck.reached (Operation.reaches_runAll later left) with ⟨still, held⟩
    refine ⟨held, ?_⟩
    intro attempt consumes
    rw [← held] at consumes
    exact Operation.run_of_stuck consumes still

/-- A sum whose second operand cannot be read.  The state behind the failure holds the sign, and
neither another expression nor coming up a level gets past it. -/
theorem refusal_persists_sum :
    Parser.ofSource "shell" "a + // é\n é" =
      .ok ⟨⟨"shell", 1, " + // é\n é".toList⟩, ⟨.identifier, "a", ⟨0, 1⟩⟩, 0⟩ ∧
    Operation.run (.expression .loosest)
        ⟨⟨"shell", 1, " + // é\n é".toList⟩, ⟨.identifier, "a", ⟨0, 1⟩⟩, 0⟩ =
      .failed ⟨.unrecognised "é", ⟨11, "shell"⟩⟩
        ⟨⟨"shell", 11, ['é']⟩, ⟨.plus, "+", ⟨2, 3⟩⟩, 1⟩ ∧
    Operation.run .advance
        ⟨⟨"shell", 3, " // é\n é".toList⟩, ⟨.plus, "+", ⟨2, 3⟩⟩, 1⟩ =
      .failed ⟨.unrecognised "é", ⟨11, "shell"⟩⟩
        ⟨⟨"shell", 11, ['é']⟩, ⟨.plus, "+", ⟨2, 3⟩⟩, 1⟩ ∧
    (Parser.mk ⟨"shell", 11, ['é']⟩ ⟨.plus, "+", ⟨2, 3⟩⟩ 1).ahead = ⟨.plus, "+", ⟨2, 3⟩⟩ ∧
    Operation.run (.expect .plus)
        (Operation.runAll [.expression .loosest, .leave, .start .group]
          ⟨⟨"shell", 11, ['é']⟩, ⟨.plus, "+", ⟨2, 3⟩⟩, 1⟩) =
      .failed ⟨.unrecognised "é", ⟨11, "shell"⟩⟩
        (Operation.runAll [.expression .loosest, .leave, .start .group]
          ⟨⟨"shell", 11, ['é']⟩, ⟨.plus, "+", ⟨2, 3⟩⟩, 1⟩) := by
  have failed : Operation.run (.expression .loosest)
        ⟨⟨"shell", 1, " + // é\n é".toList⟩, ⟨.identifier, "a", ⟨0, 1⟩⟩, 0⟩ =
      .failed ⟨.unrecognised "é", ⟨11, "shell"⟩⟩
        ⟨⟨"shell", 11, ['é']⟩, ⟨.plus, "+", ⟨2, 3⟩⟩, 1⟩ := by
    cbv
  have raised : ¬ Operation.BringsAlong
      ⟨⟨"shell", 1, " + // é\n é".toList⟩, ⟨.identifier, "a", ⟨0, 1⟩⟩, 0⟩
      ⟨.unrecognised "é", ⟨11, "shell"⟩⟩ (.expression .loosest) := by
    rintro ⟨kind, same, _⟩
    cases same
  have refused : Operation.run .advance
        ⟨⟨"shell", 3, " // é\n é".toList⟩, ⟨.plus, "+", ⟨2, 3⟩⟩, 1⟩ =
      .failed ⟨.unrecognised "é", ⟨11, "shell"⟩⟩
        ⟨⟨"shell", 11, ['é']⟩, ⟨.plus, "+", ⟨2, 3⟩⟩, 1⟩ := by
    cbv
  exact ⟨by cbv, failed, refused, ((refusal_persists _).1 _ .plus _ _ .advance refused).1,
    ((refusal_persists _).2 _ _ _ failed rfl raised _).2 _ .expect⟩

end SignalScript
