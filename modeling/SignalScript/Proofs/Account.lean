import SignalScript.Proofs.Parallel
import SignalScript.Proofs.Reading

namespace SignalScript

/-!
Accounts: what any operation on a parser comes down to.

A parser reads its source through the token it holds.  Whatever is asked of it, it takes
that token, in vain or not, and changes its depth, and it does nothing else.  The tokens
taken on the way from one state to another are the account of that way.  Unlike a trail,
an account goes on after a failure and past the end of the input.

A fault is explained by the way that leads to it.  Either the scanner refused to read on,
or the fault is held against a token that some state on the way has held.  The one
exception is a fault that the caller brings along.
-/

/-- Causes that quote one token instead of two are the same. -/
theorem Cause.Alike.eq {tokens : Token -> Token -> Prop} {token : Token} {cause other : Cause}
    (alike : cause.Alike tokens token token other)
    (same : forall {opened closed : Token}, tokens opened closed -> opened = closed) :
    cause = other := by
  cases alike with
  | unexpectedWanting wants =>
      cases wants with
      | closing close delimiters => rw [same delimiters]
      | _ => rfl
  | _ => rfl

namespace Parser

/-- Taking the listed tokens leads from the first state to the last.  In between the
scanner may have refused to go on, and the depth may have changed. -/
inductive Pulled : Parser -> List Token -> Parser -> Prop
  | stay (parser : Parser) : Pulled parser [] parser
  | taken {parser next last : Parser} {token : Token} {tokens : List Token} :
      parser.advance = .done token next -> Pulled next tokens last ->
      Pulled parser (token :: tokens) last
  | refused {parser next last : Parser} {fault : Fault} {tokens : List Token} :
      parser.advance = .failed fault next -> Pulled next tokens last ->
      Pulled parser tokens last
  | moved {parser last : Parser} {tokens : List Token} (depth : Nat) :
      Pulled (parser.atDepth depth) tokens last -> Pulled parser tokens last

theorem Pulled.append {first middle last : Parser} {earlier later : List Token}
    (front : Pulled first earlier middle) (back : Pulled middle later last) :
    Pulled first (earlier ++ later) last := by
  induction front with
  | stay => exact back
  | taken step _ inductionHypothesis => exact .taken step (inductionHypothesis back)
  | refused step _ inductionHypothesis => exact .refused step (inductionHypothesis back)
  | moved depth _ inductionHypothesis => exact .moved depth (inductionHypothesis back)

theorem Trail.pulled {first last : Parser} {tokens : List Token}
    (trail : Trail first tokens last) : Pulled first tokens last := by
  induction trail with
  | stay parser => exact .stay parser
  | onward _ taken _ inductionHypothesis => exact .taken taken inductionHypothesis

/-- Some account leads from the first state to the last. -/
def Reaches (first last : Parser) : Prop :=
  exists tokens, Pulled first tokens last

namespace Reaches

variable {first middle last : Parser}

theorem refl (parser : Parser) : Reaches parser parser :=
  ⟨[], .stay parser⟩

theorem trans (front : Reaches first middle) (back : Reaches middle last) :
    Reaches first last := by
  rcases front with ⟨earlier, front⟩
  rcases back with ⟨later, back⟩
  exact ⟨earlier ++ later, front.append back⟩

theorem taken {token : Token} (reached : Reaches first middle)
    (step : middle.advance = .done token last) : Reaches first last :=
  reached.trans ⟨[token], .taken step (.stay last)⟩

theorem refused {fault : Fault} (reached : Reaches first middle)
    (step : middle.advance = .failed fault last) : Reaches first last :=
  reached.trans ⟨[], .refused step (.stay last)⟩

theorem atDepth (reached : Reaches first last) (depth : Nat) :
    Reaches first (last.atDepth depth) :=
  reached.trans ⟨[], .moved depth (.stay _)⟩

end Reaches

theorem file_of_ofSource {file source : String} {parser : Parser}
    (opened : ofSource file source = .ok parser) : parser.scanner.file = file := by
  rcases (Scanner.yields_of_next (ofSource_eq_ok_iff.mp opened).2).passes with ⟨_, passed⟩
  exact passed.file

theorem file_of_advance {parser next : Parser} {token : Token}
    (step : parser.advance = .done token next) : next.scanner.file = parser.scanner.file := by
  rcases (Scanner.yields_of_next (advance_eq_done_iff.mp step).2.2).passes with ⟨_, passed⟩
  exact passed.file

/-- A refusal changes nothing but the place of the scanner. -/
theorem advance_eq_failed_iff {parser next : Parser} {fault : Fault} :
    parser.advance = .failed fault next <->
      next.ahead = parser.ahead ∧ next.depth = parser.depth ∧
        parser.scanner.next = .failed fault next.scanner := by
  unfold advance
  cases parser.scanner.next with
  | done read after => simp
  | failed refusal after =>
      constructor
      · intro step
        cases step
        exact ⟨rfl, rfl, rfl⟩
      · rintro ⟨held, depth, same⟩
        cases next
        cases same
        cases held
        cases depth
        rfl

theorem file_of_refusal {parser next : Parser} {fault : Fault}
    (step : parser.advance = .failed fault next) : next.scanner.file = parser.scanner.file := by
  have read := (advance_eq_failed_iff.mp step).2.2
  rcases (Scanner.clears_of_failed read).1.passes with ⟨_, passed⟩
  exact passed.file

theorem Reaches.file_eq {first last : Parser} (reached : Reaches first last) :
    last.scanner.file = first.scanner.file := by
  rcases reached with ⟨tokens, pulled⟩
  induction pulled with
  | stay => rfl
  | taken step _ inductionHypothesis => exact inductionHypothesis.trans (file_of_advance step)
  | refused step _ inductionHypothesis => exact inductionHypothesis.trans (file_of_refusal step)
  | moved _ _ inductionHypothesis => exact inductionHypothesis

/-- A state on the way holds this token. -/
def Shows (first : Parser) (token : Token) : Prop :=
  exists last, Reaches first last ∧ last.ahead = token

/-- The scanner refuses to go on from a state on the way. -/
def Refuses (first : Parser) (fault : Fault) : Prop :=
  exists last left, Reaches first last ∧ last.advance = .failed fault left

/-- A fault is held against a token that a state on the way has held. -/
def Blames (first : Parser) (fault : Fault) : Prop :=
  exists token, first.Shows token ∧
    fault.position = ⟨token.span.start, first.scanner.file⟩ ∧
    fault.cause.Alike (fun shown other => shown = other ∧ first.Shows shown) token token
      fault.cause

/-- What can be said of a fault that is met on the way. -/
def Explains (first : Parser) (fault : Fault) : Prop :=
  first.Refuses fault ∨ first.Blames fault

/-- A parser is held against itself.  States have been reached from the first one, and
faults are explained by it. -/
def account (first : Parser) : Pairing where
  states parser twin := parser = twin ∧ Reaches first parser
  tokens token other := token = other ∧ first.Shows token
  faults fault other := fault = other ∧ first.Explains fault

theorem account_advance {first parser : Parser} (reached : Reaches first parser) :
    first.account.Alike first.account.tokens parser.advance parser.advance := by
  cases step : parser.advance with
  | done token next =>
      refine .done ⟨rfl, parser, reached, ?_⟩ ⟨rfl, reached.taken step⟩
      exact (token_of_advance step).symm
  | failed fault next =>
      exact .failed ⟨rfl, Or.inl ⟨parser, next, reached, step⟩⟩ ⟨rfl, reached.refused step⟩

theorem account_lawful (first : Parser) : first.account.Lawful where
  held := by
    rintro parser _ ⟨rfl, reached⟩
    exact ⟨rfl, parser, reached, rfl⟩
  depth := by
    rintro parser _ ⟨rfl, _⟩
    rfl
  atDepth := by
    rintro parser _ depth ⟨rfl, reached⟩
    exact ⟨rfl, reached.atDepth depth⟩
  advance := by
    rintro parser _ ⟨rfl, reached⟩
    exact account_advance reached
  kind := by
    rintro token _ ⟨rfl, _⟩
    rfl
  value := by
    rintro token _ ⟨rfl, _⟩ _
    rfl
  name := by
    rintro token _ ⟨rfl, _⟩ _
    rfl
  adjacent := by
    rintro parser next _ otherNext name otherName ⟨rfl, _⟩ _ step otherStep _
    cases step.symm.trans otherStep
    exact Iff.rfl
  raised := by
    rintro parser _ token _ cause otherCause ⟨rfl, reached⟩ ⟨rfl, shown⟩ alike
    cases alike.eq And.left
    refine ⟨rfl, Or.inr ⟨token, shown, ?_, alike⟩⟩
    rw [faultAt, positionOf, reached.file_eq]

end Parser

/-! ## Operations -/

/-- The state that a reply leaves behind. -/
def Reply.left {State Value : Type} : Reply State Value -> State
  | .done _ next => next
  | .failed _ next => next

/-- The same reply with another value. -/
def Reply.map {State Value Other : Type} (build : Value -> Other) :
    Reply State Value -> Reply State Other
  | .done value next => .done (build value) next
  | .failed fault next => .failed fault next

/-- A reply leaves a state on the way behind, and explains its fault if it has one. -/
structure Accounted {Value : Type} (first : Parser) (reply : Reply Parser Value) : Prop where
  reached : first.Reaches reply.left
  explained : forall fault left, reply = .failed fault left -> first.Explains fault

theorem Accounted.done {Value : Type} {first last : Parser} (value : Value)
    (reached : first.Reaches last) : Accounted first (.done value last) where
  reached := reached
  explained := by
    intro fault left same
    cases same

theorem Accounted.failed {Value : Type} {first last : Parser} {fault : Fault}
    (reached : first.Reaches last) (explained : first.Explains fault) :
    Accounted first (.failed fault last : Reply Parser Value) where
  reached := reached
  explained := by
    intro other left same
    cases same
    exact explained

theorem Pairing.Alike.accounted {Value : Type} {values : Value -> Value -> Prop} {first : Parser}
    {reply : Reply Parser Value} (alike : first.account.Alike values reply reply) :
    Accounted first reply := by
  cases reply with
  | done value next =>
      cases alike with
      | done _ states => exact .done value states.2
  | failed fault next =>
      cases alike with
      | failed faults states => exact .failed states.2 faults.2

theorem Accounted.map {Value Other : Type} {first : Parser} {reply : Reply Parser Value}
    (accounted : Accounted first reply) (build : Value -> Other) :
    Accounted first (reply.map build) := by
  cases reply with
  | done value next => exact .done _ accounted.reached
  | failed fault next => exact .failed accounted.reached (accounted.explained fault next rfl)

/-- What can be asked of a parser.  A head or an operator is read whatever token is held,
and an operator may be any row, also one that is in no table. -/
inductive Operation where
  | advance
  | expect (kind : Kind)
  | expectOr (kind : Kind) (otherwise : Fault)
  | expression (power : Power)
  | start (head : Head)
  | binary (row : Operator) (left : Tree)
  | conditional (row : Operator) (left : Tree)
  | sequence (row : Operator) (left : Tree)
  | enter
  | leave

/-- What an operation hands out on success. -/
inductive Answer where
  | token (token : Token)
  | tree (tree : Tree)
  | nothing

namespace Operation

open SignalScript.Parser

/-- The reply of a parser to an operation, under the limit on nesting of whole
programs. -/
def run (operation : Operation) (parser : Parser) : Reply Parser Answer :=
  let limit := some nestingLimit
  let nested := operand limit parser.weight
  match operation with
  | .advance => parser.advance.map .token
  | .expect kind => (parser.expect kind).reply.map .token
  | .expectOr kind otherwise => (parser.demand kind otherwise).reply.map .token
  | .expression power => (parser.expression limit power).reply.map .tree
  | .start head => (headed nested head parser parser.unread_le_weight).reply.map .tree
  | .binary row left =>
      (Parser.binary nested row left parser parser.unread_le_weight).reply.map .tree
  | .conditional row left =>
      (Parser.conditional nested row left parser parser.unread_le_weight).reply.map .tree
  | .sequence row left =>
      (Parser.sequence nested row left parser parser.unread_le_weight).reply.map .tree
  | .enter =>
      match parser.enter limit with
      | .ok next => .done .nothing next
      | .error fault => .failed fault parser
  | .leave => .done .nothing (parser.leave 1)

/-- The state behind operations that are asked one after another, whether they succeed
or fail. -/
def runAll (operations : List Operation) (parser : Parser) : Parser :=
  operations.foldl (fun parser operation => (operation.run parser).left) parser

end Operation

namespace Parser

theorem alikeWithin {pairing : Pairing} (lawful : pairing.Lawful) (limit : Option Nat)
    (weight : Nat) : AlikeWithin pairing limit weight :=
  fun parser twin power _ alike => read_alike lawful limit power parser twin alike

theorem reply_sequence (limit : Option Nat) {bound : Nat} (row : Operator) (left : Tree)
    (parser : Parser) (small : parser.unread ≤ bound) :
    (sequence (operand limit bound) row left parser small).reply =
      if parser.ahead.kind = row.kind then parser.collect limit row [left]
      else .done (.form row.tag [left]) parser := by
  unfold sequence
  split
  · rw [Step.reply_relax, reply_siblings]
  · rfl

theorem sequence_alike {pairing : Pairing} {parser twin : Parser} (lawful : pairing.Lawful)
    (alike : pairing.states parser twin) (limit : Option Nat) (row : Operator) (left : Tree) :
    pairing.AlikeTrees
      (sequence (operand limit parser.weight) row left parser parser.unread_le_weight).reply
      (sequence (operand limit twin.weight) row left twin twin.unread_le_weight).reply := by
  rw [reply_sequence, reply_sequence, ← lawful.kind (lawful.held alike)]
  split
  · exact collect_alike lawful row [left] parser twin alike (alikeWithin lawful limit _)
      (Nat.le_refl _)
  · exact .done rfl alike

/-- What a head announces does not depend on the bound. -/
theorem reply_headed (limit : Option Nat) {bound : Nat} (head : Head) (parser : Parser)
    (small : parser.unread ≤ bound) :
    (headed (operand limit bound) head parser small).reply = parser.start limit head := by
  cases head <;> rfl

end Parser

namespace Operation

open SignalScript.Parser

/-- Every operation is accounted for, unless it returns the fault that it brings along. -/
theorem run_accounted (operation : Operation) (parser : Parser) :
    Accounted parser (operation.run parser) ∨
      exists kind otherwise, operation = .expectOr kind otherwise ∧
        operation.run parser = .failed otherwise parser := by
  have lawful := parser.account_lawful
  have alike : parser.account.states parser parser := ⟨rfl, .refl parser⟩
  have within := alikeWithin lawful (some nestingLimit) parser.unread
  cases operation with
  | advance => exact Or.inl ((lawful.advance alike).accounted.map _)
  | expect kind =>
      have demanded := demand_alike lawful alike kind (mismatch_alike lawful alike)
      exact Or.inl (demanded.accounted.map _)
  | expectOr kind otherwise =>
      by_cases fits : parser.ahead.kind = kind
      · refine Or.inl (Accounted.map ?_ _)
        rw [demand, if_pos fits]
        exact (lawful.advance alike).accounted
      · refine Or.inr ⟨kind, otherwise, rfl, ?_⟩
        rw [run, demand, if_neg fits]
        rfl
  | expression power =>
      have read := read_alike lawful (some nestingLimit) power parser parser alike
      exact Or.inl (read.accounted.map _)
  | start head =>
      have started := start_alike lawful alike within (Nat.le_refl _) head
      rw [← reply_headed _ _ _ parser.unread_le_weight] at started
      exact Or.inl (started.accounted.map _)
  | binary row left =>
      have paired := paired_alike lawful alike within (Nat.le_refl _) row.tag row.power left
      rw [← reply_joined _ _ _ _ _ parser.unread_le_weight] at paired
      exact Or.inl (paired.accounted.map _)
  | conditional row left =>
      have paired := paired_alike lawful alike within (Nat.le_refl _) row.tag .semicolon left
      rw [← reply_joined _ _ _ _ _ parser.unread_le_weight] at paired
      exact Or.inl (paired.accounted.map _)
  | sequence row left =>
      have collected := sequence_alike lawful alike (some nestingLimit) row left
      exact Or.inl (collected.accounted.map _)
  | enter =>
      refine Or.inl ?_
      simp only [run, Parser.enter]
      rcases tooDeep?_alike lawful alike (some nestingLimit) with
        ⟨allowed, _⟩ | ⟨fault, _, deep, _, faults⟩
      · rw [allowed]
        exact .done _ ((Reaches.refl parser).atDepth _)
      · rw [deep]
        exact .failed (.refl parser) faults.2
  | leave => exact Or.inl (.done _ ((Reaches.refl parser).atDepth _))

theorem reaches_run (operation : Operation) (parser : Parser) :
    parser.Reaches (operation.run parser).left := by
  rcases run_accounted operation parser with accounted | ⟨kind, otherwise, _, returned⟩
  · exact accounted.reached
  · rw [returned]
    exact .refl parser

/-- A fault is explained by what the parser does, or it was brought along. -/
theorem explained_of_run {operation : Operation} {parser left : Parser} {fault : Fault}
    (failed : operation.run parser = .failed fault left) :
    parser.Explains fault ∨ exists kind, operation = .expectOr kind fault := by
  rcases run_accounted operation parser with accounted | ⟨kind, otherwise, same, returned⟩
  · exact Or.inl (accounted.explained fault left failed)
  · cases failed.symm.trans returned
    exact Or.inr ⟨kind, same⟩

theorem reaches_runAll (operations : List Operation) (parser : Parser) :
    parser.Reaches (runAll operations parser) := by
  induction operations generalizing parser with
  | nil => exact .refl parser
  | cons operation operations inductionHypothesis =>
      exact (reaches_run operation parser).trans (inductionHypothesis _)

end Operation

/-- The fault of a rejected source is explained by its first state. -/
theorem explained_of_parseWithin {limit : Option Nat} {file source : String} {first : Parser}
    {fault : Fault} (opened : Parser.ofSource file source = .ok first)
    (refused : parseWithin limit file source = .error fault) : first.Explains fault := by
  rcases parseWithin_alike first.account_lawful limit opened opened ⟨rfl, .refl first⟩ with
    ⟨tree, accepted, _⟩ | ⟨other, _, failed, _, faults⟩
  · cases refused.symm.trans accepted
  · cases refused.symm.trans failed
    exact faults.2

end SignalScript
