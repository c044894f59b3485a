import SignalScript.Proofs.Leftover
import SignalScript.Proofs.Punctuation

namespace SignalScript

/-!
What is missing where a parse stops.

Three causes say that something is missing: an operand, a closing delimiter, or an expression
where the input ends.  Each of them is raised from more than one place, and the place decides
which token is blamed.

An expression is asked for at the start of the source, behind an opening delimiter, or where the
held token can start one.  Therefore an operator that is met in place of an expression has
nothing to its left but a delimiter, and so has the end of the input.  Every other complaint
about an operand comes from an operator that has been taken and looks at the token behind it.

The argument follows the recursion of the parser, form by form, with the tokens that have been
taken since the start.
-/

/-- A cause that says that something is missing. -/
def Cause.isMissing : Cause -> Bool
  | .unexpectedEnd | .missingOperand _ | .unclosed _ _ => true
  | _ => false

theorem Cause.isMissing_of_isScanned {cause : Cause} (scanned : cause.isScanned = true) :
    cause.isMissing = false := by
  cases cause <;> first | rfl | cases scanned

/-- Behind these tokens an expression has to start: there are none, or the last one opens a
form. -/
def Fresh (tokens : List Token) : Prop :=
  forall previous, previous ∈ tokens.getLast? -> previous.kind.opens = true

theorem fresh_nil : Fresh [] := by
  intro previous member
  cases member

theorem fresh_concat (tokens : List Token) {opened : Token} (opens : opened.kind.opens = true) :
    Fresh (tokens ++ [opened]) := by
  intro previous member
  rw [List.getLast?_concat] at member
  cases member
  exact opens

/-- Behind these tokens an operator of this kind has no left operand: there are none, or the
last one opens a form or is a looser separator. -/
def Bare (tokens : List Token) (kind : Kind) : Prop :=
  forall previous, previous ∈ tokens.getLast? -> previous.kind.opens = true ∨
    previous.kind.isSeparator = true ∧ previous.kind.power < kind.power

theorem Fresh.bare {tokens : List Token} (fresh : Fresh tokens) (kind : Kind) :
    Bare tokens kind :=
  fun previous member => Or.inl (fresh previous member)

theorem bare_concat (tokens : List Token) {separator : Token} {kind : Kind}
    (separates : separator.kind.isSeparator = true) (looser : separator.kind.power < kind.power) :
    Bare (tokens ++ [separator]) kind := by
  intro previous member
  rw [List.getLast?_concat] at member
  cases member
  exact Or.inr ⟨separates, looser⟩

theorem Operator.isSeparator_of_sequence {row : Operator} (listed : row ∈ table)
    (sequence : row.role = .sequence) : row.kind.isSeparator = true := by
  revert row
  decide

theorem Kind.ne_endOfInput_of_joins {kind : Kind}
    (joins : (Operator.ofKind? kind).isSome = true) : kind ≠ .endOfInput := by
  rintro rfl
  cases joins

theorem Kind.startsExpression_of_isSeparator {kind : Kind}
    (separates : kind.isSeparator = true) : kind.startsExpression = false := by
  cases kind <;> first | rfl | cases separates

namespace Parser

/-! ## Tokens taken since the start -/

/-- Taking these tokens leads to a state of any depth. -/
def Arrives (origin : Parser) (front : List Token) (parser : Parser) : Prop :=
  Trail (origin.atDepth parser.depth) front parser

namespace Arrives

variable {origin parser last : Parser} {front tokens : List Token}

theorem start (origin : Parser) : Arrives origin [] origin :=
  .stay origin

theorem append (arrives : Arrives origin front parser) (trail : Trail parser tokens last) :
    Arrives origin (front ++ tokens) last := by
  rw [Arrives, trail.depth_eq]
  exact Trail.append arrives trail

theorem trans (arrives : Arrives origin front parser) (onward : Arrives parser tokens last) :
    Arrives origin (front ++ tokens) last :=
  Trail.append (Trail.atDepth arrives last.depth) onward

theorem taken {token : Token} (arrives : Arrives origin front parser)
    (more : parser.ahead.kind ≠ .endOfInput) (step : parser.advance = .done token last) :
    Arrives origin (front ++ [token]) last :=
  arrives.append (.single more step)

theorem atDepth (arrives : Arrives origin front parser) (depth : Nat) :
    Arrives origin front (parser.atDepth depth) :=
  Trail.atDepth arrives depth

theorem covers {tree : Tree} (arrives : Arrives origin front parser)
    (covered : Covers parser tree last) : exists later, Arrives origin later last := by
  rcases covered.spelled with ⟨_, tokens, _, trail⟩
  exact ⟨front ++ tokens, arrives.append trail⟩

/-- From the start of a source, the way leads along its tokens. -/
theorem trail {file source : String} (arrives : Arrives origin front parser)
    (opened : ofSource file source = .ok origin) : Trail origin front (parser.atDepth 0) := by
  have level := Trail.atDepth arrives 0
  have same : origin.atDepth 0 = origin := by
    rw [← depth_of_ofSource opened]
    rfl
  rw [← same]
  exact level

end Arrives

/-- What is behind a fault that says that something is missing. -/
inductive Complaint (limit : Option Nat) (origin : Parser) : Fault -> Prop
  /-- The contents of a delimiter are complete, and behind them the input ends. -/
  | unclosed {front : List Token} {parser next last : Parser} {opened : Token} {close : Kind}
      {content : Tree} :
      Arrives origin front parser -> parser.advance = .done opened next ->
      opened.kind.partner? = some close ->
      next.read limit .loosest = .done content last -> last.ahead.kind = .endOfInput ->
      Complaint limit origin (last.faultAt opened (.unclosed opened.value close.symbol))
  /-- Behind an operator no expression starts. -/
  | behind {front : List Token} {parser next : Parser} {operator : Token} :
      Arrives origin front parser -> (Operator.ofKind? parser.ahead.kind).isSome = true ->
      parser.advance = .done operator next -> next.ahead.kind.startsExpression = false ->
      Complaint limit origin (next.operandMissing operator)
  /-- In front of an operator no expression has ended. -/
  | before {front : List Token} {parser : Parser} :
      Arrives origin front parser -> (Operator.ofKind? parser.ahead.kind).isSome = true ->
      Bare front parser.ahead.kind ->
      Complaint limit origin (parser.operandMissing parser.ahead)
  /-- The input ends where an expression has to start. -/
  | ended {front : List Token} {parser : Parser} :
      Arrives origin front parser -> parser.ahead.kind = .endOfInput -> Fresh front ->
      Complaint limit origin (parser.faultAt parser.ahead .unexpectedEnd)
  | other {fault : Fault} :
      fault.cause.isMissing = false -> Complaint limit origin fault

/-- A reply fails with a complaint or not at all. -/
def Truthful {Value : Type} (limit : Option Nat) (origin : Parser)
    (reply : Reply Parser Value) : Prop :=
  forall fault left, reply = .failed fault left -> Complaint limit origin fault

namespace Truthful

variable {limit : Option Nat} {origin : Parser} {Value Other : Type}

theorem done (value : Value) (next : Parser) : Truthful limit origin (.done value next) := by
  intro fault left same
  cases same

theorem failed {fault : Fault} (complaint : Complaint limit origin fault) (left : Parser) :
    Truthful limit origin (.failed fault left : Reply Parser Value) := by
  intro other last same
  cases same
  exact complaint

theorem andThen {reply : Reply Parser Value} {resume : Value -> Parser -> Reply Parser Other}
    (front : Truthful limit origin reply)
    (back : forall value next, reply = .done value next ->
      Truthful limit origin (resume value next)) :
    Truthful limit origin (reply.andThen resume) := by
  cases reply with
  | done value next => exact back value next rfl
  | failed fault next =>
      intro other left same
      cases same
      exact front fault next rfl

/-- Where only other causes can be met, there is nothing to show. -/
theorem of_halts {causes : Cause -> Prop} {reply : Reply Parser Value}
    (halts : Halts causes reply)
    (others : forall {cause : Cause}, causes cause -> cause.isMissing = false) :
    Truthful limit origin reply := by
  intro fault left failed
  rcases halts fault left failed with stuck | cause
  · exact .other (Cause.isMissing_of_isScanned (Scanner.isScanned_of_next stuck))
  · exact .other (others cause)

end Truthful

/-- All expressions that start at states of bounded weight, where one starts or has to start,
are truthful. -/
def TruthfulWithin (limit : Option Nat) (origin : Parser) (weight : Nat) : Prop :=
  forall (front : List Token) (parser : Parser) (power : Power), parser.weight ≤ weight ->
    Arrives origin front parser ->
    parser.ahead.kind.startsExpression = true ∨ Fresh front ->
    Truthful limit origin (parser.read limit power)

section
variable {limit : Option Nat} {origin parser : Parser} {weight : Nat} {front : List Token}

/-! ## Heads -/

theorem advance_truthful (parser : Parser) : Truthful limit origin parser.advance := by
  have halts : Halts (fun _ => False) parser.advance := advance_halts parser
  exact .of_halts halts False.elim

theorem demand_truthful {kind : Kind} {otherwise : Fault}
    (complaint : parser.ahead.kind ≠ kind -> Complaint limit origin otherwise) :
    Truthful limit origin (parser.demand kind otherwise).reply := by
  intro fault left failed
  rcases demand_eq_failed_iff.mp failed with ⟨_, refused⟩ | ⟨unfit, rfl, _⟩
  · exact advance_truthful parser fault left refused
  · exact complaint unfit

theorem literal_truthful (parser : Parser) : Truthful limit origin parser.literal.reply := by
  rw [reply_literal]
  apply (advance_truthful parser).andThen
  intro token next _
  rw [atom]
  split
  next =>
    split
    · exact .done _ next
    · exact .failed (.other rfl) next
  next => exact .done _ next
  next => exact .done _ next
  next => exact .failed (.other rfl) next

theorem marked_truthful (parser : Parser) (kind : Kind) (wanted : Wanted)
    (build : Token -> Tree) : Truthful limit origin (parser.marked kind wanted build) := by
  apply (advance_truthful parser).andThen
  intro _ next _
  apply (demand_truthful fun _ => .other rfl).andThen
  intro token after _
  exact .done _ after

/-- Behind an opening delimiter an expression has to start, and behind its contents the partner
has to follow. -/
theorem inside_truthful {next : Parser} {opened : Token} {close : Kind}
    (within : TruthfulWithin limit origin weight) (small : parser.unread ≤ weight)
    (arrives : Arrives origin front parser) (taken : parser.advance = .done opened next)
    (partners : parser.ahead.kind.partner? = some close) :
    Truthful limit origin (next.inside limit opened close) := by
  have held := token_of_advance taken
  have opens : opened.kind.opens = true := Kind.opens_of_partner? (held ▸ partners)
  have more := Kind.ne_endOfInput_of_opens (Kind.opens_of_partner? partners)
  have smaller : next.weight ≤ weight := Nat.le_trans (weight_of_advance taken) small
  apply (within _ next .loosest smaller (arrives.taken more taken)
    (Or.inr (fresh_concat front opens))).andThen
  intro content last contents
  refine Truthful.andThen (demand_truthful fun _ => ?_) fun _ after _ => .done content after
  split
  next atEnd => exact .unclosed arrives taken (held ▸ partners) contents atEnd
  next => exact .other rfl

theorem delimited_truthful (tag : Tag) (children : List Tree) {close : Kind}
    (within : TruthfulWithin limit origin weight) (small : parser.unread ≤ weight)
    (arrives : Arrives origin front parser)
    (partners : parser.ahead.kind.partner? = some close) :
    Truthful limit origin (parser.delimited limit tag children close) := by
  apply (advance_truthful parser).andThen
  intro opened next taken
  split
  · apply (advance_truthful next).andThen
    intro _ after _
    exact .done _ after
  · apply (inside_truthful within small arrives taken partners).andThen
    intro content after _
    exact .done _ after

theorem name_truthful (within : TruthfulWithin limit origin weight)
    (small : parser.unread ≤ weight) (arrives : Arrives origin front parser)
    (isName : parser.ahead.kind = .identifier) :
    Truthful limit origin (parser.start limit .name) := by
  rw [start_name]
  apply (demand_truthful fun unfit => absurd isName unfit).andThen
  intro name next demanded
  have taken := (demand_eq_done_iff.mp demanded).2
  have smaller : next.unread ≤ weight :=
    Nat.le_trans next.unread_le_weight (Nat.le_trans (weight_of_advance taken) small)
  split
  next call =>
    have partners : next.ahead.kind.partner? = some .closeParen := by
      rw [call.1]
      rfl
    exact delimited_truthful .paren _ within smaller
      (arrives.taken (more_of_kind isName (by decide)) taken) partners
  next => exact .done _ next

theorem start_truthful {head : Head} (within : TruthfulWithin limit origin weight)
    (small : parser.unread ≤ weight) (arrives : Arrives origin front parser)
    (found : Head.ofKind? parser.ahead.kind = some head) :
    Truthful limit origin (parser.start limit head) := by
  have isKind := kind_of_head found
  cases head with
  | literal => exact literal_truthful parser
  | name => exact name_truthful within small arrives isKind
  | group =>
      have isOpened : parser.ahead.kind = .openParen := isKind
      rw [start_group]
      apply (advance_truthful parser).andThen
      intro opened next taken
      apply (inside_truthful within small arrives taken (by rw [isOpened]; rfl)).andThen
      intro content after _
      exact .done _ after
  | bracket =>
      have isOpened : parser.ahead.kind = .openBracket := isKind
      rw [start_bracket]
      exact delimited_truthful .bracket [] within small arrives (by rw [isOpened]; rfl)
  | importing =>
      have marked : Truthful limit origin parser.importing.reply := by
        rw [reply_importing]
        exact marked_truthful parser _ _ _
      exact marked
  | declaring =>
      have marked : Truthful limit origin parser.declaring.reply := by
        rw [reply_declaring]
        exact marked_truthful parser _ _ _
      exact marked

/-! ## Operators -/

theorem paired_truthful (tag : Tag) (power : Power) (left : Tree)
    (within : TruthfulWithin limit origin weight) (small : parser.unread ≤ weight)
    (arrives : Arrives origin front parser)
    (joins : (Operator.ofKind? parser.ahead.kind).isSome = true) :
    Truthful limit origin (parser.paired limit tag power left) := by
  have more := Kind.ne_endOfInput_of_joins joins
  apply (advance_truthful parser).andThen
  intro operator next taken
  split
  next starts =>
    apply (within _ next power (Nat.le_trans (weight_of_advance taken) small)
      (arrives.taken more taken) (Or.inl starts)).andThen
    intro right after _
    exact .done _ after
  next never =>
    have absent := Bool.eq_false_of_not_eq_true never
    exact .failed (.behind arrives joins taken absent) next

/-- The loop over siblings.  Of two separators in a row the first is blamed, and otherwise the
operator behind the separator. -/
theorem collect_truthful {row : Operator} (sequence : row.role = .sequence) (items : List Tree)
    (front : List Token) (parser : Parser) (within : TruthfulWithin limit origin weight)
    (small : parser.unread ≤ weight) (arrives : Arrives origin front parser)
    (found : Operator.ofKind? parser.ahead.kind = some row) :
    Truthful limit origin (parser.collect limit row items) := by
  have listed := Operator.mem_table_of_ofKind? found
  have held : row.kind = parser.ahead.kind := Operator.kind_of_ofKind? found
  have separates := Operator.isSeparator_of_sequence listed sequence
  have more : parser.ahead.kind ≠ .endOfInput := Operator.ne_endOfInput_of_ofKind? found
  have joins : (Operator.ofKind? parser.ahead.kind).isSome = true := by
    rw [found]
    rfl
  rw [collect_eq]
  apply (advance_truthful parser).andThen
  intro separator next taken
  have below : next.weight ≤ parser.unread := weight_of_advance taken
  have arrivesNext := arrives.taken more taken
  split
  next doubled =>
    have never := Kind.startsExpression_of_isSeparator (doubled.symm ▸ separates)
    exact .failed (.behind arrives joins taken never) next
  next =>
  split
  next starts =>
    apply (within _ next row.power (Nat.le_trans below small) arrivesNext (Or.inl starts)).andThen
    intro item after reply
    have shorter : after.unread < parser.unread := by
      have settled := weight_of_read limit reply
      have lighter := unread_lt_weight (Kind.ne_endOfInput_of_startsExpression starts)
      have less := after.unread_le_weight
      omega
    split
    next again =>
      rcases arrivesNext.covers (read_reads reply).toCovers with ⟨later, arrivesAfter⟩
      refine collect_truthful sequence (item :: items) later after within (by omega) arrivesAfter ?_
      rw [again, held]
      exact found
    next => exact .done _ after
  next =>
    split
    next tighter =>
      have same : separator.kind = row.kind := by rw [token_of_advance taken, held]
      have looser : separator.kind.power < next.ahead.kind.power := by
        rw [same, held, Operator.power_of_ofKind? found]
        exact tighter
      have operator : (Operator.ofKind? next.ahead.kind).isSome = true := by
        cases absent : Operator.ofKind? next.ahead.kind with
        | some _ => rfl
        | none =>
            rw [Kind.power_eq_loosest absent] at looser
            exact absurd looser (Nat.not_lt_zero _)
      exact .failed (.before arrivesNext operator
        (bare_concat front (same ▸ separates) looser)) next
    next => exact .done _ next
termination_by parser.unread

theorem grow_truthful {row : Operator} (left : Tree) (within : TruthfulWithin limit origin weight)
    (small : parser.unread ≤ weight) (arrives : Arrives origin front parser)
    (found : Operator.ofKind? parser.ahead.kind = some row) :
    Truthful limit origin (parser.grow limit row left) := by
  have joins : (Operator.ofKind? parser.ahead.kind).isSome = true := by
    rw [found]
    rfl
  unfold grow
  cases role : row.role with
  | binary => exact paired_truthful row.tag row.power left within small arrives joins
  | conditional => exact paired_truthful row.tag .semicolon left within small arrives joins
  | sequence => exact collect_truthful role [left] front parser within small arrives found

/-- The loop over operators.  What has been read so far says which tokens have been taken. -/
theorem extend_truthful {first : Parser} {power : Power} (left : Tree) (parser : Parser)
    (within : TruthfulWithin limit origin weight) (small : parser.unread ≤ weight)
    (arrives : Arrives origin front first) (covered : Covers first left parser)
    (stands : left.StandsBefore parser.ahead.kind) :
    Truthful limit origin (parser.extend limit power left) := by
  rw [extend_eq]
  cases found : Operator.ofKind? parser.ahead.kind with
  | none =>
      rw [extendOnce_of_none limit found]
      exact .done left parser
  | some row =>
      rw [extendOnce_of_some limit found]
      split
      · exact .done left parser
      · rcases arrives.covers covered with ⟨later, arrivesHere⟩
        apply (grow_truthful left within small arrivesHere found).andThen
        intro grown next step
        have sound : SoundWithin limit parser.unread := fun _ _ _ _ _ reply => read_reads reply
        rcases grow_covers sound (Nat.le_refl _) found covered stands step with
          ⟨grownCovered, _, grownStands⟩
        have below : next.weight ≤ parser.unread := weight_of_grow limit step
        have lighter : parser.unread < parser.weight :=
          unread_lt_weight (Operator.ne_endOfInput_of_ofKind? found)
        have smaller := next.unread_le_weight
        exact extend_truthful grown next within (by omega) arrives grownCovered grownStands
termination_by parser.weight

/-! ## Expressions -/

/-- Where an expression has to start, what is held instead says what is missing. -/
theorem missingExpression_complaint (arrives : Arrives origin front parser) (fresh : Fresh front) :
    Complaint limit origin parser.missingExpression := by
  rw [missingExpression]
  split
  next atEnd => exact .ended arrives atEnd fresh
  next =>
    split
    next joins => exact .before arrives joins (fresh.bare _)
    next => exact .other rfl

/-- Where an expression starts or has to start, it is read or the complaint is true. -/
theorem read_truthful (limit : Option Nat) (power : Power) (front : List Token) (parser : Parser)
    (arrives : Arrives origin front parser)
    (expected : parser.ahead.kind.startsExpression = true ∨ Fresh front) :
    Truthful limit origin (parser.read limit power) := by
  cases deep : parser.tooDeep? limit with
  | some fault =>
      rcases tooDeep?_eq_some deep with ⟨bound, _, _, rfl⟩
      rw [read_of_some limit deep]
      exact .failed (.other rfl) parser
  | none =>
      have below : Arrives origin front parser.deeper := arrives.atDepth _
      rw [read_of_none limit deep]
      refine Truthful.andThen ?_ fun tree after _ => .done tree _
      cases found : Head.ofKind? parser.deeper.ahead.kind with
      | none =>
          rw [body_of_none limit found]
          rcases expected with starts | fresh
          · rw [Kind.startsExpression] at starts
            cases Option.isSome_iff_exists.mp starts with
            | intro head same => cases found.symm.trans same
          · exact .failed (missingExpression_complaint below fresh) _
      | some head =>
          have lighter : parser.unread < parser.weight := unread_lt_weight_of_head found
          have within : TruthfulWithin limit origin parser.deeper.unread := by
            intro later inside innerPower small innerArrives innerExpected
            have nested : inside.weight < parser.weight := Nat.lt_of_le_of_lt small lighter
            exact read_truthful limit innerPower later inside innerArrives innerExpected
          rw [body_of_some limit found]
          apply (start_truthful within (Nat.le_refl _) below found).andThen
          intro left next started
          have sound : SoundWithin limit parser.deeper.unread :=
            fun _ _ _ _ _ reply => read_reads reply
          rcases start_covers sound (Nat.le_refl _) found started with ⟨covered, primary⟩
          exact extend_truthful left next within
            (Nat.le_trans next.unread_le_weight (weight_of_start limit started)) below covered
            (Tree.standsBefore_of_primary _ primary)
termination_by parser.weight

end
end Parser

/-! ## Tokens around a complaint -/

theorem Scanner.Scans.stream_eq {first last : Scanner} {tokens : List Token}
    (scans : Scans first tokens last) : first.stream = tokens ++ last.stream := by
  induction scans with
  | stay => rfl
  | onward read more _ inductionHypothesis =>
      rw [stream_of_done read, if_neg more, inductionHypothesis]
      rfl

namespace Parser

section
variable {file source : String} {origin parser : Parser} {front : List Token}

/-- The tokens that have been taken since the start of a source are those that its scanner
reads first. -/
theorem Arrives.scans (arrives : Arrives origin front parser)
    (opened : ofSource file source = .ok origin) :
    exists middle, (Scanner.ofSource file source).Scans front middle ∧
      middle.next = .done parser.ahead parser.scanner := by
  have scans := Scanner.scans_of_trail (arrives.trail opened) (ofSource_eq_ok_iff.mp opened).2
  exact scans

/-- A token that is held on the way stands in the stream behind those that have been taken. -/
theorem Arrives.stream_eq (arrives : Arrives origin front parser)
    (opened : ofSource file source = .ok origin) (more : parser.ahead.kind ≠ .endOfInput) :
    (Scanner.ofSource file source).stream =
      front ++ parser.ahead :: parser.scanner.stream := by
  rcases arrives.scans opened with ⟨middle, scans, read⟩
  rw [scans.stream_eq, Scanner.stream_of_done read, if_neg more]

theorem head?_stream_of_advance {next : Parser} {token : Token}
    (taken : parser.advance = .done token next) :
    parser.scanner.stream.head? = some next.ahead := by
  rw [Scanner.stream_of_done (advance_eq_done_iff.mp taken).2.2]
  split <;> rfl

/-- The end of the input stands where the source ends. -/
theorem Arrives.start_eq (arrives : Arrives origin front parser)
    (short : source.utf8ByteSize < 2 ^ 32) (opened : ofSource file source = .ok origin)
    (atEnd : parser.ahead.kind = .endOfInput) :
    parser.ahead.span.start.toNat = source.utf8ByteSize := by
  rcases arrives.scans opened with ⟨middle, scans, read⟩
  have yielded := Scanner.yields_of_next read
  rcases scans.passes with ⟨taken, passed⟩
  rcases yielded.passed with ⟨final, ⟨gap, cleared, _⟩, written, span⟩
  have reached := passed.append cleared
  have nothing : final.rest = [] := by
    rw [written.rest, yielded.ended.mp atEnd, yielded.last atEnd]
    rfl
  have whole : source.toList = taken ++ gap := by
    have rest : source.toList = (taken ++ gap) ++ final.rest := reached.rest
    rw [nothing, List.append_nil] at rest
    exact rest
  have offset : final.offset = source.utf8ByteSize := by
    rw [reached.offset, ← whole, Text.size_toList]
    exact Nat.zero_add _
  rw [span, Span.ofOffset, offset]
  exact UInt32.toNat_ofNat_of_lt' short

end
end Parser

/-! ## Programs -/

/-- Whatever a parse says is missing, it says because of a state on its way. -/
theorem complaint_of_parseWithin {limit : Option Nat} {file source : String} {fault : Fault}
    (refused : parseWithin limit file source = .error fault)
    (missing : fault.cause.isMissing = true) :
    exists first, Parser.ofSource file source = .ok first ∧ first.Complaint limit fault := by
  cases opened : Parser.ofSource file source with
  | error refusal =>
      cases refused.symm.trans (parseWithin_of_error opened)
      have scanned := Parser.isScanned_of_ofSource opened
      cases missing.symm.trans (Cause.isMissing_of_isScanned scanned)
  | ok first =>
      refine ⟨first, rfl, ?_⟩
      rw [parseWithin_eq opened] at refused
      cases reply : first.read limit .loosest with
      | failed stopped last =>
          rw [reply] at refused
          cases refused
          exact Parser.read_truthful limit .loosest [] first (.start first) (Or.inr fresh_nil)
            fault last reply
      | done tree last =>
          rw [reply] at refused
          rcases Parser.conclude_eq_error refused with ⟨_, rfl⟩
          refine .other ?_
          simp only [Parser.faultAt]
          split <;> rfl

/-- A parse complains of a missing operand at an operator, behind which no expression starts or
in front of which none has ended.  It complains of the end of the input only there, and only
where an expression has to start. -/
theorem missing_operand_true {file source : String} {fault : Fault}
    (short : source.utf8ByteSize < 2 ^ 32) (refused : parse file source = .error fault) :
    (forall operator, fault.cause = .missingOperand operator ->
      exists (front : List Token) (token : Token) (back : List Token),
        (Scanner.ofSource file source).stream = front ++ token :: back ∧
        token.span.start = fault.position.offset ∧ token.value = operator ∧
        (Operator.ofKind? token.kind).isSome = true ∧
        ((exists next, back.head? = some next ∧ next.kind.startsExpression = false) ∨
          Bare front token.kind)) ∧
    (fault.cause = .unexpectedEnd ->
      fault.position.offset.toNat = source.utf8ByteSize ∧
      exists (front : List Token) (last : Token),
        tokenize file source = .ok (front ++ [last]) ∧
        last.kind = .endOfInput ∧ Fresh front) := by
  constructor
  · intro operator cause
    rcases complaint_of_parseWithin refused (by rw [cause]; rfl) with ⟨first, opened, complaint⟩
    cases complaint with
    | unclosed => cases cause
    | ended => cases cause
    | other others =>
        rw [cause] at others
        cases others
    | @behind front parser next blamed arrives joins taken never =>
        cases cause
        cases Parser.token_of_advance taken
        have streamed := arrives.stream_eq opened (Kind.ne_endOfInput_of_joins joins)
        exact ⟨front, parser.ahead, _, streamed, rfl, rfl, joins,
          Or.inl ⟨next.ahead, Parser.head?_stream_of_advance taken, never⟩⟩
    | @before front parser arrives joins bare =>
        cases cause
        have streamed := arrives.stream_eq opened (Kind.ne_endOfInput_of_joins joins)
        exact ⟨front, parser.ahead, _, streamed, rfl, rfl, joins, Or.inr bare⟩
  · intro cause
    rcases complaint_of_parseWithin refused (by rw [cause]; rfl) with ⟨first, opened, complaint⟩
    cases complaint with
    | unclosed => cases cause
    | behind => cases cause
    | before => cases cause
    | other others =>
        rw [cause] at others
        cases others
    | @ended front parser arrives atEnd fresh =>
        exact ⟨arrives.start_eq short opened atEnd, front, parser.ahead,
          tokenize_eq_ok_iff.mpr ⟨first, _, opened, arrives.trail opened, rfl, atEnd⟩, atEnd,
          fresh⟩

theorem missing_operand_true_separator :
    "'é'. + b".utf8ByteSize < 2 ^ 32 ∧
    parse "shell" "'é'. + b" = .error ⟨.missingOperand "+", ⟨6, "shell"⟩⟩ ∧
    (exists (front : List Token) (token : Token) (back : List Token),
      (Scanner.ofSource "shell" "'é'. + b").stream = front ++ token :: back ∧
      token.span.start = 6 ∧ token.value = "+" ∧
      (Operator.ofKind? token.kind).isSome = true ∧
      ((exists next, back.head? = some next ∧ next.kind.startsExpression = false) ∨
        Bare front token.kind)) ∧
    "f([// é".utf8ByteSize < 2 ^ 32 ∧
    parse "shell" "f([// é" = .error ⟨.unexpectedEnd, ⟨8, "shell"⟩⟩ ∧
    exists (front : List Token) (last : Token),
      tokenize "shell" "f([// é" = .ok (front ++ [last]) ∧
      last.kind = .endOfInput ∧ Fresh front := by
  have short : "'é'. + b".utf8ByteSize < 2 ^ 32 := by decide
  have refused : parse "shell" "'é'. + b" = .error ⟨.missingOperand "+", ⟨6, "shell"⟩⟩ := by
    cbv
  have otherShort : "f([// é".utf8ByteSize < 2 ^ 32 := by decide
  have ended : parse "shell" "f([// é" = .error ⟨.unexpectedEnd, ⟨8, "shell"⟩⟩ := by
    cbv
  exact ⟨short, refused, (missing_operand_true short refused).1 _ rfl, otherShort, ended,
    ((missing_operand_true otherShort ended).2 rfl).2⟩

end SignalScript
