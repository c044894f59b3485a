import SignalScript.Proofs.Replies
import SignalScript.Proofs.Trail

namespace SignalScript

/-!
Two parsers side by side.

What a parser does is decided by very little: the kinds of the tokens it holds, the
values of literals, the lowered form of names, whether a parenthesis touches the name
in front of it, and the depth of nesting.  The laws of a pairing name these things,
each for a single token or a single step.  From the laws it follows that states which
count as alike give alike replies to whatever is asked of them, and that a failure
leaves alike states behind as well.

A pairing may compare two sources with each other.  It may also hold a parser against
itself, and then it says what every state on the way and every fault has in common.
-/

/-- What is wanted in place of a token.  Delimiters are quoted from alike tokens. -/
inductive Wanted.Alike (tokens : Token -> Token -> Prop) : Wanted -> Wanted -> Prop
  | expression : Alike tokens .expression .expression
  | modulePath : Alike tokens .modulePath .modulePath
  | declaredName : Alike tokens .declaredName .declaredName
  | closing (close : Kind) {opened other : Token} : tokens opened other ->
      Alike tokens (.closing close.symbol opened.value) (.closing close.symbol other.value)

/-- What a parser can hold against two tokens.  The cause is the same, and it quotes
the tokens themselves.  Faults of the scanner are not among them. -/
inductive Cause.Alike (tokens : Token -> Token -> Prop) (token other : Token) :
    Cause -> Cause -> Prop
  | numberOutOfRange :
      Alike tokens token other (.numberOutOfRange token.value) (.numberOutOfRange other.value)
  | unexpected : Alike tokens token other (.unexpected token.value) (.unexpected other.value)
  | unexpectedWanting {wanted otherWanted : Wanted} : wanted.Alike tokens otherWanted ->
      Alike tokens token other (.unexpectedWanting token.value wanted)
        (.unexpectedWanting other.value otherWanted)
  | unexpectedEnd : token.kind = .endOfInput ->
      Alike tokens token other .unexpectedEnd .unexpectedEnd
  | missingOperand :
      Alike tokens token other (.missingOperand token.value) (.missingOperand other.value)
  | unclosed (close : Kind) :
      Alike tokens token other (.unclosed token.value close.symbol)
        (.unclosed other.value close.symbol)
  | unmatched : Alike tokens token other (.unmatched token.value) (.unmatched other.value)
  | tooDeep (limit : Nat) : Alike tokens token other (.tooDeep limit) (.tooDeep limit)

/-- Which states, tokens and faults of two parsers count as alike. -/
structure Pairing where
  states : Parser -> Parser -> Prop
  tokens : Token -> Token -> Prop
  faults : Fault -> Fault -> Prop

namespace Pairing

/-- Both replies succeed with alike values, or both fail with alike faults.  The states
that they leave behind are alike in any case. -/
inductive Alike (pairing : Pairing) {Value : Type} (values : Value -> Value -> Prop) :
    Reply Parser Value -> Reply Parser Value -> Prop
  | done {value other : Value} {next twin : Parser} : values value other ->
      pairing.states next twin -> Alike pairing values (.done value next) (.done other twin)
  | failed {fault other : Fault} {next twin : Parser} : pairing.faults fault other ->
      pairing.states next twin -> Alike pairing values (.failed fault next) (.failed other twin)

/-- Replies with the same tree, or with alike faults. -/
abbrev AlikeTrees (pairing : Pairing) : Reply Parser Tree -> Reply Parser Tree -> Prop :=
  pairing.Alike Eq

/-- What has to be known of single tokens and single steps. -/
structure Lawful (pairing : Pairing) : Prop where
  held {parser twin : Parser} :
    pairing.states parser twin -> pairing.tokens parser.ahead twin.ahead
  depth {parser twin : Parser} : pairing.states parser twin -> parser.depth = twin.depth
  atDepth {parser twin : Parser} (depth : Nat) : pairing.states parser twin ->
    pairing.states (parser.atDepth depth) (twin.atDepth depth)
  advance {parser twin : Parser} : pairing.states parser twin ->
    pairing.Alike pairing.tokens parser.advance twin.advance
  kind {token other : Token} : pairing.tokens token other -> token.kind = other.kind
  value {token other : Token} : pairing.tokens token other -> token.kind ≠ .identifier ->
    token.value = other.value
  name {token other : Token} : pairing.tokens token other -> token.kind = .identifier ->
    Tree.ofName token.value = Tree.ofName other.value
  adjacent {parser next twin otherNext : Parser} {name otherName : Token} :
    pairing.states parser twin -> parser.ahead.kind = .identifier ->
    parser.advance = .done name next -> twin.advance = .done otherName otherNext ->
    next.ahead.kind = .openParen ->
    (next.ahead.span.start = name.span.stop <->
      otherNext.ahead.span.start = otherName.span.stop)
  raised {parser twin : Parser} {token other : Token} {cause otherCause : Cause} :
    pairing.states parser twin -> pairing.tokens token other ->
    cause.Alike pairing.tokens token other otherCause ->
    pairing.faults (parser.faultAt token cause) (twin.faultAt other otherCause)

/-- Alike replies stay alike if alike successes are continued alike. -/
theorem Alike.andThen {pairing : Pairing} {Value Other : Type} {values : Value -> Value -> Prop}
    {others : Other -> Other -> Prop} {reply twinReply : Reply Parser Value}
    {resume twinResume : Value -> Parser -> Reply Parser Other}
    (front : pairing.Alike values reply twinReply)
    (back : forall value other next twin, reply = .done value next ->
      twinReply = .done other twin -> values value other -> pairing.states next twin ->
      pairing.Alike others (resume value next) (twinResume other twin)) :
    pairing.Alike others (reply.andThen resume) (twinReply.andThen twinResume) := by
  cases front with
  | done values states => exact back _ _ _ _ rfl rfl values states
  | failed faults states => exact .failed faults states

end Pairing

namespace Parser

/-! ## Tokens and markers as replies -/

/-- What the token of a literal stands for.  The token has been taken already. -/
def atom (parser : Parser) (token : Token) (next : Parser) : Reply Parser Tree :=
  match token.kind with
  | .int =>
      if Number.ofDigits token.value.toList ≤ greatestInt then
        .done (.int (Number.ofDigits token.value.toList)) next
      else
        .failed (parser.faultAt token (.numberOutOfRange token.value)) next
  | .float => .done (.float (Number.Double.ofLiteral token.value.toList)) next
  | .string => .done (.string token.value) next
  | _ => .failed (parser.faultAt token (.unexpected token.value)) next

theorem reply_literal (parser : Parser) :
    parser.literal.reply = parser.advance.andThen parser.atom := by
  apply Step.reply_andThen _ _ _
  intro token next within
  rcases token with ⟨kind, value, span⟩
  cases kind with
  | int =>
      simp only [atom]
      split <;> rfl
  | _ => rfl

/-- A marker and the token behind it, which must have a certain kind. -/
def marked (kind : Kind) (wanted : Wanted) (build : Token -> Tree) (parser : Parser) :
    Reply Parser Tree :=
  parser.advance.andThen fun _ next =>
    (next.demand kind
      (next.faultAt next.ahead (.unexpectedWanting next.ahead.value wanted))).reply.andThen
        fun token after => .done (build token) after

theorem reply_importing (parser : Parser) :
    parser.importing.reply =
      parser.marked .string .modulePath fun path => .form .importing [.string path.value] := by
  apply Step.reply_andThen _ _ _
  intro marker next within
  exact Step.reply_andThen _ _ _ fun _ _ _ => rfl

theorem reply_declaring (parser : Parser) :
    parser.declaring.reply =
      parser.marked .identifier .declaredName fun name =>
        .form .declaring [Tree.ofName name.value] := by
  apply Step.reply_andThen _ _ _
  intro marker next within
  exact Step.reply_andThen _ _ _ fun _ _ _ => rfl

section
variable {pairing : Pairing} {parser twin : Parser}

/-! ## Single steps -/

theorem mismatch_alike (lawful : pairing.Lawful) (alike : pairing.states parser twin) :
    pairing.faults parser.mismatch twin.mismatch := by
  have held := lawful.held alike
  unfold mismatch
  rw [← lawful.kind held]
  apply lawful.raised alike held
  split
  next atEnd => exact .unexpectedEnd atEnd
  next => exact .unexpected

theorem missingExpression_alike (lawful : pairing.Lawful) (alike : pairing.states parser twin) :
    pairing.faults parser.missingExpression twin.missingExpression := by
  have held := lawful.held alike
  simp only [missingExpression]
  rw [← lawful.kind held]
  apply lawful.raised alike held
  split
  next atEnd => exact .unexpectedEnd atEnd
  next =>
    split
    · exact .missingOperand
    · exact .unexpectedWanting .expression

theorem operandMissing_alike (lawful : pairing.Lawful) (alike : pairing.states parser twin)
    {operator other : Token} (operators : pairing.tokens operator other) :
    pairing.faults (parser.operandMissing operator) (twin.operandMissing other) :=
  lawful.raised alike operators .missingOperand

theorem demand_alike (lawful : pairing.Lawful) (alike : pairing.states parser twin) (kind : Kind)
    {otherwise other : Fault} (faults : pairing.faults otherwise other) :
    pairing.Alike pairing.tokens (parser.demand kind otherwise).reply
      (twin.demand kind other).reply := by
  unfold demand
  rw [← lawful.kind (lawful.held alike)]
  split
  · exact lawful.advance alike
  · exact .failed faults alike

theorem closing_alike (lawful : pairing.Lawful) (alike : pairing.states parser twin)
    {opened other : Token} (delimiters : pairing.tokens opened other) (close : Kind) :
    pairing.Alike pairing.tokens (parser.closing opened close).reply
      (twin.closing other close).reply := by
  have held := lawful.held alike
  apply demand_alike lawful alike
  rw [← lawful.kind held]
  split
  · exact lawful.raised alike delimiters (.unclosed close)
  · exact lawful.raised alike held (.unexpectedWanting (.closing close delimiters))

theorem literal_alike (lawful : pairing.Lawful) (alike : pairing.states parser twin) :
    pairing.AlikeTrees parser.literal.reply twin.literal.reply := by
  rw [reply_literal, reply_literal]
  apply (lawful.advance alike).andThen
  intro token other next otherNext _ _ tokens states
  unfold atom
  rw [← lawful.kind tokens]
  split
  next isInt =>
    have raised := lawful.raised alike tokens .numberOutOfRange
    rw [← lawful.value tokens (isInt ▸ nofun)] at raised ⊢
    split
    · exact .done rfl states
    · exact .failed raised states
  next isFloat =>
    rw [← lawful.value tokens (isFloat ▸ nofun)]
    exact .done rfl states
  next isString =>
    rw [← lawful.value tokens (isString ▸ nofun)]
    exact .done rfl states
  next => exact .failed (lawful.raised alike tokens .unexpected) states

theorem marked_alike (lawful : pairing.Lawful) (alike : pairing.states parser twin) (kind : Kind)
    {wanted : Wanted} (wants : wanted.Alike pairing.tokens wanted) (build : Token -> Tree)
    (builds : forall {token other : Token}, pairing.tokens token other -> token.kind = kind ->
      build token = build other) :
    pairing.AlikeTrees (parser.marked kind wanted build) (twin.marked kind wanted build) := by
  apply (lawful.advance alike).andThen
  intro _ _ next otherNext _ _ _ states
  have raised := lawful.raised states (lawful.held states) (.unexpectedWanting wants)
  apply (demand_alike lawful states kind raised).andThen
  intro token other after otherAfter demanded _ tokens left
  rcases demand_eq_done_iff.mp demanded with ⟨isKind, taken⟩
  rw [← token_of_advance taken] at isKind
  exact .done (builds tokens isKind) left

/-! ## Nested expressions -/

variable {limit : Option Nat}

/-- All expressions that start at alike states of bounded weight are read alike. -/
def AlikeWithin (pairing : Pairing) (limit : Option Nat) (weight : Nat) : Prop :=
  forall (parser twin : Parser) (power : Power), parser.weight ≤ weight ->
    pairing.states parser twin ->
    pairing.AlikeTrees (parser.read limit power) (twin.read limit power)

variable {weight : Nat}

theorem inside_alike (lawful : pairing.Lawful) (alike : pairing.states parser twin)
    (within : AlikeWithin pairing limit weight) (small : parser.weight ≤ weight)
    {opened other : Token} (delimiters : pairing.tokens opened other) (close : Kind) :
    pairing.AlikeTrees (parser.inside limit opened close) (twin.inside limit other close) := by
  apply (within parser twin .loosest small alike).andThen
  intro tree _ next otherNext _ _ same states
  apply (closing_alike lawful states delimiters close).andThen
  intro _ _ after otherAfter _ _ _ left
  exact .done same left

theorem delimited_alike (lawful : pairing.Lawful) (alike : pairing.states parser twin)
    (within : AlikeWithin pairing limit weight) (small : parser.unread ≤ weight) (tag : Tag)
    (front : List Tree) (close : Kind) :
    pairing.AlikeTrees (parser.delimited limit tag front close)
      (twin.delimited limit tag front close) := by
  apply (lawful.advance alike).andThen
  intro opened other next otherNext taken _ delimiters states
  have smaller : next.weight ≤ weight := Nat.le_trans (weight_of_advance taken) small
  rw [← lawful.kind (lawful.held states)]
  split
  · apply (lawful.advance states).andThen
    intro _ _ after otherAfter _ _ _ left
    exact .done rfl left
  · apply (inside_alike lawful states within smaller delimiters close).andThen
    intro tree _ after otherAfter _ _ same left
    exact .done (by rw [same]) left

theorem group_alike (lawful : pairing.Lawful) (alike : pairing.states parser twin)
    (within : AlikeWithin pairing limit weight) (small : parser.unread ≤ weight) :
    pairing.AlikeTrees (parser.start limit .group) (twin.start limit .group) := by
  rw [start_group, start_group]
  apply (lawful.advance alike).andThen
  intro opened other next otherNext taken _ delimiters states
  have smaller : next.weight ≤ weight := Nat.le_trans (weight_of_advance taken) small
  apply (inside_alike lawful states within smaller delimiters .closeParen).andThen
  intro tree _ after otherAfter _ _ same left
  exact .done (by rw [same]) left

/-- The only place where spans have a say. -/
theorem name_alike (lawful : pairing.Lawful) (alike : pairing.states parser twin)
    (within : AlikeWithin pairing limit weight) (small : parser.unread ≤ weight) :
    pairing.AlikeTrees (parser.start limit .name) (twin.start limit .name) := by
  rw [start_name, start_name]
  apply (demand_alike lawful alike .identifier (mismatch_alike lawful alike)).andThen
  intro name other next otherNext expected otherExpected names states
  rcases demand_eq_done_iff.mp expected with ⟨isName, taken⟩
  have otherTaken := (demand_eq_done_iff.mp otherExpected).2
  have sameName : Tree.ofName name.value = Tree.ofName other.value :=
    lawful.name names (token_of_advance taken ▸ isName)
  have sameKind := lawful.kind (lawful.held states)
  have smaller : next.unread ≤ weight :=
    Nat.le_trans next.unread_le_weight (Nat.le_trans (weight_of_advance taken) small)
  have sameCall :
      (next.ahead.kind = .openParen ∧ next.ahead.span.start = name.span.stop) =
        (otherNext.ahead.kind = .openParen ∧ otherNext.ahead.span.start = other.span.stop) := by
    rw [← sameKind]
    exact propext (and_congr_right (lawful.adjacent alike isName taken otherTaken))
  rw [← sameName]
  simp only [← sameCall]
  split
  · exact delimited_alike lawful states within smaller .paren _ .closeParen
  · exact .done rfl states

theorem start_alike (lawful : pairing.Lawful) (alike : pairing.states parser twin)
    (within : AlikeWithin pairing limit weight) (small : parser.unread ≤ weight) (head : Head) :
    pairing.AlikeTrees (parser.start limit head) (twin.start limit head) := by
  cases head with
  | literal => exact literal_alike lawful alike
  | name => exact name_alike lawful alike within small
  | group => exact group_alike lawful alike within small
  | bracket =>
      rw [start_bracket, start_bracket]
      exact delimited_alike lawful alike within small .bracket [] .closeBracket
  | importing =>
      have marked := marked_alike lawful alike .string .modulePath
        (fun path => .form .importing [.string path.value])
        (fun tokens isString => by rw [lawful.value tokens (isString ▸ nofun)])
      rw [← reply_importing, ← reply_importing] at marked
      exact marked
  | declaring =>
      have marked := marked_alike lawful alike .identifier .declaredName
        (fun name => .form .declaring [Tree.ofName name.value])
        (fun tokens isName => by rw [lawful.name tokens isName])
      rw [← reply_declaring, ← reply_declaring] at marked
      exact marked

/-! ## Operators -/

theorem paired_alike (lawful : pairing.Lawful) (alike : pairing.states parser twin)
    (within : AlikeWithin pairing limit weight) (small : parser.unread ≤ weight) (tag : Tag)
    (power : Power) (left : Tree) :
    pairing.AlikeTrees (parser.paired limit tag power left)
      (twin.paired limit tag power left) := by
  apply (lawful.advance alike).andThen
  intro operator other next otherNext taken _ operators states
  have smaller : next.weight ≤ weight := Nat.le_trans (weight_of_advance taken) small
  rw [← lawful.kind (lawful.held states)]
  split
  · apply (within next otherNext power smaller states).andThen
    intro right _ after otherAfter _ _ same left
    exact .done (by rw [same]) left
  · exact .failed (operandMissing_alike lawful states operators) states

/-- The loop over siblings.  Both parsers go through it in step. -/
theorem collect_alike (lawful : pairing.Lawful) (row : Operator) (items : List Tree)
    (parser twin : Parser) (alike : pairing.states parser twin)
    (within : AlikeWithin pairing limit weight) (small : parser.unread ≤ weight) :
    pairing.AlikeTrees (parser.collect limit row items) (twin.collect limit row items) := by
  rw [collect_eq, collect_eq]
  apply (lawful.advance alike).andThen
  intro separator other next otherNext taken _ separators states
  have below : next.weight ≤ parser.unread := weight_of_advance taken
  have held := lawful.held states
  rw [← lawful.kind held]
  split
  · exact .failed (operandMissing_alike lawful states separators) states
  split
  next starts =>
    apply (within next otherNext row.power (Nat.le_trans below small) states).andThen
    intro item _ after otherAfter reply _ same left
    have shorter : after.unread < parser.unread := by
      have settled := weight_of_read limit reply
      have lighter := unread_lt_weight (Kind.ne_endOfInput_of_startsExpression starts)
      have less := after.unread_le_weight
      omega
    subst same
    rw [← lawful.kind (lawful.held left)]
    split
    · exact collect_alike lawful row (item :: items) after otherAfter left within (by omega)
    · exact .done rfl left
  next =>
    split
    · exact .failed (operandMissing_alike lawful states held) states
    · exact .done rfl states
termination_by parser.unread

theorem grow_alike (lawful : pairing.Lawful) (alike : pairing.states parser twin)
    (within : AlikeWithin pairing limit weight) (small : parser.unread ≤ weight)
    (row : Operator) (left : Tree) :
    pairing.AlikeTrees (parser.grow limit row left) (twin.grow limit row left) := by
  unfold grow
  cases row.role with
  | binary => exact paired_alike lawful alike within small row.tag row.power left
  | conditional => exact paired_alike lawful alike within small row.tag .semicolon left
  | sequence => exact collect_alike lawful row [left] parser twin alike within small

/-- The loop over operators, which both parsers leave at the same one. -/
theorem extend_alike (lawful : pairing.Lawful) (power : Power) (left : Tree)
    (parser twin : Parser) (alike : pairing.states parser twin)
    (within : AlikeWithin pairing limit weight) (small : parser.unread ≤ weight) :
    pairing.AlikeTrees (parser.extend limit power left) (twin.extend limit power left) := by
  have sameKind := lawful.kind (lawful.held alike)
  rw [extend_eq, extend_eq]
  cases found : Operator.ofKind? parser.ahead.kind with
  | none =>
      rw [extendOnce_of_none limit found, extendOnce_of_none limit (sameKind ▸ found)]
      exact .done rfl alike
  | some row =>
      rw [extendOnce_of_some limit found, extendOnce_of_some limit (sameKind ▸ found)]
      split
      · exact .done rfl alike
      · apply (grow_alike lawful alike within small row left).andThen
        intro grown _ next otherNext step _ same states
        have below : next.weight ≤ parser.unread := weight_of_grow limit step
        have lighter : parser.unread < parser.weight :=
          unread_lt_weight (Operator.ne_endOfInput_of_ofKind? found)
        have smaller := next.unread_le_weight
        subst same
        exact extend_alike lawful power grown next otherNext states within (by omega)
termination_by parser.weight

/-! ## Expressions -/

theorem tooDeep?_alike (lawful : pairing.Lawful) (alike : pairing.states parser twin)
    (limit : Option Nat) :
    (parser.tooDeep? limit = none ∧ twin.tooDeep? limit = none) ∨
      exists fault other, parser.tooDeep? limit = some fault ∧
        twin.tooDeep? limit = some other ∧ pairing.faults fault other := by
  cases limit with
  | none => exact Or.inl ⟨rfl, rfl⟩
  | some levels =>
      simp only [tooDeep?, ← lawful.depth alike]
      split
      · exact Or.inr ⟨_, _, rfl, rfl, lawful.raised alike (lawful.held alike) (.tooDeep levels)⟩
      · exact Or.inl ⟨rfl, rfl⟩

theorem deeper_alike (lawful : pairing.Lawful) (alike : pairing.states parser twin) :
    pairing.states parser.deeper twin.deeper := by
  rw [deeper_eq_atDepth, deeper_eq_atDepth, ← lawful.depth alike]
  exact lawful.atDepth _ alike

theorem leave_alike (lawful : pairing.Lawful) (alike : pairing.states parser twin)
    (levels : Nat) : pairing.states (parser.leave levels) (twin.leave levels) := by
  rw [leave_eq_atDepth, leave_eq_atDepth, ← lawful.depth alike]
  exact lawful.atDepth _ alike

/-- Expressions that start at alike states are read alike. -/
theorem read_alike (lawful : pairing.Lawful) (limit : Option Nat) (power : Power)
    (parser twin : Parser) (alike : pairing.states parser twin) :
    pairing.AlikeTrees (parser.read limit power) (twin.read limit power) := by
  rcases tooDeep?_alike lawful alike limit with
    ⟨allowed, otherAllowed⟩ | ⟨fault, other, deep, otherDeep, faults⟩
  · rw [read_of_none limit allowed, read_of_none limit otherAllowed]
    have deeper := deeper_alike lawful alike
    have sameKind := lawful.kind (lawful.held deeper)
    have bodies : pairing.AlikeTrees (parser.deeper.body limit power)
        (twin.deeper.body limit power) := by
      cases found : Head.ofKind? parser.deeper.ahead.kind with
      | none =>
          rw [body_of_none limit found, body_of_none limit (sameKind ▸ found)]
          exact .failed (missingExpression_alike lawful deeper) deeper
      | some head =>
          have lighter : parser.unread < parser.weight := unread_lt_weight_of_head found
          have within : AlikeWithin pairing limit parser.deeper.unread := by
            intro inside otherInside innerPower small states
            have nested : inside.weight < parser.weight := Nat.lt_of_le_of_lt small lighter
            exact read_alike lawful limit innerPower inside otherInside states
          rw [body_of_some limit found, body_of_some limit (sameKind ▸ found)]
          apply (start_alike lawful deeper within (Nat.le_refl _) head).andThen
          intro left _ next otherNext started _ same states
          subst same
          exact extend_alike lawful power left next otherNext states within
            (Nat.le_trans next.unread_le_weight (weight_of_start limit started))
    apply bodies.andThen
    intro tree _ after otherAfter _ _ same states
    exact .done same (leave_alike lawful states 1)
  · rw [read_of_some limit deep, read_of_some limit otherDeep]
    exact .failed faults alike
termination_by parser.weight

/-- What follows a complete expression is judged alike. -/
theorem conclude_alike (lawful : pairing.Lawful) (alike : pairing.states parser twin)
    (tree : Tree) :
    (parser.conclude tree = .ok tree ∧ twin.conclude tree = .ok tree) ∨
      exists fault other, parser.conclude tree = .error fault ∧
        twin.conclude tree = .error other ∧ pairing.faults fault other := by
  have held := lawful.held alike
  unfold conclude
  rw [← lawful.kind held]
  split
  · exact Or.inl ⟨rfl, rfl⟩
  · exact Or.inr ⟨_, _, rfl, rfl, lawful.raised alike held .unmatched⟩
  · exact Or.inr ⟨_, _, rfl, rfl, lawful.raised alike held .unmatched⟩
  · exact Or.inr ⟨_, _, rfl, rfl, lawful.raised alike held .unexpected⟩

end
end Parser

/-- Sources whose first states are alike are accepted with the same tree, or rejected
with alike faults. -/
theorem parseWithin_alike {pairing : Pairing} (lawful : pairing.Lawful) (limit : Option Nat)
    {file otherFile source otherSource : String} {parser twin : Parser}
    (opened : Parser.ofSource file source = .ok parser)
    (otherOpened : Parser.ofSource otherFile otherSource = .ok twin)
    (alike : pairing.states parser twin) :
    (exists tree, parseWithin limit file source = .ok tree ∧
        parseWithin limit otherFile otherSource = .ok tree) ∨
      exists fault other, parseWithin limit file source = .error fault ∧
        parseWithin limit otherFile otherSource = .error other ∧
        pairing.faults fault other := by
  rw [parseWithin_eq opened, parseWithin_eq otherOpened]
  have replies := Parser.read_alike lawful limit .loosest parser twin alike
  generalize parser.read limit .loosest = reply at replies
  generalize twin.read limit .loosest = otherReply at replies
  cases replies with
  | failed faults _ => exact Or.inr ⟨_, _, rfl, rfl, faults⟩
  | @done tree _ next otherNext same states =>
      subst same
      rcases Parser.conclude_alike lawful states tree with both | refused
      · exact Or.inl ⟨tree, both⟩
      · exact Or.inr refused

end SignalScript
