import SignalScript.Proofs.Missing

namespace SignalScript

/-!
Progress: why reading ends.

Every recursion of the scanner and of the parser goes on at a state that lies strictly behind
the one it started from.  For the scanner that is at least one byte farther on, for the parser
at least one token, and the end of the input is never among the tokens that count.  What is
left to read shrinks from one state to the next.

A recursion is described by its rounds: what it answers at a state, given the answers elsewhere.
If a round asks for answers at states ahead only, then nothing else solves its equation.  A
recursion that could go round forever would leave its answers open.
-/

/-! ## Rounds of a recursion -/

section
variable {State : Type} {Answer : State -> Type} {ahead : State -> State -> Prop}
  {round : ((state : State) -> Answer state) -> (state : State) -> Answer state}
  {answer : (state : State) -> Answer state}

/-- The answers come from rounds that ask for other answers at states ahead only: whatever is
answered elsewhere makes no difference.  At the states ahead the answers have to be right,
because a round may go on from a state that an answer has led to. -/
def Recurs (ahead : State -> State -> Prop)
    (round : ((state : State) -> Answer state) -> (state : State) -> Answer state)
    (answer : (state : State) -> Answer state) : Prop :=
  forall (other : (state : State) -> Answer state) (state : State),
    (forall next, ahead state next -> other next = answer next) ->
      round other state = answer state

/-- A recursion that goes on at states ahead only, and has no other answers than its own. -/
structure Ends (ahead : State -> State -> Prop)
    (round : ((state : State) -> Answer state) -> (state : State) -> Answer state)
    (answer : (state : State) -> Answer state) : Prop where
  recurs : Recurs ahead round answer
  unique : forall other : (state : State) -> Answer state,
    (forall state, other state = round other state) -> forall state, other state = answer state

/-- Where something shrinks on every way ahead, a recursion ends. -/
theorem Recurs.ends (recurs : Recurs ahead round answer) (measure : State -> Nat)
    (shrinks : forall {state next}, ahead state next -> measure next < measure state) :
    Ends ahead round answer where
  recurs := recurs
  unique := by
    intro other solves state
    induction known : measure state using Nat.strongRecOn generalizing state with
    | ind size inductionHypothesis =>
        rw [solves]
        apply recurs
        intro next further
        exact inductionHypothesis _ (known ▸ shrinks further) next rfl

end

theorem Operator.ne_endOfInput_of_mem {row : Operator} (listed : row ∈ table) :
    row.kind ≠ .endOfInput := by
  revert row
  decide

namespace Parser

/-! ## Later states -/

/-- The second state lies behind the first by a token or more, none of which is the end of the
input.  The depth of nesting plays no part in it. -/
def Later (first last : Parser) : Prop :=
  exists token tokens, Arrives first (token :: tokens) last

/-- The second state is the first or a later one. -/
def Follows (first last : Parser) : Prop :=
  exists tokens, Arrives first tokens last

namespace Later

variable {first middle last : Parser}

theorem follows (later : Later first last) : Follows first last := by
  rcases later with ⟨token, tokens, arrives⟩
  exact ⟨token :: tokens, arrives⟩

theorem trans (later : Later first middle) (onward : Follows middle last) : Later first last := by
  rcases later with ⟨token, tokens, arrives⟩
  rcases onward with ⟨further, arrivesToo⟩
  exact ⟨token, tokens ++ further, arrives.trans arrivesToo⟩

/-- Less is left to read at a later state. -/
theorem lighter (later : Later first last) : last.weight < first.weight := by
  rcases later with ⟨token, tokens, arrives⟩
  rcases Trail.uncons arrives with ⟨_, more, next, taken, rest⟩
  have left := weight_of_advance taken
  have held : first.unread < first.weight := unread_lt_weight more
  have further := rest.weight_le
  exact Nat.lt_of_le_of_lt (Nat.le_trans further left) held

end Later

theorem Follows.later {first middle last : Parser} (follows : Follows first middle)
    (onward : Later middle last) : Later first last := by
  rcases follows with ⟨tokens, arrives⟩
  rcases onward with ⟨token, further, arrivesToo⟩
  have all := arrives.trans arrivesToo
  cases tokens with
  | nil => exact ⟨token, further, all⟩
  | cons earlier rest => exact ⟨earlier, rest ++ token :: further, all⟩

theorem later_of_advance {parser next : Parser} {token : Token}
    (more : parser.ahead.kind ≠ .endOfInput) (taken : parser.advance = .done token next) :
    Later parser next :=
  ⟨token, [], (Arrives.start parser).taken more taken⟩

theorem later_of_covers {first last : Parser} {tree : Tree} (covered : Covers first tree last) :
    Later first last := by
  rcases covered.spelled with ⟨_, tokens, spelled, trail⟩
  rcases spelled.starts with ⟨token, rest, rfl, _⟩
  exact ⟨token, rest, (Arrives.start first).append trail⟩

/-! ## Successes take tokens -/

section
variable {limit : Option Nat} {parser last : Parser} {tree : Tree}

theorem later_of_read {power : Power} (reply : parser.read limit power = .done tree last) :
    Later parser last :=
  later_of_covers (read_reads reply).toCovers

theorem later_of_start {head : Head} (found : Head.ofKind? parser.ahead.kind = some head)
    (started : parser.start limit head = .done tree last) : Later parser last := by
  have sound : SoundWithin limit parser.unread := fun _ _ _ _ _ reply => read_reads reply
  exact later_of_covers (start_covers sound (Nat.le_refl _) found started).1

/-- A run over siblings takes the separator that it starts at, and goes on at a later one. -/
theorem later_of_collect {row : Operator} {items : List Tree} {parser : Parser}
    (listed : row.kind ≠ .endOfInput) (held : parser.ahead.kind = row.kind)
    (reply : parser.collect limit row items = .done tree last) : Later parser last := by
  rcases collect_eq_done reply with ⟨separator, next, taken, _, rest⟩
  have further : Later parser next := later_of_advance (held ▸ listed) taken
  rcases rest with ⟨item, after, read, ⟨again, more⟩ | ⟨_, rfl, _⟩⟩ | ⟨_, rfl, _⟩
  · have onward : Later parser after := further.trans (later_of_read read).follows
    have shorter := onward.lighter
    exact onward.trans (later_of_collect listed again more).follows
  · exact further.trans (later_of_read read).follows
  · exact further
termination_by parser.weight

theorem later_of_grow {row : Operator} {left : Tree}
    (found : Operator.ofKind? parser.ahead.kind = some row)
    (grown : parser.grow limit row left = .done tree last) : Later parser last := by
  have more := Operator.ne_endOfInput_of_ofKind? found
  have held : parser.ahead.kind = row.kind := (Operator.kind_of_ofKind? found).symm
  have pair {tag : Tag} {power : Power}
      (reply : parser.paired limit tag power left = .done tree last) : Later parser last := by
    rcases paired_eq_done reply with ⟨sign, next, right, taken, read, _⟩
    exact (later_of_advance more taken).trans (later_of_read read).follows
  unfold grow at grown
  split at grown
  next => exact pair grown
  next => exact pair grown
  next => exact later_of_collect (held ▸ more) held grown

end

/-!
## Nested expressions

Form by form, an operand is read behind a token that the form has taken, so the means to read
operands are used at later states only.  A loop may use them again where a success has led to,
and that is a later state as well.
-/

/-- The reply of a sequence of steps, once every continuation of a success has been described
by a reply. -/
theorem Step.reply_andThen_of_done {bound wider : Nat} {Value Other : Type}
    {step : Step bound Value}
    {resume : (value : Value) -> (next : Parser) -> next.weight ≤ bound -> Step wider Other}
    {reply : Reply Parser Value} {described : Value -> Parser -> Reply Parser Other}
    (first : step.reply = reply)
    (same : forall value next within, reply = .done value next ->
      (resume value next within).reply = described value next) :
    (step.andThen resume).reply = reply.andThen described := by
  subst first
  unfold Step.andThen
  split
  next value next replied =>
    rw [same _ _ _ replied, replied, Reply.done_andThen]
  next fault next replied =>
    rw [replied, Reply.failed_andThen]
    rfl

/-- The means to read operands that reply as the expression parser does, at states later than
the origin.  Nothing is asked of them elsewhere. -/
def Serves (limit : Option Nat) (origin : Parser) {bound : Nat} (means : Operand bound) : Prop :=
  forall (power : Power) (next : Parser) (within : next.weight ≤ bound), Later origin next ->
    (means power next within).reply = next.read limit power

namespace Serves

variable {limit : Option Nat} {origin : Parser} {bound : Nat} {means : Operand bound}

theorem contents (serves : Serves limit origin means) (opened : Token) (close : Kind)
    {parser : Parser} (small : parser.weight ≤ bound) (later : Later origin parser) :
    (Parser.contents means opened close parser small).reply =
      parser.inside limit opened close := by
  apply Step.reply_andThen_of_done (serves _ _ _ later)
  intro tree next within read
  exact Step.reply_andThen _ _ _ fun _ _ _ => rfl

theorem group (serves : Serves limit origin means) {parser : Parser}
    (small : parser.unread ≤ bound) (follows : Follows origin parser)
    (more : parser.ahead.kind ≠ .endOfInput) :
    (Parser.group means parser small).reply = parser.start limit .group := by
  rw [start_group]
  apply Step.reply_andThen_of_done rfl
  intro opened next within taken
  have later := follows.later (later_of_advance more taken)
  exact Step.reply_andThen_of_done (serves.contents _ _ _ later) fun _ _ _ _ => rfl

theorem enclosed (serves : Serves limit origin means) (tag : Tag) (front : List Tree)
    (close : Kind) {parser : Parser} (small : parser.unread ≤ bound)
    (follows : Follows origin parser) (more : parser.ahead.kind ≠ .endOfInput) :
    (Parser.enclosed means tag front close parser small).reply =
      parser.delimited limit tag front close := by
  apply Step.reply_andThen_of_done rfl
  intro opened next within taken
  have later := follows.later (later_of_advance more taken)
  by_cases empty : next.ahead.kind = close
  · rw [if_pos empty, if_pos empty]
    exact Step.reply_andThen _ _ _ fun _ _ _ => rfl
  · rw [if_neg empty, if_neg empty]
    exact Step.reply_andThen_of_done (serves.contents _ _ _ later) fun _ _ _ _ => rfl

theorem name (serves : Serves limit origin means) {parser : Parser}
    (small : parser.unread ≤ bound) (follows : Follows origin parser) :
    (Parser.name means parser small).reply = parser.start limit .name := by
  rw [start_name]
  apply Step.reply_andThen_of_done rfl
  intro name next within expected
  rcases demand_eq_done_iff.mp expected with ⟨isName, taken⟩
  have later := follows.later (later_of_advance (more_of_kind isName (by decide)) taken)
  by_cases call : next.ahead.kind = .openParen ∧ next.ahead.span.start = name.span.stop
  · rw [if_pos call, if_pos call, Step.reply_relax]
    exact serves.enclosed _ _ _ _ later.follows (more_of_kind call.1 (by decide))
  · rw [if_neg call, if_neg call]
    rfl

theorem headed (serves : Serves limit origin means) {head : Head} {parser : Parser}
    (small : parser.unread ≤ bound) (follows : Follows origin parser)
    (found : Head.ofKind? parser.ahead.kind = some head) :
    (Parser.headed means head parser small).reply = parser.start limit head := by
  have kinds := kind_of_head found
  cases head with
  | literal => rfl
  | importing => rfl
  | declaring => rfl
  | name => exact serves.name small follows
  | group => exact serves.group small follows (more_of_kind kinds (by decide))
  | bracket =>
      rw [start_bracket]
      exact serves.enclosed _ _ _ small follows (more_of_kind kinds (by decide))

theorem joined (serves : Serves limit origin means) (tag : Tag) (power : Power) (left : Tree)
    {parser : Parser} (small : parser.unread ≤ bound) (follows : Follows origin parser)
    (more : parser.ahead.kind ≠ .endOfInput) :
    (Parser.joined means tag power left parser small).reply =
      parser.paired limit tag power left := by
  apply Step.reply_andThen_of_done rfl
  intro operator next within taken
  have later := follows.later (later_of_advance more taken)
  by_cases starts : next.ahead.kind.startsExpression = true
  · rw [if_pos starts, if_pos starts]
    exact Step.reply_andThen_of_done (serves _ _ _ later) fun _ _ _ _ => rfl
  · rw [if_neg starts, if_neg starts]
    rfl

theorem siblings (serves : Serves limit origin means) {row : Operator} (items : List Tree)
    {parser : Parser} (small : parser.unread ≤ bound) (follows : Follows origin parser)
    (listed : row.kind ≠ .endOfInput) (held : parser.ahead.kind = row.kind) :
    (Parser.siblings means row items parser small).reply = parser.collect limit row items := by
  rw [Parser.siblings, collect_eq]
  apply Step.reply_andThen_of_done rfl
  intro separator next within taken
  have passed := later_of_advance (held ▸ listed) taken
  have later := follows.later passed
  by_cases doubled : next.ahead.kind = row.kind
  · rw [if_pos doubled, if_pos doubled]
    rfl
  rw [if_neg doubled, if_neg doubled]
  by_cases starts : next.ahead.kind.startsExpression = true
  · rw [dif_pos starts, if_pos starts]
    apply Step.reply_andThen_of_done (serves _ _ _ later)
    intro item after smaller read
    have onward := passed.trans (later_of_read read).follows
    by_cases again : after.ahead.kind = row.kind
    · have lighter := onward.lighter
      rw [if_pos again, if_pos again, Step.reply_relax]
      exact serves.siblings (item :: items) _ (follows.later onward).follows listed again
    · rw [if_neg again, if_neg again]
      rfl
  · rw [dif_neg starts, if_neg starts]
    split <;> rfl
termination_by parser.weight

theorem extended (serves : Serves limit origin means) {row : Operator} (left : Tree)
    {parser : Parser} (small : parser.unread ≤ bound) (follows : Follows origin parser)
    (found : Operator.ofKind? parser.ahead.kind = some row) :
    (Parser.extended means row left parser small).reply = parser.grow limit row left := by
  have more := Operator.ne_endOfInput_of_ofKind? found
  have held : parser.ahead.kind = row.kind := (Operator.kind_of_ofKind? found).symm
  unfold Parser.extended grow
  cases row.role with
  | binary => exact serves.joined _ _ left small follows more
  | conditional => exact serves.joined _ _ left small follows more
  | sequence => exact serves.siblings [left] small follows (held ▸ more) held

theorem climb (serves : Serves limit origin means) (power : Power) (left : Tree)
    {parser : Parser} (small : parser.unread ≤ bound) (follows : Follows origin parser) :
    (Parser.climb means power left parser small).reply = parser.extend limit power left := by
  rw [Parser.climb, extend_eq]
  split
  next absent =>
    rw [extendOnce_of_none limit absent]
    rfl
  next row found =>
    rw [extendOnce_of_some limit found]
    split
    next => rfl
    next tighter =>
      apply Step.reply_andThen_of_done (serves.extended left small follows found)
      intro tree next within grown
      have later := later_of_grow found grown
      have lighter := later.lighter
      rw [Step.reply_relax]
      exact serves.climb power tree _ (follows.later later).follows
termination_by parser.weight

end Serves

/-! ## Rounds of the parser -/

/-- A recursion carries something along with the state of the parser, and goes on at a later
state. -/
def Ahead {Carried : Type} (state next : Carried × Parser) : Prop :=
  Later state.2 next.2

/-- A way to read an expression at any power and state. -/
abbrev Reader : Type :=
  (state : Power × Parser) -> Step state.2.unread Tree

/-- The expression parser as a reader. -/
def reader (limit : Option Nat) : Reader :=
  fun state => state.2.expression limit state.1

/-- One round of the expression parser, whatever nested expressions are answered. -/
def expressionOnce (limit : Option Nat) (nested : Reader) : Reader := fun state =>
  let parser := state.2
  match parser.tooDeep? limit with
  | some fault => .failed fault parser
  | none =>
      match Head.ofKind? parser.ahead.kind with
      | none => .failed parser.missingExpression parser.deeper
      | some head =>
          let operand : Operand parser.unread := fun inner next _ => nested (inner, next)
          (headed operand head parser.deeper (Nat.le_refl _)).andThen fun left next within =>
            (climb operand state.1 left next
              (Nat.le_trans next.unread_le_weight within)).andThen fun tree after small =>
                .done tree (after.leave 1) (Nat.le_trans small within)

theorem Step.eq_of_reply {bound : Nat} {Value : Type} {first second : Step bound Value}
    (same : first.reply = second.reply) : first = second := by
  cases first
  cases second
  cases same
  rfl

/-- An expression asks for nested expressions at later states only. -/
theorem expression_recurs (limit : Option Nat) :
    Recurs Ahead (expressionOnce limit) (reader limit) := by
  rintro nested ⟨power, parser⟩ agree
  let means : Operand parser.unread := fun inner next _ => nested (inner, next)
  have serves : Serves limit parser means := by
    intro inner next within later
    exact congrArg Step.reply (agree (inner, next) later)
  apply Step.eq_of_reply
  change _ = parser.read limit power
  unfold expressionOnce
  dsimp only
  split
  next fault deep => exact (read_of_some limit deep).symm
  next allowed =>
    rw [read_of_none limit allowed]
    split
    next absent =>
      have same : Head.ofKind? parser.deeper.ahead.kind = none := absent
      rw [body_of_none limit same]
      rfl
    next head found =>
      have same : Head.ofKind? parser.deeper.ahead.kind = some head := found
      have follows : Follows parser parser.deeper := ⟨[], .stay _⟩
      rw [body_of_some limit same, Reply.andThen_assoc]
      apply Step.reply_andThen_of_done (serves.headed _ follows same)
      intro left next within started
      have later := follows.later (later_of_start same started)
      apply Step.reply_andThen_of_done (serves.climb power left _ later.follows)
      intro tree after small extended
      rfl

end Parser

/-- Continuations that agree on a success go on from a reply in the same way. -/
theorem Reply.andThen_congr {State Value Other : Type} {reply : Reply State Value}
    {first second : Value -> State -> Reply State Other}
    (same : forall value next, reply = .done value next -> first value next = second value next) :
    reply.andThen first = reply.andThen second := by
  cases reply with
  | done value next => exact same value next rfl
  | failed fault next => rfl

namespace Parser

/-- The loop that folds operators into a left operand while they bind more tightly than the
power. -/
def fold (limit : Option Nat) (power : Power) (state : Tree × Parser) : Reply Parser Tree :=
  (climb (operand limit state.2.unread) power state.1 state.2 (Nat.le_refl _)).reply

def foldOnce (limit : Option Nat) (power : Power) (again : Tree × Parser -> Reply Parser Tree)
    (state : Tree × Parser) : Reply Parser Tree :=
  state.2.extendOnce limit power state.1 fun tree next => again (tree, next)

theorem fold_recurs (limit : Option Nat) (power : Power) :
    Recurs Ahead (foldOnce limit power) (fold limit power) := by
  rintro again ⟨left, parser⟩ agree
  change foldOnce limit power again (left, parser) = parser.extend limit power left
  rw [foldOnce, extend_eq]
  cases found : Operator.ofKind? parser.ahead.kind with
  | none => rw [extendOnce_of_none limit found, extendOnce_of_none limit found]
  | some row =>
      rw [extendOnce_of_some limit found, extendOnce_of_some limit found]
      split
      next => rfl
      next tighter =>
        apply Reply.andThen_congr
        intro tree next grown
        exact agree (tree, next) (later_of_grow found grown)

/-- The loop over the siblings behind those read so far, which are given in reverse.  It ends
where no separator is held. -/
def separate (limit : Option Nat) (row : Operator) (state : List Tree × Parser) :
    Reply Parser Tree :=
  if state.2.ahead.kind = row.kind then
    (siblings (operand limit state.2.unread) row state.1 state.2 (Nat.le_refl _)).reply
  else
    .done (.form row.tag state.1.reverse) state.2

def separateOnce (limit : Option Nat) (row : Operator)
    (again : List Tree × Parser -> Reply Parser Tree) (state : List Tree × Parser) :
    Reply Parser Tree :=
  if state.2.ahead.kind = row.kind then
    state.2.collectOnce limit row state.1 fun more next => again (more, next)
  else
    .done (.form row.tag state.1.reverse) state.2

theorem separate_recurs (limit : Option Nat) {row : Operator} (listed : row ∈ Operator.table) :
    Recurs Ahead (separateOnce limit row) (separate limit row) := by
  rintro again ⟨items, parser⟩ agree
  rw [separateOnce, separate]
  split
  next held =>
    change _ = parser.collect limit row items
    rw [collect_eq]
    apply Reply.andThen_congr
    intro separator next taken
    have passed := later_of_advance (held ▸ Operator.ne_endOfInput_of_mem listed) taken
    split
    next => rfl
    next other =>
      split
      next starts =>
        apply Reply.andThen_congr
        intro item after read
        split
        next goesOn =>
          have later := passed.trans (later_of_read read).follows
          exact (agree (item :: items, after) later).trans (if_pos goesOn)
        next => rfl
      next => rfl
  next => rfl

end Parser

namespace Scanner

/-! ## Rounds of the scanner -/

/-- The second scanner stands at least one byte farther on than the first, and has less text
left. -/
structure Moves (first last : Scanner) : Prop where
  offset : first.offset < last.offset
  rest : last.rest.length < first.rest.length

theorem moves_of_passes {first last : Scanner} {text : List Char} (passes : Passes first text last)
    (some : text ≠ []) : Moves first last where
  offset := by
    have positive := Text.size_pos some
    have offset := passes.offset
    omega
  rest := by
    have positive := List.length_pos_iff.mpr some
    rw [passes.rest, List.length_append]
    omega

/-- A lexeme moves the scanner, whether or not it makes a token. -/
theorem moves_of_first? {scanner : Scanner} {lexeme : Lexeme}
    (found : Lexeme.first? scanner.rest = some lexeme) :
    Moves scanner (scanner.skip (lexeme.width scanner.rest)) := by
  apply moves_of_passes (Passes.skip scanner _)
  have positive := Lexeme.width_pos_of_first? found
  have within := Lexeme.width_le_length lexeme scanner.rest
  rw [← List.length_pos_iff, List.length_take]
  omega

theorem moves_of_next {scanner after : Scanner} {token : Token}
    (read : scanner.next = .done token after) (more : token.kind ≠ .endOfInput) :
    Moves scanner after := by
  have yielded := yields_of_next read
  rcases yielded.passed with ⟨middle, ⟨gap, cleared, _⟩, passed, _⟩
  apply moves_of_passes (cleared.append passed)
  intro nothing
  exact more (yielded.ended.mpr (List.append_eq_nil_iff.mp nothing).2)

/-- One round of the scanner, which looks for a lexeme and goes round again behind one that
makes no token. -/
def nextOnce (again : Scanner -> Reply Scanner Token) (scanner : Scanner) :
    Reply Scanner Token :=
  match scanner.rest with
  | [] => .done (Token.endOfInput scanner.offset) scanner
  | c :: _ =>
      match Lexeme.first? scanner.rest with
      | none => .failed (scanner.faultAt c) scanner
      | some lexeme =>
          let count := lexeme.width scanner.rest
          match scanner.token? lexeme count with
          | some token => .done token (scanner.skip count)
          | none => again (scanner.skip count)

theorem nextOnce_of_first? {again : Scanner -> Reply Scanner Token} {scanner : Scanner}
    {lexeme : Lexeme} (found : Lexeme.first? scanner.rest = some lexeme) :
    nextOnce again scanner =
      match scanner.token? lexeme (lexeme.width scanner.rest) with
      | some token => .done token (scanner.skip (lexeme.width scanner.rest))
      | none => again (scanner.skip (lexeme.width scanner.rest)) := by
  unfold nextOnce
  split
  next ended =>
    rw [ended] at found
    cases found
  next => rw [found]

theorem next_recurs : Recurs Moves nextOnce next := by
  intro again scanner agree
  fun_cases next scanner with
  | case1 unread => rw [nextOnce, unread]
  | case2 c rest unread absent => rw [nextOnce, absent, unread]
  | case3 c rest unread lexeme found count token isToken =>
      rw [nextOnce_of_first? found, isToken]
  | case4 c rest unread lexeme found count silent =>
      rw [nextOnce_of_first? found, silent]
      exact agree _ (moves_of_first? found)

/-- The loop that lists all tokens behind those already read, which are given in reverse. -/
def list (state : List Token × Scanner) : Except Fault (List Token) :=
  state.2.tokensAfter state.1

/-- The second scanner of a list has moved on from the first. -/
def Ahead (state next : List Token × Scanner) : Prop :=
  Moves state.2 next.2

def listOnce (again : List Token × Scanner -> Except Fault (List Token))
    (state : List Token × Scanner) : Except Fault (List Token) :=
  match state.2.next with
  | .failed fault _ => .error fault
  | .done token after =>
      if token.kind = .endOfInput then
        .ok (token :: state.1).reverse
      else
        again (token :: state.1, after)

theorem list_recurs : Recurs Ahead listOnce list := by
  rintro again ⟨read, scanner⟩ agree
  rw [listOnce, list]
  fun_cases tokensAfter read scanner with
  | case1 fault after failed => rw [failed]
  | case2 token after reply last =>
      rw [reply]
      exact if_pos last
  | case3 token after reply more =>
      rw [reply]
      exact (if_neg more).trans (agree (token :: read, after) (moves_of_next reply more))

end Scanner

/-! ## Everything that is read -/

/-- Whatever is read takes something from the source, and every recursion goes on behind what
it has taken and ends. -/
structure Progress (limit : Option Nat) : Prop where
  /-- A successful expression takes a token. -/
  expression : forall {power : Power} {parser last : Parser} {tree : Tree},
    (parser.expression limit power).reply = .done tree last -> parser.Later last
  /-- So does the head that the held token announces. -/
  head : forall {head : Head} {parser last : Parser} {tree : Tree},
    Head.ofKind? parser.ahead.kind = some head ->
    (Parser.headed (Parser.operand limit parser.unread) head parser (Nat.le_refl _)).reply =
      .done tree last ->
    parser.Later last
  /-- So does the operator that is held, whatever stands to its left. -/
  operator : forall {row : Operator} {left : Tree} {parser last : Parser} {tree : Tree},
    Operator.ofKind? parser.ahead.kind = some row ->
    (Parser.extended (Parser.operand limit parser.unread) row left parser (Nat.le_refl _)).reply =
      .done tree last ->
    parser.Later last
  /-- What has been taken is no longer left to read. -/
  shrinking : forall {parser last : Parser}, parser.Later last -> last.weight < parser.weight
  /-- Expressions nest at later states only. -/
  nesting : Ends Parser.Ahead (Parser.expressionOnce limit) (Parser.reader limit)
  /-- Operators are folded into a left operand at later states only. -/
  folding : forall power, Ends Parser.Ahead (Parser.foldOnce limit power) (Parser.fold limit power)
  /-- Behind a separator, the next one is met at a later state only. -/
  separating : forall row, row ∈ Operator.table ->
    Ends Parser.Ahead (Parser.separateOnce limit row) (Parser.separate limit row)
  /-- A lexeme moves the scanner by at least one byte, with a token or without. -/
  lexeme : forall {scanner : Scanner} {lexeme : Lexeme},
    Lexeme.first? scanner.rest = some lexeme ->
    scanner.Moves (scanner.skip (lexeme.width scanner.rest))
  /-- The scanner looks for a token behind a lexeme without one, and nowhere else. -/
  scanning : Ends Scanner.Moves Scanner.nextOnce Scanner.next
  /-- Tokens are listed from where the scanner has moved to. -/
  listing : Ends Scanner.Ahead Scanner.listOnce Scanner.list
  /-- A source is parsed by anything that reads expressions round by round. -/
  parsed : forall nested : Parser.Reader,
    (forall state, nested state = Parser.expressionOnce limit nested state) ->
    forall {file source : String} {parser : Parser}, Parser.ofSource file source = .ok parser ->
      parseWithin limit file source =
        match (nested (.loosest, parser)).reply with
        | .failed fault _ => .error fault
        | .done tree after => after.conclude tree
  /-- A source is split by anything that lists tokens round by round. -/
  tokenized : forall listed : List Token × Scanner -> Except Fault (List Token),
    (forall state, listed state = Scanner.listOnce listed state) ->
    forall file source, tokenize file source = listed ([], Scanner.ofSource file source)

theorem expression_ends (limit : Option Nat) :
    Ends Parser.Ahead (Parser.expressionOnce limit) (Parser.reader limit) :=
  (Parser.expression_recurs limit).ends (fun state => state.2.weight) Parser.Later.lighter

theorem list_ends : Ends Scanner.Ahead Scanner.listOnce Scanner.list :=
  Scanner.list_recurs.ends (fun state => state.2.rest.length) Scanner.Moves.rest

theorem reading_progresses (limit : Option Nat) : Progress limit where
  expression := Parser.later_of_read
  head := Parser.later_of_start
  operator := by
    intro row left parser last tree found reply
    rw [Parser.reply_extended] at reply
    exact Parser.later_of_grow found reply
  shrinking := Parser.Later.lighter
  nesting := expression_ends limit
  folding := fun power =>
    (Parser.fold_recurs limit power).ends (fun state => state.2.weight) Parser.Later.lighter
  separating := fun _ listed =>
    (Parser.separate_recurs limit listed).ends (fun state => state.2.weight) Parser.Later.lighter
  lexeme := Scanner.moves_of_first?
  scanning := Scanner.next_recurs.ends (fun scanner => scanner.rest.length) Scanner.Moves.rest
  listing := list_ends
  parsed := by
    intro nested solves file source parser opened
    rw [(expression_ends limit).unique nested solves]
    exact parseWithin_eq opened
  tokenized := by
    intro listed solves file source
    exact (list_ends.unique listed solves ([], Scanner.ofSource file source)).symm

end SignalScript
