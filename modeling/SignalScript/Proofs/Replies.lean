import SignalScript.Parser.Expression

namespace SignalScript

/-!
The parser as equations between replies.

The steps of the parser carry the evidence that makes them end: a bound on the
weight of the states at which an operand may be read.  That evidence has no
influence on any answer.  Here every step is described by its reply alone, with
the expression parser as the means to read operands, and the two loops get
descriptions that do not mention a bound at all.

Nothing in this file says that a parse is right.  The statements are the
recursion equations from which such facts are proved.
-/

namespace Reply

/-- Continue a success.  A failure stays what it is. -/
def andThen {State Value Other : Type} (reply : Reply State Value)
    (resume : Value -> State -> Reply State Other) : Reply State Other :=
  match reply with
  | .done value next => resume value next
  | .failed fault next => .failed fault next

section
variable {State Value Other Last : Type}

@[simp] theorem done_andThen (value : Value) (next : State)
    (resume : Value -> State -> Reply State Other) :
    (Reply.done value next).andThen resume = resume value next := rfl

@[simp] theorem failed_andThen (fault : Fault) (next : State)
    (resume : Value -> State -> Reply State Other) :
    (Reply.failed fault next).andThen resume = .failed fault next := rfl

theorem andThen_eq_done_iff {reply : Reply State Value}
    {resume : Value -> State -> Reply State Other} {result : Other} {last : State} :
    reply.andThen resume = .done result last <->
      exists (value : Value) (next : State),
        reply = .done value next ∧ resume value next = .done result last := by
  cases reply with
  | done value next =>
      constructor
      · intro same
        exact ⟨value, next, rfl, same⟩
      · rintro ⟨value', next', given, same⟩
        cases given
        exact same
  | failed fault next =>
      constructor
      · intro same
        cases same
      · rintro ⟨value, next', given, _⟩
        cases given

theorem andThen_assoc (reply : Reply State Value)
    (first : Value -> State -> Reply State Other)
    (second : Other -> State -> Reply State Last) :
    (reply.andThen first).andThen second =
      reply.andThen fun value next => (first value next).andThen second := by
  cases reply <;> rfl

end
end Reply

namespace Parser

/-- The reply of a sequence of steps, once every continuation has been
described by a reply. -/
theorem Step.reply_andThen {bound wider : Nat} {Value Other : Type}
    (step : Step bound Value)
    (resume : (value : Value) -> (next : Parser) -> next.weight ≤ bound -> Step wider Other)
    (described : Value -> Parser -> Reply Parser Other)
    (same : forall value next within, (resume value next within).reply = described value next) :
    (step.andThen resume).reply = step.reply.andThen described := by
  unfold Step.andThen
  split
  next value next reply =>
    rw [same, reply, Reply.done_andThen]
  next fault next reply =>
    rw [reply, Reply.failed_andThen]
    rfl

section
variable (limit : Option Nat)

/-- The reply of an expression at a binding power. -/
def read (power : Power) (parser : Parser) : Reply Parser Tree :=
  (parser.expression limit power).reply

theorem weight_of_read {power : Power} {parser next : Parser} {tree : Tree}
    (reply : parser.read limit power = .done tree next) : next.weight ≤ parser.unread :=
  Step.settles _ reply

/-! ## Delimiters -/

/-- An expression and the delimiter behind it. -/
def inside (opened : Token) (close : Kind) (parser : Parser) : Reply Parser Tree :=
  (parser.read limit .loosest).andThen fun tree next =>
    (next.closing opened close).reply.andThen fun _ after => .done tree after

/-- An opening delimiter with or without contents, up to its partner. -/
def delimited (tag : Tag) (front : List Tree) (close : Kind) (parser : Parser) :
    Reply Parser Tree :=
  parser.advance.andThen fun opened next =>
    if next.ahead.kind = close then
      next.advance.andThen fun _ after => .done (.form tag front) after
    else
      (next.inside limit opened close).andThen fun tree after =>
        .done (.form tag (front ++ [tree])) after

theorem reply_contents {bound : Nat} (opened : Token) (close : Kind) (parser : Parser)
    (small : parser.weight ≤ bound) :
    (contents (operand limit bound) opened close parser small).reply =
      parser.inside limit opened close := by
  apply Step.reply_andThen _ _ _
  intro tree next within
  exact Step.reply_andThen _ _ _ fun _ _ _ => rfl

theorem reply_enclosed {bound : Nat} (tag : Tag) (front : List Tree) (close : Kind)
    (parser : Parser) (small : parser.unread ≤ bound) :
    (enclosed (operand limit bound) tag front close parser small).reply =
      parser.delimited limit tag front close := by
  apply Step.reply_andThen _ _ _
  intro opened next within
  by_cases empty : next.ahead.kind = close
  · rw [if_pos empty, if_pos empty]
    exact Step.reply_andThen _ _ _ fun _ _ _ => rfl
  · rw [if_neg empty, if_neg empty, ← reply_contents]
    exact Step.reply_andThen _ _ _ fun _ _ _ => rfl

/-! ## Heads -/

/-- What a head announces. -/
def start (head : Head) (parser : Parser) : Reply Parser Tree :=
  (headed (operand limit parser.unread) head parser (Nat.le_refl _)).reply

theorem weight_of_start {head : Head} {parser next : Parser} {tree : Tree}
    (started : parser.start limit head = .done tree next) : next.weight ≤ parser.unread :=
  Step.settles _ started

theorem start_group (parser : Parser) :
    parser.start limit .group =
      parser.advance.andThen fun opened next =>
        (next.inside limit opened .closeParen).andThen fun tree after =>
          .done (.form .paren [tree]) after := by
  apply Step.reply_andThen _ _ _
  intro opened next within
  rw [← reply_contents]
  exact Step.reply_andThen _ _ _ fun _ _ _ => rfl

theorem start_bracket (parser : Parser) :
    parser.start limit .bracket = parser.delimited limit .bracket [] .closeBracket :=
  reply_enclosed limit _ _ _ parser (Nat.le_refl _)

/-- A name is a call exactly when a parenthesis starts at the offset where the
name stops. -/
theorem start_name (parser : Parser) :
    parser.start limit .name =
      (parser.expect .identifier).reply.andThen fun name next =>
        if next.ahead.kind = .openParen ∧ next.ahead.span.start = name.span.stop then
          next.delimited limit .paren [Tree.ofName name.value] .closeParen
        else
          .done (Tree.ofName name.value) next := by
  apply Step.reply_andThen _ _ _
  intro name next within
  split
  · rw [Step.reply_relax, reply_enclosed]
  · rfl

/-! ## Operators -/

/-- An operator and the operand behind it, joined to the left operand. -/
def paired (tag : Tag) (power : Power) (left : Tree) (parser : Parser) : Reply Parser Tree :=
  parser.advance.andThen fun operator next =>
    if next.ahead.kind.startsExpression then
      (next.read limit power).andThen fun right after => .done (.form tag [left, right]) after
    else
      .failed (next.operandMissing operator) next

theorem reply_joined {bound : Nat} (tag : Tag) (power : Power) (left : Tree)
    (parser : Parser) (small : parser.unread ≤ bound) :
    (joined (operand limit bound) tag power left parser small).reply =
      parser.paired limit tag power left := by
  apply Step.reply_andThen _ _ _
  intro operator next within
  split
  · exact Step.reply_andThen _ _ _ fun _ _ _ => rfl
  · rfl

/-- Separators and siblings in turn, starting at a separator. -/
def collect (row : Operator) (items : List Tree) (parser : Parser) : Reply Parser Tree :=
  (siblings (operand limit parser.unread) row items parser (Nat.le_refl _)).reply

/-- One round of the loop over siblings, whatever the next round answers. -/
def collectOnce (row : Operator) (items : List Tree)
    (again : List Tree -> Parser -> Reply Parser Tree) (parser : Parser) : Reply Parser Tree :=
  parser.advance.andThen fun separator next =>
    if next.ahead.kind = row.kind then
      .failed (next.operandMissing separator) next
    else if next.ahead.kind.startsExpression then
      (next.read limit row.power).andThen fun item after =>
        if after.ahead.kind = row.kind then
          again (item :: items) after
        else
          .done (.form row.tag (item :: items).reverse) after
    else if row.power < next.ahead.kind.power then
      .failed (next.operandMissing next.ahead) next
    else
      .done (.form row.tag items.reverse) next

theorem reply_siblings_once {bound : Nat} {row : Operator} {items : List Tree}
    {parser : Parser} (small : parser.unread ≤ bound)
    {again : List Tree -> Parser -> Reply Parser Tree}
    (same : forall more after (within : after.unread ≤ bound), after.unread < parser.unread ->
      (siblings (operand limit bound) row more after within).reply = again more after) :
    (siblings (operand limit bound) row items parser small).reply =
      parser.collectOnce limit row items again := by
  rw [siblings]
  apply Step.reply_andThen _ _ _
  intro separator next within
  split
  · rfl
  · split
    next starts =>
      apply Step.reply_andThen _ _ _
      intro item after smaller
      split
      · have more : next.unread < next.weight :=
          unread_lt_weight (Kind.ne_endOfInput_of_startsExpression starts)
        have left : after.unread ≤ next.unread :=
          Nat.le_trans after.unread_le_weight smaller
        rw [Step.reply_relax]
        exact same _ _ _ (by omega)
      · rfl
    next => split <;> rfl

theorem reply_siblings {bound : Nat} (row : Operator) (items : List Tree) (parser : Parser)
    (small : parser.unread ≤ bound) :
    (siblings (operand limit bound) row items parser small).reply =
      parser.collect limit row items := by
  have onward : forall {wider : Nat} more (after : Parser) (within : after.unread ≤ wider),
      after.unread < parser.unread ->
      (siblings (operand limit wider) row more after within).reply =
        after.collect limit row more := by
    intro wider more after within shorter
    exact reply_siblings row more after within
  rw [reply_siblings_once limit small onward, collect,
    reply_siblings_once limit (Nat.le_refl _) onward]
termination_by parser.unread

theorem collect_eq (row : Operator) (items : List Tree) (parser : Parser) :
    parser.collect limit row items =
      parser.collectOnce limit row items fun more after => after.collect limit row more :=
  reply_siblings_once limit (Nat.le_refl _) fun more after within _ =>
    reply_siblings limit row more after within

/-- What the held operator makes of its left operand. -/
def grow (row : Operator) (left : Tree) (parser : Parser) : Reply Parser Tree :=
  match row.role with
  | .binary => parser.paired limit row.tag row.power left
  | .conditional => parser.paired limit row.tag .semicolon left
  | .sequence => parser.collect limit row [left]

theorem reply_extended {bound : Nat} (row : Operator) (left : Tree) (parser : Parser)
    (small : parser.unread ≤ bound) :
    (extended (operand limit bound) row left parser small).reply =
      parser.grow limit row left := by
  unfold extended grow
  cases row.role with
  | binary => exact reply_joined limit _ _ left parser small
  | conditional => exact reply_joined limit _ _ left parser small
  | sequence => exact reply_siblings limit row [left] parser small

/-- What an operator makes weighs no more than what was unread behind it. -/
theorem weight_of_grow {row : Operator} {left tree : Tree} {parser next : Parser}
    (grown : parser.grow limit row left = .done tree next) : next.weight ≤ parser.unread := by
  rw [← reply_extended limit row left parser (Nat.le_refl _)] at grown
  exact Step.settles _ grown

/-! ## Expressions -/

/-- An expression extended to the right while the operators bind more tightly
than `power`. -/
def extend (power : Power) (left : Tree) (parser : Parser) : Reply Parser Tree :=
  (climb (operand limit parser.unread) power left parser (Nat.le_refl _)).reply

/-- One round of the extension, whatever the next round answers. -/
def extendOnce (power : Power) (left : Tree)
    (again : Tree -> Parser -> Reply Parser Tree) (parser : Parser) : Reply Parser Tree :=
  match Operator.ofKind? parser.ahead.kind with
  | none => .done left parser
  | some row =>
      if row.power ≤ power then
        .done left parser
      else
        (parser.grow limit row left).andThen again

theorem extendOnce_of_none {power : Power} {left : Tree} {parser : Parser}
    {again : Tree -> Parser -> Reply Parser Tree}
    (absent : Operator.ofKind? parser.ahead.kind = none) :
    parser.extendOnce limit power left again = .done left parser := by
  rw [extendOnce, absent]

theorem extendOnce_of_some {power : Power} {left : Tree} {parser : Parser} {row : Operator}
    {again : Tree -> Parser -> Reply Parser Tree}
    (found : Operator.ofKind? parser.ahead.kind = some row) :
    parser.extendOnce limit power left again =
      if row.power ≤ power then .done left parser
      else (parser.grow limit row left).andThen again := by
  rw [extendOnce, found]

theorem reply_climb_once {bound : Nat} {power : Power} {left : Tree} {parser : Parser}
    (small : parser.unread ≤ bound) {again : Tree -> Parser -> Reply Parser Tree}
    (same : forall tree next (within : next.unread ≤ bound), next.weight < parser.weight ->
      (climb (operand limit bound) power tree next within).reply = again tree next) :
    (climb (operand limit bound) power left parser small).reply =
      parser.extendOnce limit power left again := by
  rw [climb]
  split
  next absent =>
    rw [extendOnce_of_none limit absent]
    rfl
  next row found =>
    rw [extendOnce_of_some limit found]
    split
    · rfl
    · rw [← reply_extended limit row left parser small]
      apply Step.reply_andThen _ _ _
      intro tree next within
      have lighter : parser.unread < parser.weight :=
        unread_lt_weight (Operator.ne_endOfInput_of_ofKind? found)
      rw [Step.reply_relax]
      exact same _ _ _ (by omega)

theorem reply_climb {bound : Nat} (power : Power) (left : Tree) (parser : Parser)
    (small : parser.unread ≤ bound) :
    (climb (operand limit bound) power left parser small).reply =
      parser.extend limit power left := by
  have onward : forall {wider : Nat} tree (next : Parser) (within : next.unread ≤ wider),
      next.weight < parser.weight ->
      (climb (operand limit wider) power tree next within).reply =
        next.extend limit power tree := by
    intro wider tree next within lighter
    exact reply_climb power tree next within
  rw [reply_climb_once limit small onward, extend,
    reply_climb_once limit (Nat.le_refl _) onward]
termination_by parser.weight

theorem extend_eq (power : Power) (left : Tree) (parser : Parser) :
    parser.extend limit power left =
      parser.extendOnce limit power left fun tree next => next.extend limit power tree :=
  reply_climb_once limit (Nat.le_refl _) fun tree next within _ =>
    reply_climb limit power tree next within

/-- An expression between entering its level and leaving it: a head and its
extension. -/
def body (power : Power) (parser : Parser) : Reply Parser Tree :=
  match Head.ofKind? parser.ahead.kind with
  | none => .failed parser.missingExpression parser
  | some head =>
      (parser.start limit head).andThen fun left next => next.extend limit power left

theorem unread_lt_weight_of_head {parser : Parser} {head : Head}
    (found : Head.ofKind? parser.ahead.kind = some head) : parser.unread < parser.weight := by
  refine unread_lt_weight (Kind.ne_endOfInput_of_startsExpression ?_)
  rw [Kind.startsExpression, found]
  rfl

theorem body_of_some {power : Power} {parser : Parser} {head : Head}
    (found : Head.ofKind? parser.ahead.kind = some head) :
    parser.body limit power =
      (parser.start limit head).andThen fun left next => next.extend limit power left := by
  rw [body, found]

theorem body_of_none {power : Power} {parser : Parser}
    (absent : Head.ofKind? parser.ahead.kind = none) :
    parser.body limit power = .failed parser.missingExpression parser := by
  rw [body, absent]

theorem read_of_some {power : Power} {parser : Parser} {fault : Fault}
    (deep : parser.tooDeep? limit = some fault) :
    parser.read limit power = .failed fault parser := by
  rw [read, expression]
  split
  next fault' deep' =>
    cases deep.symm.trans deep'
    rfl
  next allowed => cases deep.symm.trans allowed

/-- An expression enters a level and leaves it again on success. -/
theorem read_of_none {power : Power} {parser : Parser} (allowed : parser.tooDeep? limit = none) :
    parser.read limit power =
      (parser.deeper.body limit power).andThen fun tree after =>
        .done tree (after.leave 1) := by
  rw [read, expression]
  split
  next deep => cases allowed.symm.trans deep
  next =>
    split
    next absent =>
      have same : Head.ofKind? parser.deeper.ahead.kind = none := absent
      rw [body_of_none limit same]
      rfl
    next head found =>
      have same : Head.ofKind? parser.deeper.ahead.kind = some head := found
      rw [body_of_some limit same, Reply.andThen_assoc]
      apply Step.reply_andThen _ _ _
      intro left next within
      rw [← reply_climb limit power left next (Nat.le_trans next.unread_le_weight within)]
      exact Step.reply_andThen _ _ _ fun _ _ _ => rfl

end

/-! ## Successes, taken apart -/

section
variable {limit : Option Nat}

theorem weight_of_inside {parser last : Parser} {opened : Token} {close : Kind} {tree : Tree}
    (reply : parser.inside limit opened close = .done tree last) :
    last.weight ≤ parser.unread := by
  rw [← reply_contents limit opened close parser (Nat.le_refl _)] at reply
  exact Step.settles _ reply

theorem weight_of_delimited {parser last : Parser} {tag : Tag} {front : List Tree} {close : Kind}
    {tree : Tree} (reply : parser.delimited limit tag front close = .done tree last) :
    last.weight ≤ parser.unread := by
  rw [← reply_enclosed limit tag front close parser (Nat.le_refl _)] at reply
  exact Step.settles _ reply

theorem weight_of_collect {parser last : Parser} {row : Operator} {items : List Tree}
    {tree : Tree} (reply : parser.collect limit row items = .done tree last) :
    last.weight ≤ parser.unread :=
  Step.settles _ reply

theorem weight_of_extend {parser last : Parser} {power : Power} {left tree : Tree}
    (reply : parser.extend limit power left = .done tree last) : last.weight ≤ parser.weight :=
  Step.settles _ reply

theorem demand_eq_done_iff {parser next : Parser} {kind : Kind} {otherwise : Fault}
    {token : Token} :
    (parser.demand kind otherwise).reply = .done token next <->
      parser.ahead.kind = kind ∧ parser.advance = .done token next := by
  unfold demand
  split
  next fits =>
    constructor
    · intro taken
      exact ⟨fits, taken⟩
    · intro taken
      exact taken.2
  next unfit =>
    constructor
    · intro taken
      cases taken
    · intro taken
      exact absurd taken.1 unfit

theorem inside_eq_done_iff {parser last : Parser} {opened : Token} {close : Kind} {tree : Tree} :
    parser.inside limit opened close = .done tree last <->
      exists middle closed, parser.read limit .loosest = .done tree middle ∧
        middle.ahead.kind = close ∧ middle.advance = .done closed last := by
  simp only [inside, Reply.andThen_eq_done_iff, closing, demand_eq_done_iff]
  constructor
  · rintro ⟨content, middle, contents, closed, after, ⟨isClose, taken⟩, same⟩
    cases same
    exact ⟨middle, closed, contents, isClose, taken⟩
  · rintro ⟨middle, closed, contents, isClose, taken⟩
    exact ⟨tree, middle, contents, closed, last, ⟨isClose, taken⟩, rfl⟩

/-- Delimiters are either empty or hold one expression. -/
theorem delimited_eq_done {parser last : Parser} {tag : Tag} {front : List Tree} {close : Kind}
    {tree : Tree} (reply : parser.delimited limit tag front close = .done tree last) :
    exists opened next, parser.advance = .done opened next ∧
      ((exists closed, next.ahead.kind = close ∧ next.advance = .done closed last ∧
          tree = .form tag front) ∨
        exists content, next.inside limit opened close = .done content last ∧
          tree = .form tag (front ++ [content])) := by
  rcases Reply.andThen_eq_done_iff.mp reply with ⟨opened, next, taken, rest⟩
  refine ⟨opened, next, taken, ?_⟩
  by_cases empty : next.ahead.kind = close
  · rw [if_pos empty] at rest
    rcases Reply.andThen_eq_done_iff.mp rest with ⟨closed, after, closing, same⟩
    cases same
    exact Or.inl ⟨closed, empty, closing, rfl⟩
  · rw [if_neg empty] at rest
    rcases Reply.andThen_eq_done_iff.mp rest with ⟨content, after, contents, same⟩
    cases same
    exact Or.inr ⟨content, contents, rfl⟩

theorem paired_eq_done {parser last : Parser} {tag : Tag} {power : Power} {left tree : Tree}
    (reply : parser.paired limit tag power left = .done tree last) :
    exists sign next right, parser.advance = .done sign next ∧
      next.read limit power = .done right last ∧ tree = .form tag [left, right] := by
  rcases Reply.andThen_eq_done_iff.mp reply with ⟨sign, next, taken, rest⟩
  by_cases starts : next.ahead.kind.startsExpression = true
  · rw [if_pos starts] at rest
    rcases Reply.andThen_eq_done_iff.mp rest with ⟨right, after, operand, same⟩
    cases same
    exact ⟨sign, next, right, taken, operand, rfl⟩
  · rw [if_neg starts] at rest
    cases rest

/-- A round over siblings takes a separator.  Behind it stands another sibling,
after which the loop goes on or ends, or else the separator was the last. -/
theorem collect_eq_done {parser last : Parser} {row : Operator} {items : List Tree} {tree : Tree}
    (reply : parser.collect limit row items = .done tree last) :
    exists separator next, parser.advance = .done separator next ∧
      next.ahead.kind ≠ row.kind ∧
      ((exists item after, next.read limit row.power = .done item after ∧
          ((after.ahead.kind = row.kind ∧
              after.collect limit row (item :: items) = .done tree last) ∨
            (after.ahead.kind ≠ row.kind ∧ last = after ∧
              tree = .form row.tag (item :: items).reverse))) ∨
        (next.ahead.kind.power ≤ row.power ∧ last = next ∧
          tree = .form row.tag items.reverse)) := by
  rw [collect_eq] at reply
  rcases Reply.andThen_eq_done_iff.mp reply with ⟨separator, next, taken, rest⟩
  refine ⟨separator, next, taken, ?_⟩
  by_cases doubled : next.ahead.kind = row.kind
  · rw [if_pos doubled] at rest
    cases rest
  refine ⟨doubled, ?_⟩
  rw [if_neg doubled] at rest
  by_cases starts : next.ahead.kind.startsExpression = true
  · rw [if_pos starts] at rest
    rcases Reply.andThen_eq_done_iff.mp rest with ⟨item, after, operand, onward⟩
    refine Or.inl ⟨item, after, operand, ?_⟩
    by_cases again : after.ahead.kind = row.kind
    · rw [if_pos again] at onward
      exact Or.inl ⟨again, onward⟩
    · rw [if_neg again] at onward
      cases onward
      exact Or.inr ⟨again, rfl, rfl⟩
  · rw [if_neg starts] at rest
    by_cases tighter : row.power < next.ahead.kind.power
    · rw [if_pos tighter] at rest
      cases rest
    · rw [if_neg tighter] at rest
      cases rest
      exact Or.inr ⟨Nat.not_lt.mp tighter, rfl, rfl⟩

/-- What follows a complete expression decides about the source. -/
def conclude (tree : Tree) (parser : Parser) : Except Fault Tree :=
  match parser.ahead.kind with
  | .endOfInput => .ok tree
  | .closeParen | .closeBracket =>
      .error (parser.faultAt parser.ahead (.unmatched parser.ahead.value))
  | _ => .error (parser.faultAt parser.ahead (.unexpected parser.ahead.value))

theorem conclude_eq_ok_iff {parser : Parser} {tree result : Tree} :
    parser.conclude tree = .ok result <->
      parser.ahead.kind = .endOfInput ∧ result = tree := by
  unfold conclude
  cases parser.ahead.kind <;> simp [eq_comm]

end
end Parser

theorem parseWithin_eq {limit : Option Nat} {file source : String} {parser : Parser}
    (opened : Parser.ofSource file source = .ok parser) :
    parseWithin limit file source =
      match parser.read limit .loosest with
      | .failed fault _ => .error fault
      | .done tree after => after.conclude tree := by
  unfold parseWithin
  rw [opened]
  rfl

theorem parseWithin_of_error {limit : Option Nat} {file source : String} {fault : Fault}
    (opened : Parser.ofSource file source = .error fault) :
    parseWithin limit file source = .error fault := by
  unfold parseWithin
  rw [opened]

/-- A source is accepted exactly when an expression at the loosest power ends at
the end of the input. -/
theorem parseWithin_eq_ok_iff {limit : Option Nat} {file source : String} {tree : Tree} :
    parseWithin limit file source = .ok tree <->
      exists parser last, Parser.ofSource file source = .ok parser ∧
        parser.read limit .loosest = .done tree last ∧ last.ahead.kind = .endOfInput := by
  cases opened : Parser.ofSource file source with
  | error fault =>
      rw [parseWithin_of_error opened]
      simp
  | ok parser =>
      rw [parseWithin_eq opened]
      constructor
      · intro accepted
        cases reply : parser.read limit .loosest with
        | failed fault last =>
            rw [reply] at accepted
            cases accepted
        | done program last =>
            rw [reply] at accepted
            rcases Parser.conclude_eq_ok_iff.mp accepted with ⟨atEnd, rfl⟩
            exact ⟨parser, last, rfl, reply, atEnd⟩
      · rintro ⟨same, last, first, reply, atEnd⟩
        cases first
        rw [reply]
        exact Parser.conclude_eq_ok_iff.mpr ⟨atEnd, rfl⟩

end SignalScript
