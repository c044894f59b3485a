import SignalScript.Proofs.Completeness

namespace SignalScript

/-!
The limit on nesting is exact, and it changes nothing else.

A parse under a limit is compared with the parse that has none.  The two run side
by side and give the same replies until the first one stops at the limit, if it
does.  Both descend through the same operands, so the comparison follows the
recursion of the parser, and the parse without a limit decides where it ends.

How many levels a source takes is read off its spelling.  The limit is compared
with that number and with nothing else.
-/

namespace Parser

/-- A reply under a limit is the reply without one, unless it has failed because
of the limit. -/
def Agrees (bound : Nat) (limited free : Reply Parser Tree) : Prop :=
  limited = free ∨ Overruns (some bound) limited

namespace Agrees

variable {bound : Nat}

theorem refl (reply : Reply Parser Tree) : Agrees bound reply reply :=
  Or.inl rfl

/-- Replies that agree go on agreeing if what follows a success does. -/
theorem andThen {limited free : Reply Parser Tree}
    {resumeLimited resumeFree : Tree -> Parser -> Reply Parser Tree}
    (front : Agrees bound limited free)
    (back : forall tree next, free = .done tree next ->
      Agrees bound (resumeLimited tree next) (resumeFree tree next)) :
    Agrees bound (limited.andThen resumeLimited) (free.andThen resumeFree) := by
  rcases front with rfl | ⟨other, position, last, same, failed⟩
  · cases limited with
    | done tree next => exact back tree next rfl
    | failed fault next => exact refl _
  · refine Or.inr ⟨other, position, last, same, ?_⟩
    rw [failed, Reply.failed_andThen]

/-- What comes first may have nothing to do with the limit. -/
theorem after {Value : Type} (reply : Reply Parser Value)
    {resumeLimited resumeFree : Value -> Parser -> Reply Parser Tree}
    (back : forall value next, reply = .done value next ->
      Agrees bound (resumeLimited value next) (resumeFree value next)) :
    Agrees bound (reply.andThen resumeLimited) (reply.andThen resumeFree) := by
  cases reply with
  | done value next => exact back value next rfl
  | failed fault next => exact refl _

end Agrees

/-- All expressions that start at states of bounded weight are read alike. -/
def AgreesWithin (bound weight : Nat) : Prop :=
  forall (parser : Parser) (power : Power), parser.weight ≤ weight ->
    Agrees bound (parser.read (some bound) power) (parser.read none power)

section
variable {bound weight : Nat}

theorem inside_agrees {parser : Parser} (opened : Token) (close : Kind)
    (within : AgreesWithin bound weight) (small : parser.weight ≤ weight) :
    Agrees bound (parser.inside (some bound) opened close)
      (parser.inside none opened close) := by
  apply (within parser .loosest small).andThen
  intro tree next _
  exact .refl _

theorem delimited_agrees {parser : Parser} (tag : Tag) (front : List Tree) (close : Kind)
    (within : AgreesWithin bound weight) (small : parser.unread ≤ weight) :
    Agrees bound (parser.delimited (some bound) tag front close)
      (parser.delimited none tag front close) := by
  apply Agrees.after
  intro opened next taken
  have smaller : next.weight ≤ weight := Nat.le_trans (weight_of_advance taken) small
  by_cases empty : next.ahead.kind = close
  · rw [if_pos empty, if_pos empty]
    exact .refl _
  · rw [if_neg empty, if_neg empty]
    apply (inside_agrees opened close within smaller).andThen
    intro content after _
    exact .refl _

theorem start_agrees {parser : Parser} (head : Head) (within : AgreesWithin bound weight)
    (small : parser.unread ≤ weight) :
    Agrees bound (parser.start (some bound) head) (parser.start none head) := by
  cases head with
  | literal => exact .refl _
  | importing => exact .refl _
  | declaring => exact .refl _
  | name =>
      rw [start_name, start_name]
      apply Agrees.after
      intro name next expected
      have taken := (demand_eq_done_iff.mp expected).2
      have smaller : next.unread ≤ weight :=
        Nat.le_trans next.unread_le_weight (Nat.le_trans (weight_of_advance taken) small)
      split
      · exact delimited_agrees .paren _ .closeParen within smaller
      · exact .refl _
  | group =>
      rw [start_group, start_group]
      apply Agrees.after
      intro opened next taken
      have smaller : next.weight ≤ weight := Nat.le_trans (weight_of_advance taken) small
      apply (inside_agrees opened .closeParen within smaller).andThen
      intro content after _
      exact .refl _
  | bracket =>
      rw [start_bracket, start_bracket]
      exact delimited_agrees .bracket [] .closeBracket within small

theorem paired_agrees {parser : Parser} (tag : Tag) (power : Power) (left : Tree)
    (within : AgreesWithin bound weight) (small : parser.unread ≤ weight) :
    Agrees bound (parser.paired (some bound) tag power left)
      (parser.paired none tag power left) := by
  apply Agrees.after
  intro operator next taken
  have smaller : next.weight ≤ weight := Nat.le_trans (weight_of_advance taken) small
  split
  · apply (within next power smaller).andThen
    intro right after _
    exact .refl _
  · exact .refl _

/-- The loop over siblings, which both parses leave at the same separator. -/
theorem collect_agrees (row : Operator) (items : List Tree) (parser : Parser)
    (within : AgreesWithin bound weight) (small : parser.unread ≤ weight) :
    Agrees bound (parser.collect (some bound) row items) (parser.collect none row items) := by
  rw [collect_eq, collect_eq]
  apply Agrees.after
  intro separator next taken
  have below : next.weight ≤ parser.unread := weight_of_advance taken
  by_cases doubled : next.ahead.kind = row.kind
  · rw [if_pos doubled, if_pos doubled]
    exact .refl _
  rw [if_neg doubled, if_neg doubled]
  by_cases starts : next.ahead.kind.startsExpression = true
  · rw [if_pos starts, if_pos starts]
    apply (within next row.power (Nat.le_trans below small)).andThen
    intro item after reply
    have shorter : after.unread < parser.unread := by
      have settled := weight_of_read none reply
      have lighter := unread_lt_weight (Kind.ne_endOfInput_of_startsExpression starts)
      have less := after.unread_le_weight
      omega
    split
    · exact collect_agrees row (item :: items) after within (by omega)
    · exact .refl _
  · rw [if_neg starts, if_neg starts]
    exact .refl _
termination_by parser.unread

theorem grow_agrees (row : Operator) (left : Tree) {parser : Parser}
    (within : AgreesWithin bound weight) (small : parser.unread ≤ weight) :
    Agrees bound (parser.grow (some bound) row left) (parser.grow none row left) := by
  unfold grow
  cases row.role with
  | binary => exact paired_agrees row.tag row.power left within small
  | conditional => exact paired_agrees row.tag .semicolon left within small
  | sequence => exact collect_agrees row [left] parser within small

/-- The loop over operators, which both parses leave at the same one. -/
theorem extend_agrees (power : Power) (left : Tree) (parser : Parser)
    (within : AgreesWithin bound weight) (small : parser.unread ≤ weight) :
    Agrees bound (parser.extend (some bound) power left) (parser.extend none power left) := by
  rw [extend_eq, extend_eq]
  cases found : Operator.ofKind? parser.ahead.kind with
  | none =>
      rw [extendOnce_of_none (some bound) found, extendOnce_of_none none found]
      exact .refl _
  | some row =>
      rw [extendOnce_of_some (some bound) found, extendOnce_of_some none found]
      split
      · exact .refl _
      · apply (grow_agrees row left within small).andThen
        intro grown next step
        have below : next.weight ≤ parser.unread := weight_of_grow none step
        have lighter : parser.unread < parser.weight :=
          unread_lt_weight (Operator.ne_endOfInput_of_ofKind? found)
        have smaller := next.unread_le_weight
        exact extend_agrees power grown next within (by omega)
termination_by parser.weight

/-- Under a limit an expression is read as without one, or the limit stops it. -/
theorem read_agrees (bound : Nat) (power : Power) (parser : Parser) :
    Agrees bound (parser.read (some bound) power) (parser.read none power) := by
  cases deep : parser.tooDeep? (some bound) with
  | some fault =>
      rcases tooDeep?_eq_some deep with ⟨other, same, _, rfl⟩
      exact Or.inr ⟨other, parser.position, parser, same, read_of_some (some bound) deep⟩
  | none =>
      rw [read_of_none (some bound) deep, read_of_none none rfl]
      refine Agrees.andThen ?_ fun _ _ _ => .refl _
      cases found : Head.ofKind? parser.deeper.ahead.kind with
      | none =>
          rw [body_of_none (some bound) found, body_of_none none found]
          exact .refl _
      | some head =>
          have lighter : parser.unread < parser.weight := unread_lt_weight_of_head found
          have within : AgreesWithin bound parser.deeper.unread := by
            intro inside innerPower small
            have nested : inside.weight < parser.weight := Nat.lt_of_le_of_lt small lighter
            exact read_agrees bound innerPower inside
          rw [body_of_some (some bound) found, body_of_some none found]
          apply (start_agrees head within (Nat.le_refl _)).andThen
          intro left next started
          exact extend_agrees power left next within
            (Nat.le_trans next.unread_le_weight (weight_of_start none started))
termination_by parser.weight

end
end Parser

/-! ## Programs -/

/-- A source that is not refused because of the limit is treated as if there were
none. -/
theorem parseWithin_none_of_ne {bound : Nat} {file source : String}
    (shallow : forall position,
      parseWithin (some bound) file source ≠ .error ⟨.tooDeep bound, position⟩) :
    parseWithin none file source = parseWithin (some bound) file source := by
  cases opened : Parser.ofSource file source with
  | error fault => rw [parseWithin_of_error opened, parseWithin_of_error opened]
  | ok parser =>
      rcases Parser.read_agrees bound .loosest parser with
        same | ⟨other, position, last, same, failed⟩
      · rw [parseWithin_eq opened, parseWithin_eq opened, same]
      · cases same
        refine absurd ?_ (shallow position)
        rw [parseWithin_eq opened, failed]

/-- Whether a limit refuses a source that would be accepted without one depends on
nothing but the levels of its spelling. -/
theorem parseWithin_some_of_none {bound : Nat} {file source : String} {tree : Tree}
    (accepted : parseWithin none file source = .ok tree) :
    exists (levels : Nat) (tokens : List Token) (last : Token),
      tokenize file source = .ok (tokens ++ [last]) ∧ Spells tree levels tokens ∧
      (forall otherLevels, Spells tree otherLevels tokens -> otherLevels = levels) ∧
      (levels ≤ bound -> parseWithin (some bound) file source = .ok tree) ∧
      (bound < levels -> exists position,
        parseWithin (some bound) file source = .error ⟨.tooDeep bound, position⟩) := by
  rcases spelled_of_parseWithin accepted with ⟨shaped, levels, tokens, last, listed, _, spelled⟩
  have arranged := (Tree.shaped_iff.mp shaped).1
  refine ⟨levels, tokens, last, listed, spelled, ?_, ?_, ?_⟩
  · intro otherLevels otherSpelled
    exact (spelling_unique listed spelled arranged otherSpelled arranged).2
  · intro shallow
    refine parseWithin_of_allows listed spelled arranged (Parser.allows_some_iff.mpr ?_)
    rw [Nat.zero_add]
    exact shallow
  · intro deep
    have denied : ¬ Parser.Allows (some bound) 0 levels := by
      rw [Parser.allows_some_iff]
      omega
    rcases parseWithin_of_not_allows listed spelled arranged denied with
      ⟨other, position, same, refused⟩
    cases same
    exact ⟨position, refused⟩

example : parseWithin (some 3) "shell" "((a))" =
    .ok (.form .paren [.form .paren [.ident "a"]]) := by
  cbv

example : parseWithin (some 2) "shell" "((a))" =
    .error ⟨.tooDeep 2, ⟨2, "shell"⟩⟩ := by
  cbv

/-- The limit on nesting changes only the answer for sources that exceed it, and
it refuses exactly those. -/
theorem nesting_limit_exact (file source : String) :
    ((forall position,
        parse file source ≠ .error ⟨.tooDeep Parser.nestingLimit, position⟩) ->
      parseWithin none file source = parse file source) ∧
    forall tree, parseWithin none file source = .ok tree ->
      exists (levels : Nat) (tokens : List Token) (last : Token),
        tokenize file source = .ok (tokens ++ [last]) ∧ Spells tree levels tokens ∧
        (forall otherLevels, Spells tree otherLevels tokens -> otherLevels = levels) ∧
        (levels ≤ Parser.nestingLimit -> parse file source = .ok tree) ∧
        (Parser.nestingLimit < levels -> exists position,
          parse file source = .error ⟨.tooDeep Parser.nestingLimit, position⟩) :=
  ⟨parseWithin_none_of_ne, fun _ accepted => parseWithin_some_of_none accepted⟩

theorem nesting_limit_exact_group :
    parse "shell" "a+(b)" = .ok (.form .add [.ident "a", .form .paren [.ident "b"]]) ∧
    parseWithin none "shell" "a+(b)" = parse "shell" "a+(b)" ∧
    exists (levels : Nat) (tokens : List Token) (last : Token),
      tokenize "shell" "a+(b)" = .ok (tokens ++ [last]) ∧
      Spells (.form .add [.ident "a", .form .paren [.ident "b"]]) levels tokens := by
  have accepted : parse "shell" "a+(b)" =
      .ok (.form .add [.ident "a", .form .paren [.ident "b"]]) := by
    cbv
  have unlimited : parseWithin none "shell" "a+(b)" = parse "shell" "a+(b)" := by
    apply (nesting_limit_exact "shell" "a+(b)").1
    intro position refused
    cases accepted.symm.trans refused
  rcases (nesting_limit_exact "shell" "a+(b)").2 _ (unlimited.trans accepted) with
    ⟨levels, tokens, last, listed, spelled, _⟩
  exact ⟨accepted, unlimited, levels, tokens, last, listed, spelled⟩

end SignalScript
