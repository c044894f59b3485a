import SignalScript.Proofs.Balance
import SignalScript.Proofs.Leftover

namespace SignalScript

/-!
What operations take, and what they hand out for it.

An operation that succeeds takes a stretch of the tokens in front of it, and its answer accounts
for all of them.  A single token is handed out as it is.  A tree is spelled by the tokens that were
taken for it, behind its left operand if it has one.  An operation that fails may have taken tokens
as well, and then the fault stands at one of them or at the token that is held next.

The stretches of operations that are asked one after another are joined without a gap.  Where the
source has a token list, they are the tokens of that list in order.
-/

/-- The same token with another kind. -/
def Token.as (kind : Kind) (token : Token) : Token where
  kind := kind
  value := token.value
  span := token.span

/-- What a head takes a token for.  Only a literal and a name look at its kind. -/
def Head.sees (head : Head) (token : Token) : Token :=
  match head with
  | .literal | .name => token
  | .group => token.as .openParen
  | .bracket => token.as .openBracket
  | .importing => token.as .atSign
  | .declaring => token.as .star

/-- A fault stands at one of these tokens. -/
def Fault.StandsAmong (tokens : List Token) (fault : Fault) : Prop :=
  exists token, token ∈ tokens ∧ fault.position.offset = token.span.start

namespace Operation

open SignalScript.Parser

/-- What a successful operation takes while a token is held, and what it answers. -/
inductive Spends : Operation -> Token -> List Token -> Answer -> Prop
  | advance (held : Token) : Spends .advance held [held] (.token held)
  | expect {kind : Kind} {held : Token} : held.kind = kind ->
      Spends (.expect kind) held [held] (.token held)
  | expectOr {kind : Kind} {otherwise : Fault} {held : Token} : held.kind = kind ->
      Spends (.expectOr kind otherwise) held [held] (.token held)
  | expression {power : Power} {held : Token} {tree : Tree} {levels : Nat} {rest : List Token} :
      Spells tree levels (held :: rest) ->
      Spends (.expression power) held (held :: rest) (.tree tree)
  | start {head : Head} {held : Token} {tree : Tree} {levels : Nat} {rest : List Token} :
      Head.ofKind? (head.sees held).kind = some head ->
      Spells tree levels (head.sees held :: rest) ->
      Spends (.start head) held (held :: rest) (.tree tree)
  | binary {row : Operator} {left right : Tree} {held : Token} {levels : Nat}
      {rest : List Token} : Spells right levels rest ->
      Spends (.binary row left) held (held :: rest) (.tree (.form row.tag [left, right]))
  | conditional {row : Operator} {left right : Tree} {held : Token} {levels : Nat}
      {rest : List Token} : Spells right levels rest ->
      Spends (.conditional row left) held (held :: rest) (.tree (.form row.tag [left, right]))
  /-- Without a separator the left operand stays alone. -/
  | alone {row : Operator} {left : Tree} {held : Token} : held.kind ≠ row.kind ->
      Spends (.sequence row left) held [] (.tree (.form row.tag [left]))
  | siblings {row : Operator} {left : Tree} {held : Token} (later : List Sibling)
      (trailing : Option Token) : held.kind = row.kind ->
      (forall sibling, sibling ∈ later -> sibling.separator.kind = row.kind) ->
      (forall sibling, sibling ∈ later ->
        Spells sibling.tree sibling.levels sibling.tokens) ->
      (forall separator, separator ∈ trailing -> separator.kind = row.kind) ->
      (trailing = none -> later ≠ []) ->
      Spends (.sequence row left) held (Sibling.spread later ++ trailing.toList)
        (.tree (.form row.tag (left :: later.map Sibling.tree)))
  | enter (held : Token) : Spends .enter held [] .nothing
  | leave (held : Token) : Spends .leave held [] .nothing

/-- How an operation fails that starts in the first state, has taken some tokens and leaves the
second state behind.  Taking the next token and coming up never fail. -/
inductive Misses : Operation -> Parser -> List Token -> Fault -> Parser -> Prop
  | expect {kind : Kind} {parser : Parser} : parser.ahead.kind ≠ kind ->
      Misses (.expect kind) parser [] parser.mismatch parser
  | expectOr {kind : Kind} {otherwise : Fault} {parser : Parser} : parser.ahead.kind ≠ kind ->
      Misses (.expectOr kind otherwise) parser [] otherwise parser
  | form {operation : Operation} {parser left : Parser} {taken : List Token} {fault : Fault} :
      operation.ReadsForm -> fault.StandsAmong (taken ++ [left.ahead]) ->
      Misses operation parser taken fault left
  | enter {parser : Parser} : nestingLimit ≤ parser.depth ->
      Misses .enter parser [] (parser.faultAt parser.ahead (.tooDeep nestingLimit)) parser

/-- An operation that is asked in the first state takes these tokens and leaves the second state
behind. -/
inductive Takes (operation : Operation) (parser : Parser) (taken : List Token) (left : Parser) :
    Prop
  | done {answer : Answer} : operation.run parser = .done answer left ->
      Pulled parser taken left -> operation.Spends parser.ahead taken answer ->
      Takes operation parser taken left
  | failed {fault : Fault} : operation.run parser = .failed fault left ->
      Pulled parser taken left -> operation.Misses parser taken fault left ->
      Takes operation parser taken left

/-- Operations that are asked one after another take these tokens together, whether they succeed
or fail. -/
inductive TakesAll : List Operation -> Parser -> List Token -> Parser -> Prop
  | nothing (parser : Parser) : TakesAll [] parser [] parser
  | onward {operation : Operation} {operations : List Operation} {parser next last : Parser}
      {taken more : List Token} : operation.Takes parser taken next ->
      TakesAll operations next more last ->
      TakesAll (operation :: operations) parser (taken ++ more) last

end Operation

/-! ## Successes -/

namespace Parser

/-- The tokens of an expression start with the one that is held. -/
theorem Covers.pulled {first last : Parser} {tree : Tree} (covered : Covers first tree last) :
    exists levels rest, Spells tree levels (first.ahead :: rest) ∧
      Pulled first (first.ahead :: rest) last := by
  rcases covered.spelled with ⟨levels, tokens, spelled, trail⟩
  rcases spelled.starts with ⟨token, rest, rfl, _⟩
  have held := trail.uncons.1
  subst held
  exact ⟨levels, rest, spelled, trail.pulled⟩

section
variable {limit : Option Nat} {parser next last : Parser} {tree : Tree}

theorem read_pulled {power : Power} (reply : parser.read limit power = .done tree last) :
    exists levels rest, Spells tree levels (parser.ahead :: rest) ∧
      Pulled parser (parser.ahead :: rest) last :=
  (read_reads reply).toCovers.pulled

theorem inside_pulled {opened : Token} {close : Kind}
    (reply : parser.inside limit opened close = .done tree last) :
    exists levels tokens closed, Spells tree levels tokens ∧ closed.kind = close ∧
      Pulled parser (tokens ++ [closed]) last := by
  rcases inside_eq_done_iff.mp reply with ⟨middle, closed, contents, isClose, closing⟩
  rcases read_pulled contents with ⟨levels, rest, spelled, pulled⟩
  have held := token_of_advance closing
  exact ⟨levels, _, closed, spelled, held ▸ isClose,
    pulled.append (.taken closing (.stay last))⟩

/-- A literal is read from a token that can be one. -/
theorem fits_of_literal (reply : parser.literal.reply = .done tree last) :
    Head.ofKind? parser.ahead.kind = some .literal := by
  rw [reply_literal] at reply
  rcases Reply.andThen_eq_done_iff.mp reply with ⟨token, next, taken, rest⟩
  cases token_of_advance taken
  rw [atom] at rest
  split at rest
  next isInt => rw [isInt]; rfl
  next isFloat => rw [isFloat]; rfl
  next isString => rw [isString]; rfl
  next => cases rest

/-- A head that announces the held token reads a spelling that starts with it. -/
theorem start_pulled_of_fits {head : Head} (fits : Head.ofKind? parser.ahead.kind = some head)
    (reply : parser.start limit head = .done tree last) :
    exists levels rest, Spells tree levels (parser.ahead :: rest) ∧
      Pulled parser (parser.ahead :: rest) last := by
  have sound : SoundWithin limit parser.unread := by
    intro first power tree last _ reads
    exact read_reads reads
  exact (start_covers sound (Nat.le_refl _) fits reply).1.pulled

theorem marked_pulled {kind : Kind} {otherwise : Parser -> Fault} {build : Token -> Tree}
    (reply : (parser.take.andThen fun _ next within =>
      (next.demand kind (otherwise next)).andThen fun token after small =>
        (Step.done (build token) after (within_of_unread small within) :
          Step parser.unread Tree)).reply = .done tree last) :
    exists token, token.kind = kind ∧ tree = build token ∧
      Pulled parser [parser.ahead, token] last := by
  rcases marked_eq_done_iff.mp reply with ⟨marker, next, token, marked, isKind, taken, built⟩
  cases token_of_advance marked
  have held := token_of_advance taken
  exact ⟨token, held ▸ isKind, built, .taken marked (.taken taken (.stay last))⟩

/-- Whatever token is held, what a head reads is spelled as if the head had announced it. -/
theorem start_pulled {head : Head} (reply : parser.start limit head = .done tree last) :
    exists levels rest, Head.ofKind? (head.sees parser.ahead).kind = some head ∧
      Spells tree levels (head.sees parser.ahead :: rest) ∧
      Pulled parser (parser.ahead :: rest) last := by
  cases head with
  | literal =>
      have fits := fits_of_literal reply
      rcases start_pulled_of_fits fits reply with ⟨levels, rest, spelled, pulled⟩
      exact ⟨levels, rest, fits, spelled, pulled⟩
  | name =>
      have named := reply
      rw [start_name] at named
      rcases Reply.andThen_eq_done_iff.mp named with ⟨name, next, expected, _⟩
      have isName := (demand_eq_done_iff.mp expected).1
      have fits : Head.ofKind? parser.ahead.kind = some .name := by rw [isName]; rfl
      rcases start_pulled_of_fits fits reply with ⟨levels, rest, spelled, pulled⟩
      exact ⟨levels, rest, fits, spelled, pulled⟩
  | group =>
      rw [start_group] at reply
      rcases Reply.andThen_eq_done_iff.mp reply with ⟨opened, next, taken, rest⟩
      rcases Reply.andThen_eq_done_iff.mp rest with ⟨content, after, contents, same⟩
      cases same
      cases token_of_advance taken
      rcases inside_pulled contents with ⟨levels, tokens, closed, spelled, isClose, pulled⟩
      exact ⟨levels + 1, tokens ++ [closed], rfl, .group _ closed rfl isClose spelled,
        .taken taken pulled⟩
  | bracket =>
      rw [start_bracket] at reply
      rcases delimited_eq_done reply with ⟨opened, next, taken, empty | filled⟩
      · rcases empty with ⟨closed, isClose, closing, rfl⟩
        cases token_of_advance taken
        have held := token_of_advance closing
        exact ⟨1, [closed], rfl, .emptyBracket _ closed rfl (held ▸ isClose),
          .taken taken (.taken closing (.stay last))⟩
      · rcases filled with ⟨content, contents, rfl⟩
        cases token_of_advance taken
        rcases inside_pulled contents with ⟨levels, tokens, closed, spelled, isClose, pulled⟩
        exact ⟨levels + 1, tokens ++ [closed], rfl, .bracket _ closed rfl isClose spelled,
          .taken taken pulled⟩
  | importing =>
      rcases marked_pulled reply with ⟨path, isString, rfl, pulled⟩
      exact ⟨1, [path], rfl, .importing _ path rfl isString, pulled⟩
  | declaring =>
      rcases marked_pulled reply with ⟨name, isName, rfl, pulled⟩
      exact ⟨1, [name], rfl, .declaring _ name rfl isName, pulled⟩

theorem paired_pulled {tag : Tag} {power : Power} {left : Tree}
    (reply : parser.paired limit tag power left = .done tree last) :
    exists right levels rest, tree = .form tag [left, right] ∧ Spells right levels rest ∧
      Pulled parser (parser.ahead :: rest) last := by
  rcases paired_eq_done reply with ⟨sign, next, right, taken, operand, rfl⟩
  cases token_of_advance taken
  rcases read_pulled operand with ⟨levels, rest, spelled, pulled⟩
  exact ⟨right, levels, _, rfl, spelled, .taken taken pulled⟩

/-- The loop over siblings takes a separator and a spelling in every round.  It ends in front of
another token or behind one separator more. -/
theorem collect_pulled {row : Operator} (items : List Tree) (parser : Parser)
    (held : parser.ahead.kind = row.kind)
    (reply : parser.collect limit row items = .done tree last) :
    exists (later : List Sibling) (trailing : Option Token),
      tree = .form row.tag (items.reverse ++ later.map Sibling.tree) ∧
      (forall sibling, sibling ∈ later -> sibling.separator.kind = row.kind) ∧
      (forall sibling, sibling ∈ later ->
        Spells sibling.tree sibling.levels sibling.tokens) ∧
      (forall separator, separator ∈ trailing -> separator.kind = row.kind) ∧
      (trailing = none -> later ≠ []) ∧
      Pulled parser (Sibling.spread later ++ trailing.toList) last := by
  rcases collect_eq_done reply with ⟨separator, next, taken, _, onward⟩
  cases token_of_advance taken
  rcases onward with ⟨item, after, operand, onward⟩ | ⟨_, rfl, rfl⟩
  · rcases read_pulled operand with ⟨levels, rest, spelled, pulled⟩
    have front : Pulled parser (parser.ahead :: next.ahead :: rest) after := .taken taken pulled
    rcases onward with ⟨again, more⟩ | ⟨_, rfl, rfl⟩
    · have lighter : after.unread < parser.unread := by
        have settled := weight_of_read limit operand
        have less := after.unread_le_weight
        have below := weight_of_advance taken
        have more := unread_lt_weight (Kind.ne_endOfInput_of_startsExpression
          (startsExpression_of_read operand))
        omega
      rcases collect_pulled (item :: items) after again more with
        ⟨later, trailing, rfl, separators, laterSpelled, trailed, _, pulledLater⟩
      refine ⟨⟨parser.ahead, item, levels, next.ahead :: rest⟩ :: later, trailing, ?_, ?_, ?_,
        trailed, nofun, ?_⟩
      · rw [List.reverse_cons, List.append_assoc]
        rfl
      · exact List.forall_mem_cons.mpr ⟨held, separators⟩
      · exact List.forall_mem_cons.mpr ⟨spelled, laterSpelled⟩
      · rw [Sibling.spread_cons, List.append_assoc]
        exact front.append pulledLater
    · refine ⟨[⟨parser.ahead, item, levels, next.ahead :: rest⟩], none, ?_, ?_, ?_, nofun, nofun,
        ?_⟩
      · rw [List.reverse_cons]
        rfl
      · exact List.forall_mem_singleton.mpr held
      · exact List.forall_mem_singleton.mpr spelled
      · rw [Sibling.spread_cons, Sibling.spread_nil, List.append_nil, Option.toList_none,
          List.append_nil]
        exact front
  · refine ⟨[], some parser.ahead, ?_, nofun, nofun, ?_, nofun, .taken taken (.stay _)⟩
    · rw [List.map_nil, List.append_nil]
    · rintro separator ⟨⟩
      exact held
termination_by parser.unread

end
end Parser

/-! ## Failures -/

namespace Parser

/-- The token that is held at first has been taken, or it is still held. -/
theorem Pulled.held_mem {first last : Parser} {tokens : List Token}
    (pulled : Pulled first tokens last) : first.ahead ∈ tokens ++ [last.ahead] := by
  induction pulled with
  | stay => exact List.mem_concat_self
  | taken step _ _ =>
      rw [token_of_advance step]
      exact List.mem_cons_self
  | refused step _ inductionHypothesis =>
      rw [← (advance_eq_failed_iff.mp step).1]
      exact inductionHypothesis
  | moved _ _ inductionHypothesis => exact inductionHypothesis

/-- A reading takes some tokens.  If it fails and the scanner has not refused to go on, it does so
at one of these tokens or at the one that is held. -/
def endings : Law where
  kept first last := first.Reaches last
  lost first fault left := exists taken, Pulled first taken left ∧
    (fault.cause.isScanned = false -> fault.StandsAmong (taken ++ [left.ahead]))
  takes _ := True

theorem lost_of_refusal {parser left : Parser} {fault : Fault}
    (refused : parser.advance = .failed fault left) : endings.lost parser fault left := by
  refine ⟨[], .refused refused (.stay left), ?_⟩
  intro unscanned
  have scanned := Scanner.isScanned_of_next (advance_eq_failed_iff.mp refused).2.2
  cases scanned.symm.trans unscanned

/-- A literal is given up at the token that it has taken. -/
theorem literal_endings (parser : Parser) : endings.Obeyed parser parser.literal.reply := by
  rw [reply_literal]
  cases step : parser.advance with
  | failed fault left => exact lost_of_refusal step
  | done token next =>
      have pulled : Pulled parser [token] next := .taken step (.stay next)
      have rejected (cause : Cause) : endings.lost parser (parser.faultAt token cause) next :=
        ⟨[token], pulled, fun _ => ⟨token, List.mem_cons_self, rfl⟩⟩
      rw [Reply.done_andThen, atom]
      split
      next =>
        split
        · exact ⟨_, pulled⟩
        · exact rejected _
      next => exact ⟨_, pulled⟩
      next => exact ⟨_, pulled⟩
      next => exact rejected _

theorem endings_sound (limit : Option Nat) : endings.Sound limit where
  refl := .refl
  trans := .trans
  after := by
    rintro first middle left fault ⟨earlier, front⟩ ⟨later, back, stands⟩
    refine ⟨earlier ++ later, front.append back, ?_⟩
    intro unscanned
    rcases stands unscanned with ⟨token, member, position⟩
    refine ⟨token, ?_, position⟩
    rw [List.append_assoc]
    exact List.mem_append_right _ member
  plain _ _ _ := trivial
  taken _ step := ⟨_, .taken step (.stay _)⟩
  refused := lost_of_refusal
  literal := literal_endings
  raised := by
    rintro first parser token cause ⟨taken, pulled⟩ _ (rfl | rfl)
    · exact ⟨taken, pulled, fun _ => ⟨first.ahead, pulled.held_mem, rfl⟩⟩
    · exact ⟨taken, pulled, fun _ => ⟨parser.ahead, List.mem_concat_self, rfl⟩⟩
  level := by
    intro parser next _ onward
    exact (((Reaches.refl parser).atDepth (parser.depth + 1)).trans onward).atDepth
      (next.depth - 1)
  below := by
    rintro parser left fault _ ⟨taken, pulled, stands⟩
    exact ⟨taken, .moved (parser.depth + 1) pulled, stands⟩

end Parser

/-! ## Operations -/

namespace Operation

open SignalScript.Parser

section
variable {operation : Operation} {parser next left first last : Parser} {all taken : List Token}
  {answer : Answer} {fault : Fault}

theorem done_of_map {Value Other : Type} {reply : Reply Parser Value} {build : Value -> Other}
    {other : Other} (done : reply.map build = .done other next) :
    exists value, reply = .done value next ∧ other = build value := by
  cases reply <;> cases done
  exact ⟨_, rfl, rfl⟩

/-- The answer of a successful operation accounts for the tokens that it has taken. -/
theorem spends_of_run (succeeded : operation.run parser = .done answer next) :
    exists taken, Pulled parser taken next ∧ operation.Spends parser.ahead taken answer := by
  cases operation with
  | advance =>
      rcases done_of_map succeeded with ⟨token, step, rfl⟩
      cases token_of_advance step
      exact ⟨[parser.ahead], .taken step (.stay next), .advance parser.ahead⟩
  | expect kind =>
      rcases done_of_map succeeded with ⟨token, demanded, rfl⟩
      rcases demand_eq_done_iff.mp demanded with ⟨fits, step⟩
      cases token_of_advance step
      exact ⟨[parser.ahead], .taken step (.stay next), .expect fits⟩
  | expectOr kind otherwise =>
      rcases done_of_map succeeded with ⟨token, demanded, rfl⟩
      rcases demand_eq_done_iff.mp demanded with ⟨fits, step⟩
      cases token_of_advance step
      exact ⟨[parser.ahead], .taken step (.stay next), .expectOr fits⟩
  | expression power =>
      rcases done_of_map succeeded with ⟨tree, reply, rfl⟩
      rcases read_pulled reply with ⟨levels, rest, spelled, pulled⟩
      exact ⟨_, pulled, .expression spelled⟩
  | start head =>
      rcases done_of_map succeeded with ⟨tree, reply, rfl⟩
      rw [reply_headed] at reply
      rcases start_pulled reply with ⟨levels, rest, fits, spelled, pulled⟩
      exact ⟨_, pulled, .start fits spelled⟩
  | binary row leftTree =>
      rcases done_of_map succeeded with ⟨tree, reply, rfl⟩
      rw [Parser.binary, reply_joined] at reply
      rcases paired_pulled reply with ⟨right, levels, rest, rfl, spelled, pulled⟩
      exact ⟨_, pulled, .binary spelled⟩
  | conditional row leftTree =>
      rcases done_of_map succeeded with ⟨tree, reply, rfl⟩
      rw [Parser.conditional, reply_joined] at reply
      rcases paired_pulled reply with ⟨right, levels, rest, rfl, spelled, pulled⟩
      exact ⟨_, pulled, .conditional spelled⟩
  | sequence row leftTree =>
      rcases done_of_map succeeded with ⟨tree, reply, rfl⟩
      rw [reply_sequence] at reply
      by_cases held : parser.ahead.kind = row.kind
      · rw [if_pos held] at reply
        rcases collect_pulled [leftTree] parser held reply with
          ⟨later, trailing, rfl, separators, spelled, trailed, some, pulled⟩
        exact ⟨_, pulled, .siblings later trailing held separators spelled trailed some⟩
      · rw [if_neg held] at reply
        cases reply
        exact ⟨[], .stay parser, .alone held⟩
  | enter =>
      simp only [run, Parser.enter] at succeeded
      split at succeeded
      next entered =>
        cases succeeded
        split at entered
        · cases entered
        · cases entered
          exact ⟨[], .moved _ (.stay _), .enter parser.ahead⟩
      next => cases succeeded
  | leave =>
      cases succeeded
      exact ⟨[], .moved _ (.stay _), .leave parser.ahead⟩

/-- With a token list ahead, a token can be demanded in vain only if it has the wrong kind. -/
theorem misses_of_demand {kind : Kind} {otherwise : Fault} (awaits : parser.Awaits all)
    (failed : (parser.demand kind otherwise).reply = .failed fault left) :
    parser.ahead.kind ≠ kind ∧ fault = otherwise ∧ left = parser := by
  rcases demand_eq_failed_iff.mp failed with ⟨_, refused⟩ | unfit
  · rcases awaits.advance with ⟨next, step, _⟩
    cases refused.symm.trans step
  · exact unfit

/-- With a token list ahead, a failed operation has taken tokens up to its fault at least. -/
theorem misses_of_run (awaits : parser.Awaits all)
    (failed : operation.run parser = .failed fault left) :
    exists taken, Pulled parser taken left ∧ operation.Misses parser taken fault left := by
  have form (reads : operation.ReadsForm) :
      exists taken, Pulled parser taken left ∧ operation.Misses parser taken fault left := by
    have ended := run_obeys (endings_sound _) (fun _ => trivial) reads parser
    rw [failed] at ended
    rcases ended with ⟨taken, pulled, stands⟩
    rcases explained_of_run failed with explained | ⟨kind, rfl⟩
    · exact ⟨taken, pulled, .form reads (stands (awaits.isScanned_eq explained))⟩
    · cases reads
  cases operation with
  | advance =>
      rcases awaits.advance with ⟨next, step, _⟩
      cases step.symm.trans (failed_of_map failed)
  | expect kind =>
      rcases misses_of_demand awaits (failed_of_map failed) with ⟨unfit, rfl, rfl⟩
      exact ⟨[], .stay _, .expect unfit⟩
  | expectOr kind otherwise =>
      rcases misses_of_demand awaits (failed_of_map failed) with ⟨unfit, rfl, rfl⟩
      exact ⟨[], .stay _, .expectOr unfit⟩
  | expression power => exact form (.expression power)
  | start head => exact form (.start head)
  | binary row leftTree => exact form (.binary row leftTree)
  | conditional row leftTree => exact form (.conditional row leftTree)
  | sequence row leftTree => exact form (.sequence row leftTree)
  | enter =>
      simp only [run, Parser.enter] at failed
      split at failed
      next => cases failed
      next refused =>
        cases failed
        split at refused
        next deep =>
          rcases tooDeep?_eq_some deep with ⟨bound, same, full, rfl⟩
          cases same
          cases refused
          exact ⟨[], .stay _, .enter full⟩
        next => cases refused
  | leave => cases failed

/-- With a token list ahead, every operation takes some tokens, and it leaves the others to
come. -/
theorem takes_run (awaits : parser.Awaits all) (operation : Operation) :
    exists taken, operation.Takes parser taken (operation.run parser).left := by
  cases reply : operation.run parser with
  | done answer next =>
      rcases spends_of_run reply with ⟨taken, pulled, spends⟩
      exact ⟨taken, .done reply pulled spends⟩
  | failed fault left =>
      rcases misses_of_run awaits reply with ⟨taken, pulled, misses⟩
      exact ⟨taken, .failed reply pulled misses⟩

theorem Takes.pulled (takes : operation.Takes parser taken left) : Pulled parser taken left := by
  cases takes with
  | done _ pulled _ => exact pulled
  | failed _ pulled _ => exact pulled

theorem TakesAll.pulled {operations : List Operation}
    (takes : TakesAll operations first taken last) : Pulled first taken last := by
  induction takes with
  | nothing parser => exact .stay parser
  | onward one _ inductionHypothesis => exact one.pulled.append inductionHypothesis

/-- So do all operations of a run. -/
theorem takesAll_runAll (awaits : first.Awaits all) (operations : List Operation) :
    exists taken, TakesAll operations first taken (runAll operations first) := by
  induction operations generalizing first all with
  | nil => exact ⟨[], .nothing first⟩
  | cons operation operations inductionHypothesis =>
      rcases takes_run awaits operation with ⟨taken, takes⟩
      rcases inductionHypothesis (awaits.pulled takes.pulled) with ⟨more, later⟩
      exact ⟨taken ++ more, .onward takes later⟩

end
end Operation

/-! ## Sources -/

/-- A parser that pulls its tokens agrees with the list of all tokens.  Whatever has been asked of
it, what it has handed out accounts for the tokens that it has taken.  These are the tokens of the
list in turn, the next one is held, and no fault is that of the scanner.  Where there is no list, a
parse fails as the list does or in front of it. -/
theorem pulling_agrees (file source : String) :
    (forall tokens, tokenize file source = .ok tokens ->
      exists first, Parser.ofSource file source = .ok first ∧
        (forall operations,
          (exists taken,
            Operation.TakesAll operations first taken (Operation.runAll operations first)) ∧
          (forall taken,
            Operation.TakesAll operations first taken (Operation.runAll operations first) ->
            Draws tokens taken (Operation.runAll operations first).ahead) ∧
          forall operation fault left,
            Operation.run operation (Operation.runAll operations first) = .failed fault left ->
            fault.cause.isScanned = false ∨ exists kind, operation = .expectOr kind fault) ∧
        forall fault, parse file source = .error fault -> fault.cause.isScanned = false) ∧
    (source.utf8ByteSize < 2 ^ 32 -> forall fault, tokenize file source = .error fault ->
      exists other, parse file source = .error other ∧
        (other = fault ∨ other.position.offset < fault.position.offset)) := by
  refine ⟨?_, fun short fault broken => parseWithin_of_broken broken short⟩
  intro tokens listed
  rcases Parser.awaits_of_tokenize listed with ⟨first, opened, awaits⟩
  refine ⟨first, opened, ?_, ?_⟩
  · intro operations
    have takesAll := Operation.takesAll_runAll awaits operations
    refine ⟨takesAll, fun taken takes => awaits.draws takes.pulled, ?_⟩
    intro operation fault left failed
    rcases takesAll with ⟨taken, takes⟩
    rcases Operation.explained_of_run failed with explained | given
    · exact Or.inl ((awaits.pulled takes.pulled).isScanned_eq explained)
    · exact Or.inr given
  · intro fault refused
    exact awaits.isScanned_eq (explained_of_parseWithin opened refused)

/-- A name is read, the parenthesis behind it is handed out, and the end of the input is taken for
the start of a group and then missed as its contents. -/
theorem pulling_agrees_close :
    tokenize "shell" "a)" =
      .ok ([⟨.identifier, "a", ⟨0, 1⟩⟩, ⟨.closeParen, ")", ⟨1, 2⟩⟩] ++
        [⟨.endOfInput, "EOF", ⟨2, 2⟩⟩]) ∧
    (exists first taken, Parser.ofSource "shell" "a)" = .ok first ∧
      Operation.TakesAll [.expression .loosest, .advance, .start .group] first taken
        (Operation.runAll [.expression .loosest, .advance, .start .group] first) ∧
      Draws [⟨.identifier, "a", ⟨0, 1⟩⟩, ⟨.closeParen, ")", ⟨1, 2⟩⟩, ⟨.endOfInput, "EOF", ⟨2, 2⟩⟩]
        taken (Operation.runAll [.expression .loosest, .advance, .start .group] first).ahead) ∧
    tokenize "shell" ") §" = .error ⟨.unrecognised "§", ⟨2, "shell"⟩⟩ ∧
    ") §".utf8ByteSize < 2 ^ 32 ∧
    exists other, parse "shell" ") §" = .error other ∧
      (other = ⟨.unrecognised "§", ⟨2, "shell"⟩⟩ ∨ other.position.offset < 2) := by
  have listed : tokenize "shell" "a)" =
      .ok ([⟨.identifier, "a", ⟨0, 1⟩⟩, ⟨.closeParen, ")", ⟨1, 2⟩⟩] ++
        [⟨.endOfInput, "EOF", ⟨2, 2⟩⟩]) := by
    refine tokenize_eq_ok_iff.mpr ⟨⟨⟨"shell", 1, [')']⟩, ⟨.identifier, "a", ⟨0, 1⟩⟩, 0⟩,
      ⟨⟨"shell", 2, []⟩, ⟨.endOfInput, "EOF", ⟨2, 2⟩⟩, 0⟩, by cbv, ?_, rfl, rfl⟩
    repeat refine .onward (by decide) (by cbv) ?_
    exact .stay _
  have opened : Parser.ofSource "shell" ") §" =
      .ok ⟨⟨"shell", 1, [' ', '§']⟩, ⟨.closeParen, ")", ⟨0, 1⟩⟩, 0⟩ := by
    cbv
  have refused : (Scanner.mk "shell" 1 [' ', '§']).next =
      .failed ⟨.unrecognised "§", ⟨2, "shell"⟩⟩ ⟨"shell", 2, ['§']⟩ := by
    cbv
  have broken : tokenize "shell" ") §" = .error ⟨.unrecognised "§", ⟨2, "shell"⟩⟩ := by
    rw [tokenize_of_ofSource opened, Parser.tokensFrom, if_neg (by decide)]
    exact Parser.tokensAfter_of_failed _ refused
  have short : ") §".utf8ByteSize < 2 ^ 32 := by decide
  rcases (pulling_agrees "shell" "a)").1 _ listed with ⟨first, parser, asked, _⟩
  rcases (asked [.expression .loosest, .advance, .start .group]).1 with ⟨taken, takes⟩
  exact ⟨listed, ⟨first, taken, parser, takes, (asked _).2.1 taken takes⟩, broken, short,
    (pulling_agrees "shell" ") §").2 short _ broken⟩

end SignalScript
