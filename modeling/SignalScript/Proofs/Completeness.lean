import SignalScript.Proofs.Levels
import SignalScript.Proofs.Soundness

namespace SignalScript

/-!
Every spelling of a shaped tree is read as that tree.

The statement that carries the induction is not about whole expressions.  An
expression reads a spelling from its leftmost primary on, and a spelling of a
form can be the beginning of a larger one.  What holds is that reading a spelling
comes down to extending its tree by what follows.  Where that cannot extend the
tree, the expression ends there.

The statement also says what happens when the limit on nesting is too low for the
spelling: the reading fails for exactly that reason.  Both halves are proved
together, because a form needs the first half of its left operand to reach its
right one.
-/

/-! ## What follows a spelling -/

/-- Behind an expression no token of this kind is taken for the start of another
one.  A star there is an operator. -/
def Kind.Separates (kind : Kind) : Prop :=
  kind.startsExpression = true -> kind = .star

theorem Kind.separates_of_false {kind : Kind} (never : kind.startsExpression = false) :
    kind.Separates := by
  intro starts
  rw [never] at starts
  cases starts

namespace Tag

theorem separates_sign {tag : Tag} {role : Role} (joins : tag.role? = some role) :
    tag.sign.Separates := by
  cases tag <;> cases joins <;>
    first | exact fun _ => rfl | exact Kind.separates_of_false rfl

theorem startsExpression_sign {tag : Tag} (sequence : tag.role? = some .sequence) :
    tag.sign.startsExpression = false := by
  cases tag <;> cases sequence <;> rfl

/-- What is looser than a separator and follows an expression starts none, since a
star binds more tightly than any separator. -/
theorem startsExpression_of_looser {tag : Tag} {kind : Kind}
    (sequence : tag.role? = some .sequence) (looser : kind.power.rank < tag.band)
    (separates : kind.Separates) : kind.startsExpression = false := by
  cases starts : kind.startsExpression with
  | false => rfl
  | true =>
      rw [separates starts] at looser
      cases tag <;> cases sequence <;> exact absurd looser (by decide)

end Tag

namespace Parser

/-- Reading a spelling on a level comes down to extending its tree by what
follows. -/
def Unfolds (limit : Option Nat) (tree : Tree) (levels : Nat) (tokens : List Token) : Prop :=
  forall (first last : Parser) (power : Power) (depth : Nat),
    Trail first tokens last -> power.rank < tree.band ->
      tree.StandsBefore last.ahead.kind -> last.ahead.kind.Separates ->
      first.depth = depth + 1 -> Allows limit depth 1 ->
      Settles limit depth levels (first.body limit power) (last.extend limit power tree)

section
variable {limit : Option Nat} {tree : Tree} {levels : Nat} {tokens : List Token}

/-- A token that binds no more tightly than asked for extends nothing. -/
theorem extend_of_stops {last : Parser} {power : Power}
    (stops : last.ahead.kind.power.rank ≤ power.rank) :
    last.extend limit power tree = .done tree last := by
  rw [extend_eq]
  cases found : Operator.ofKind? last.ahead.kind with
  | none => exact extendOnce_of_none limit found
  | some row =>
      rw [Operator.power_of_ofKind? found] at stops
      have loose : row.power ≤ power := stops
      rw [extendOnce_of_some limit found, if_pos loose]

/-- An expression enters its level, reads the spelling and comes back up. -/
theorem Unfolds.read {first last : Parser} {power : Power}
    (unfolds : Unfolds limit tree levels tokens) (spelled : Spells tree levels tokens)
    (trail : Trail first tokens last) (tight : power.rank < tree.band)
    (stands : tree.StandsBefore last.ahead.kind) (separates : last.ahead.kind.Separates)
    (stops : last.ahead.kind.power.rank ≤ power.rank) :
    Settles limit first.depth levels (first.read limit power) (.done tree last) := by
  have positive := spelled.levels_pos
  cases deep : first.tooDeep? limit with
  | some fault =>
      rcases tooDeep?_eq_some deep with ⟨bound, same, full, rfl⟩
      constructor
      · intro allowed
        have room := allowed bound same
        omega
      · intro _
        exact ⟨bound, first.position, first, same, read_of_some limit deep⟩
  | none =>
      have below : Trail first.deeper tokens last.deeper := by
        rw [deeper_eq_atDepth last, trail.depth_eq]
        exact trail.atDepth (first.depth + 1)
      have inner := unfolds first.deeper last.deeper power first.depth below tight stands
        separates rfl (allows_of_tooDeep?_none deep)
      have ended : last.deeper.extend limit power tree = .done tree last.deeper :=
        extend_of_stops stops
      rw [ended] at inner
      rw [read_of_none limit deep]
      exact inner.andThen fun tree after => .done tree (after.leave 1)

/-- In front of what is no operator and starts nothing, an expression at the
loosest power ends. -/
theorem Unfolds.read_loosest {first last : Parser}
    (unfolds : Unfolds limit tree levels tokens) (spelled : Spells tree levels tokens)
    (trail : Trail first tokens last) (absent : Operator.ofKind? last.ahead.kind = none)
    (never : last.ahead.kind.startsExpression = false) :
    Settles limit first.depth levels (first.read limit .loosest) (.done tree last) := by
  have tight : Power.loosest.rank < tree.band := tree.band_pos
  have stops : last.ahead.kind.power.rank ≤ Power.loosest.rank :=
    Nat.le_of_eq (congrArg Power.rank (Kind.power_eq_loosest absent))
  exact unfolds.read spelled trail tight (Tree.standsBefore_of_none tree absent)
    (Kind.separates_of_false never) stops

/-! ## Primaries -/

/-- A primary unfolds once its head reads all of it. -/
theorem unfolds_of_start (head : Head)
    (started : forall first last depth, Trail first tokens last -> last.ahead.kind.Separates ->
      first.depth = depth + 1 -> Allows limit depth 1 ->
      Head.ofKind? first.ahead.kind = some head ∧
        Settles limit depth levels (first.start limit head) (.done tree last)) :
    Unfolds limit tree levels tokens := by
  intro first last power depth trail _ _ separates within allowed
  rcases started first last depth trail separates within allowed with ⟨found, settled⟩
  rw [body_of_some limit found]
  exact settled.andThen fun left next => next.extend limit power left

theorem literal_unfolds {token : Token} (isLiteral : Head.ofKind? token.kind = some .literal)
    (valued : forall first last : Parser, first.advance = .done token last ->
      first.literal.reply = .done tree last) :
    Unfolds limit tree 1 [token] := by
  apply unfolds_of_start .literal
  intro first last depth trail _ _ allowed
  rcases trail.advance_of_single with ⟨rfl, taken⟩
  exact ⟨isLiteral, .of_eq allowed (valued first last taken)⟩

theorem int_unfolds {token : Token} (isInt : token.kind = .int)
    (inRange : Number.ofDigits token.value.toList ≤ greatestInt) :
    Unfolds limit (.int (Number.ofDigits token.value.toList)) 1 [token] := by
  apply literal_unfolds (by rw [isInt]; rfl)
  intro first last taken
  refine Step.andThen_done_iff.mpr ⟨token, last, taken, ?_⟩
  simp only [isInt, if_pos inRange, Step.reply_done]

theorem float_unfolds {token : Token} (isFloat : token.kind = .float) :
    Unfolds limit (.float (Number.Double.ofLiteral token.value.toList)) 1 [token] := by
  apply literal_unfolds (by rw [isFloat]; rfl)
  intro first last taken
  refine Step.andThen_done_iff.mpr ⟨token, last, taken, ?_⟩
  simp only [isFloat, Step.reply_done]

theorem string_unfolds {token : Token} (isString : token.kind = .string) :
    Unfolds limit (.string token.value) 1 [token] := by
  apply literal_unfolds (by rw [isString]; rfl)
  intro first last taken
  refine Step.andThen_done_iff.mpr ⟨token, last, taken, ?_⟩
  simp only [isString, Step.reply_done]

/-- A marker and the one token behind it. -/
theorem marked_unfolds (head : Head) {marker token : Token}
    (isMarker : Head.ofKind? marker.kind = some head)
    (built : forall first next last : Parser, first.advance = .done marker next ->
      next.ahead = token -> next.advance = .done token last ->
      first.start limit head = .done tree last) :
    Unfolds limit tree 1 [marker, token] := by
  apply unfolds_of_start head
  intro first last depth trail _ _ allowed
  rcases trail.uncons with ⟨rfl, _, next, marked, rest⟩
  rcases rest.advance_of_single with ⟨rfl, taken⟩
  exact ⟨isMarker, .of_eq allowed (built first next last marked rfl taken)⟩

theorem importing_unfolds {marker path : Token} (isMarker : marker.kind = .atSign)
    (isString : path.kind = .string) :
    Unfolds limit (.form .importing [.string path.value]) 1 [marker, path] := by
  apply marked_unfolds .importing (by rw [isMarker]; rfl)
  rintro first next last marked rfl taken
  exact marked_eq_done_iff.mpr ⟨marker, next, next.ahead, marked, isString, taken, rfl⟩

theorem declaring_unfolds {marker name : Token} (isMarker : marker.kind = .star)
    (isName : name.kind = .identifier) :
    Unfolds limit (.form .declaring [.ofName name.value]) 1 [marker, name] := by
  apply marked_unfolds .declaring (by rw [isMarker]; rfl)
  rintro first next last marked rfl taken
  exact marked_eq_done_iff.mpr ⟨marker, next, next.ahead, marked, isName, taken, rfl⟩

/-- A name behind which no parenthesis stands is no call. -/
theorem name_unfolds {token : Token} (isName : token.kind = .identifier) :
    Unfolds limit (.ofName token.value) 1 [token] := by
  apply unfolds_of_start .name
  intro first last depth trail separates _ allowed
  rcases trail.advance_of_single with ⟨rfl, taken⟩
  refine ⟨by rw [isName]; rfl, .of_eq allowed ?_⟩
  have expected : (first.expect .identifier).reply = .done first.ahead last :=
    demand_eq_done_iff.mpr ⟨isName, taken⟩
  have alone : ¬ (last.ahead.kind = .openParen ∧
      last.ahead.span.start = first.ahead.span.stop) := by
    rintro ⟨isOpened, _⟩
    rw [isOpened] at separates
    cases separates rfl
  rw [start_name, expected, Reply.done_andThen, if_neg alone]

/-! ## Delimiters -/

/-- The first token of a spelling can start an expression. -/
theorem startsExpression_of_trail {first last : Parser} {more : List Token}
    (spelled : Spells tree levels tokens) (trail : Trail first (tokens ++ more) last) :
    first.ahead.kind.startsExpression = true := by
  rcases spelled.starts with ⟨token, rest, same, starts⟩
  rw [same] at trail
  rcases trail.uncons with ⟨rfl, _⟩
  exact starts

/-- Nothing extends an expression into a closing delimiter. -/
theorem Unfolds.inside {first last : Parser} {closed : Token} {close : Kind} (opened : Token)
    (unfolds : Unfolds limit tree levels tokens) (spelled : Spells tree levels tokens)
    (closes : close = .closeParen ∨ close = .closeBracket) (isClosed : closed.kind = close)
    (trail : Trail first (tokens ++ [closed]) last) :
    Settles limit first.depth levels (first.inside limit opened close) (.done tree last) := by
  rcases trail.split with ⟨middle, front, back⟩
  rcases back.advance_of_single with ⟨rfl, closing⟩
  have absent : Operator.ofKind? middle.ahead.kind = none := by
    rw [isClosed]
    rcases closes with rfl | rfl <;> rfl
  have never : middle.ahead.kind.startsExpression = false := by
    rw [isClosed]
    rcases closes with rfl | rfl <;> rfl
  have settled := unfolds.read_loosest spelled front absent never
  have taken : (middle.closing opened close).reply = .done middle.ahead last :=
    demand_eq_done_iff.mpr ⟨isClosed, closing⟩
  have whole := settled.andThen fun content after =>
    (after.closing opened close).reply.andThen fun _ next => .done content next
  rw [taken] at whole
  exact whole

theorem delimited_of_empty {first next last : Parser} {opened closed : Token} {tag : Tag}
    {front : List Tree} {close : Kind} (opening : first.advance = .done opened next)
    (isClosed : next.ahead.kind = close) (closing : next.advance = .done closed last) :
    first.delimited limit tag front close = .done (.form tag front) last := by
  rw [delimited, opening, Reply.done_andThen, if_pos isClosed, closing, Reply.done_andThen]

/-- What stands between delimiters is read one level below them. -/
theorem Unfolds.delimited {first last : Parser} {opened closed : Token} {close : Kind}
    {depth : Nat} (tag : Tag) (front : List Tree)
    (unfolds : Unfolds limit tree levels tokens) (spelled : Spells tree levels tokens)
    (closes : close = .closeParen ∨ close = .closeBracket) (isClosed : closed.kind = close)
    (trail : Trail first (opened :: tokens ++ [closed]) last) (within : first.depth = depth + 1) :
    Settles limit depth (levels + 1) (first.delimited limit tag front close)
      (.done (.form tag (front ++ [tree])) last) := by
  rcases trail.uncons with ⟨rfl, _, next, opening, rest⟩
  have filled : ¬ next.ahead.kind = close := by
    intro same
    have starts := startsExpression_of_trail spelled rest
    rw [same] at starts
    rcases closes with rfl | rfl <;> cases starts
  have settled := unfolds.inside first.ahead spelled closes isClosed rest
  rw [depth_of_advance opening, within] at settled
  rw [Parser.delimited, opening, Reply.done_andThen, if_neg filled]
  exact settled.up.andThen fun content after => .done (.form tag (front ++ [content])) after

theorem group_unfolds {opened closed : Token} (isOpened : opened.kind = .openParen)
    (isClosed : closed.kind = .closeParen) (unfolds : Unfolds limit tree levels tokens)
    (spelled : Spells tree levels tokens) :
    Unfolds limit (.form .paren [tree]) (levels + 1) (opened :: tokens ++ [closed]) := by
  apply unfolds_of_start .group
  intro first last depth trail _ within _
  rcases trail.uncons with ⟨rfl, _, next, opening, rest⟩
  refine ⟨by rw [isOpened]; rfl, ?_⟩
  have settled := unfolds.inside first.ahead spelled (Or.inl rfl) isClosed rest
  rw [depth_of_advance opening, within] at settled
  rw [start_group, opening, Reply.done_andThen]
  exact settled.up.andThen fun content after => .done (.form .paren [content]) after

theorem bracket_unfolds {opened closed : Token} (isOpened : opened.kind = .openBracket)
    (isClosed : closed.kind = .closeBracket) (unfolds : Unfolds limit tree levels tokens)
    (spelled : Spells tree levels tokens) :
    Unfolds limit (.form .bracket [tree]) (levels + 1) (opened :: tokens ++ [closed]) := by
  apply unfolds_of_start .bracket
  intro first last depth trail _ within _
  rcases trail.uncons with ⟨rfl, _⟩
  rw [start_bracket]
  exact ⟨by rw [isOpened]; rfl,
    unfolds.delimited .bracket [] spelled (Or.inr rfl) isClosed trail within⟩

theorem emptyBracket_unfolds {opened closed : Token} (isOpened : opened.kind = .openBracket)
    (isClosed : closed.kind = .closeBracket) :
    Unfolds limit (.form .bracket []) 1 [opened, closed] := by
  apply unfolds_of_start .bracket
  intro first last depth trail _ _ allowed
  rcases trail.uncons with ⟨rfl, _, next, opening, rest⟩
  rcases rest.advance_of_single with ⟨rfl, closing⟩
  rw [start_bracket]
  exact ⟨by rw [isOpened]; rfl, .of_eq allowed (delimited_of_empty opening isClosed closing)⟩

/-- A name with a parenthesis right behind it is a call. -/
theorem start_call {first next : Parser} {name : Token} (isName : first.ahead.kind = .identifier)
    (taken : first.advance = .done name next) (isOpened : next.ahead.kind = .openParen)
    (adjacent : next.ahead.span.start = name.span.stop) :
    first.start limit .name =
      next.delimited limit .paren [Tree.ofName name.value] .closeParen := by
  have expected : (first.expect .identifier).reply = .done name next :=
    demand_eq_done_iff.mpr ⟨isName, taken⟩
  rw [start_name, expected, Reply.done_andThen, if_pos ⟨isOpened, adjacent⟩]

theorem emptyCall_unfolds {name opened closed : Token} (isName : name.kind = .identifier)
    (isOpened : opened.kind = .openParen) (isClosed : closed.kind = .closeParen)
    (adjacent : opened.span.start = name.span.stop) :
    Unfolds limit (.form .paren [.ofName name.value]) 1 [name, opened, closed] := by
  apply unfolds_of_start .name
  intro first last depth trail _ _ allowed
  rcases trail.uncons with ⟨rfl, _, next, taken, rest⟩
  rcases rest.uncons with ⟨rfl, _, after, opening, rest⟩
  rcases rest.advance_of_single with ⟨rfl, closing⟩
  rw [start_call isName taken isOpened adjacent]
  exact ⟨by rw [isName]; rfl, .of_eq allowed (delimited_of_empty opening isClosed closing)⟩

theorem call_unfolds {name opened closed : Token} (isName : name.kind = .identifier)
    (isOpened : opened.kind = .openParen) (isClosed : closed.kind = .closeParen)
    (adjacent : opened.span.start = name.span.stop)
    (unfolds : Unfolds limit tree levels tokens) (spelled : Spells tree levels tokens) :
    Unfolds limit (.form .paren [.ofName name.value, tree]) (levels + 1)
      (name :: opened :: tokens ++ [closed]) := by
  apply unfolds_of_start .name
  intro first last depth trail _ within _
  rcases trail.uncons with ⟨rfl, _, next, taken, rest⟩
  rcases rest.uncons with ⟨rfl, _⟩
  rw [start_call isName taken isOpened adjacent]
  have same : next.depth = depth + 1 := (depth_of_advance taken).trans within
  exact ⟨by rw [isName]; rfl,
    unfolds.delimited .paren [_] spelled (Or.inl rfl) isClosed rest same⟩

/-! ## Operators -/

/-- Where the sign of a tag is held and binds tightly enough, it is applied to the
left operand. -/
theorem extend_of_sign {middle : Parser} {tag : Tag} {role : Role} {power : Power}
    (left : Tree) (joins : tag.role? = some role) (isSign : middle.ahead.kind = tag.sign)
    (tight : power.rank < tag.band) :
    exists row, row ∈ Operator.table ∧ row.tag = tag ∧ row.role = role ∧
      middle.extend limit power left =
        (middle.grow limit row left).andThen fun tree next => next.extend limit power tree := by
  rcases Tag.exists_row joins with ⟨row, found, sameTag, sameRole, band⟩
  refine ⟨row, Operator.mem_table_of_ofKind? found, sameTag, sameRole, ?_⟩
  rw [← isSign] at found
  have tighter : ¬ row.power ≤ power := by
    intro loose
    have rank : row.power.rank ≤ power.rank := loose
    omega
  rw [extend_eq, extendOnce_of_some limit found, if_neg tighter]

/-- The right operand of a pair is read up to the reach of its tag. -/
theorem grow_pair {row : Operator} (left : Tree) (middle : Parser)
    (listed : row ∈ Operator.table) (pairs : row.role ≠ .sequence) :
    exists power : Power, power.rank = row.tag.reach ∧
      middle.grow limit row left = middle.paired limit row.tag power left := by
  rcases Operator.row_agrees listed with ⟨_, joins, band⟩
  rw [grow]
  cases role : row.role with
  | binary =>
      rw [role] at joins
      exact ⟨row.power, by rw [Tag.reach_of_binary joins, band], rfl⟩
  | conditional =>
      rw [role] at joins
      exact ⟨.semicolon, by rw [Tag.reach_of_conditional joins]; rfl, rfl⟩
  | sequence => exact absurd role pairs

theorem pair_unfolds {tag : Tag} {role : Role} {left right : Tree}
    {leftLevels rightLevels : Nat} {leftTokens rightTokens : List Token} {sign : Token}
    (joins : tag.role? = some role) (pairs : role ≠ .sequence) (isSign : sign.kind = tag.sign)
    (rightSpelled : Spells right rightLevels rightTokens)
    (arranged : (Tree.form tag [left, right]).Arranged)
    (leftUnfolds : Unfolds limit left leftLevels leftTokens)
    (rightUnfolds : Unfolds limit right rightLevels rightTokens) :
    Unfolds limit (.form tag [left, right]) (max leftLevels (rightLevels + 1))
      (leftTokens ++ sign :: rightTokens) := by
  intro first last power depth trail tight stands separates within allowed
  have tightTag : power.rank < tag.band := tight
  rcases (Tree.arranged_pair_iff joins pairs).mp arranged with ⟨before, reaches⟩
  rcases (Tree.standsBefore_pair_iff joins pairs).mp stands with ⟨stops, shut⟩
  rcases trail.split with ⟨middle, front, back⟩
  rcases back.uncons with ⟨rfl, _, next, taken, rest⟩
  -- The left operand comes first, and the sign behind it binds tightly enough.
  have tightLeft : power.rank < left.band := by
    have loose := before.loose
    rw [Tag.power_sign joins] at loose
    omega
  have leftSettled := leftUnfolds first middle power depth front tightLeft (isSign ▸ before)
    (isSign ▸ Tag.separates_sign joins) within allowed
  rcases extend_of_sign left joins isSign tightTag with ⟨row, listed, rfl, rfl, extended⟩
  rcases grow_pair left middle listed pairs with ⟨inner, rank, grown⟩
  have starts : next.ahead.kind.startsExpression = true :=
    startsExpression_of_trail rightSpelled (by rw [List.append_nil]; exact rest)
  rw [extended, grown, paired, taken, Reply.done_andThen, if_pos starts] at leftSettled
  -- The right operand is read one level below.
  have nextDepth : next.depth = depth + 1 := by
    rw [depth_of_advance taken, front.depth_eq, within]
  have standsRight : right.StandsBefore last.ahead.kind :=
    Tree.standsBefore_of_tighter (Nat.lt_of_le_of_lt stops reaches) shut
  have rightSettled := rightUnfolds.read rightSpelled rest (rank ▸ reaches) standsRight separates
    (rank ▸ stops)
  rw [nextDepth] at rightSettled
  apply leftSettled.trans
  rw [Reply.andThen_assoc]
  exact rightSettled.up.andThen fun operand after =>
    (Reply.done (Tree.form row.tag [left, operand]) after).andThen fun tree next =>
      next.extend limit power tree

/-- A separator with another sibling behind it. -/
theorem collect_of_starts {row : Operator} {items : List Tree} {middle next : Parser}
    {separator : Token} (listed : row ∈ Operator.table) (sequence : row.role = .sequence)
    (taken : middle.advance = .done separator next)
    (starts : next.ahead.kind.startsExpression = true) :
    middle.collect limit row items =
      (next.read limit row.power).andThen fun item after =>
        if after.ahead.kind = row.kind then
          after.collect limit row (item :: items)
        else
          .done (.form row.tag (item :: items).reverse) after := by
  rcases Operator.row_agrees listed with ⟨sign, joins, _⟩
  rw [sequence] at joins
  have single : ¬ next.ahead.kind = row.kind := by
    intro doubled
    rw [doubled, ← sign, Tag.startsExpression_sign joins] at starts
    cases starts
  rw [collect_eq, collectOnce, taken, Reply.done_andThen, if_neg single, if_pos starts]

/-- A separator with nothing behind it closes the sequence. -/
theorem collect_of_ends {row : Operator} {items : List Tree} {middle last : Parser}
    {separator : Token} (listed : row ∈ Operator.table) (sequence : row.role = .sequence)
    (taken : middle.advance = .done separator last)
    (looser : last.ahead.kind.power.rank < row.tag.band)
    (separates : last.ahead.kind.Separates) :
    middle.collect limit row items = .done (.form row.tag items.reverse) last := by
  rcases Operator.row_agrees listed with ⟨sign, joins, band⟩
  rw [sequence] at joins
  have single : last.ahead.kind ≠ row.kind := sign ▸ Tag.ne_sign_of_looser joins looser
  have never := Tag.startsExpression_of_looser joins looser separates
  have loose : ¬ row.power < last.ahead.kind.power := by
    intro tighter
    have rank : row.power.rank < last.ahead.kind.power.rank := tighter
    omega
  rw [collect_eq, collectOnce, taken, Reply.done_andThen, if_neg single, never,
    if_neg Bool.false_ne_true, if_neg loose]

/-- A sibling that its separator and its spelling lead to. -/
structure Readable (limit : Option Nat) (tag : Tag) (sibling : Sibling) : Prop where
  sign : sibling.separator.kind = tag.sign
  spelled : Spells sibling.tree sibling.levels sibling.tokens
  unfolds : Unfolds limit sibling.tree sibling.levels sibling.tokens
  tight : tag.band < sibling.tree.band

/-- What the loop over siblings meets: a separator with nothing behind it, or a
sibling in front of what follows the sequence, or a sibling in front of more of
the same. -/
inductive Lined (limit : Option Nat) (tag : Tag) (follow : Kind) :
    List Sibling -> Option Token -> Prop
  | ends (separator : Token) :
      separator.kind = tag.sign ->
      Lined limit tag follow [] (some separator)
  | last (sibling : Sibling) :
      Readable limit tag sibling -> sibling.tree.StandsBefore follow ->
      Lined limit tag follow [sibling] none
  | next {later : List Sibling} {trailing : Option Token} (sibling : Sibling) :
      Readable limit tag sibling -> sibling.tree.StandsBefore tag.sign ->
      Lined limit tag follow later trailing ->
      Lined limit tag follow (sibling :: later) trailing

/-- What the loop meets starts with a separator. -/
theorem Lined.spread_eq {tag : Tag} {follow : Kind} {later : List Sibling}
    {trailing : Option Token} (lined : Lined limit tag follow later trailing) :
    exists separator rest, Sibling.spread later ++ trailing.toList = separator :: rest ∧
      separator.kind = tag.sign := by
  cases lined with
  | ends separator isSign => exact ⟨separator, [], rfl, isSign⟩
  | last sibling readable => exact ⟨sibling.separator, _, rfl, readable.sign⟩
  | next sibling readable => exact ⟨sibling.separator, _, rfl, readable.sign⟩

/-- In front of every round a separator is held. -/
theorem Lined.ahead {tag : Tag} {follow : Kind} {later : List Sibling} {trailing : Option Token}
    {middle last : Parser} (lined : Lined limit tag follow later trailing)
    (trail : Trail middle (Sibling.spread later ++ trailing.toList) last) :
    middle.ahead.kind = tag.sign := by
  rcases lined.spread_eq with ⟨separator, rest, same, isSign⟩
  rw [same] at trail
  exact trail.uncons.1 ▸ isSign

/-- A round of the loop reads one sibling, one level below. -/
theorem Readable.collect {row : Operator} {sibling : Sibling} {middle after : Parser}
    {depth : Nat} (items : List Tree) (listed : row ∈ Operator.table)
    (sequence : row.role = .sequence) (readable : Readable limit row.tag sibling)
    (trail : Trail middle (sibling.separator :: sibling.tokens) after)
    (within : middle.depth = depth + 1) (stands : sibling.tree.StandsBefore after.ahead.kind)
    (separates : after.ahead.kind.Separates)
    (stops : after.ahead.kind.power.rank ≤ row.tag.band) :
    Settles limit depth (sibling.levels + 1) (middle.collect limit row items)
      (if after.ahead.kind = row.kind then
        after.collect limit row (sibling.tree :: items)
      else
        .done (.form row.tag (sibling.tree :: items).reverse) after) := by
  have band := (Operator.row_agrees listed).2.2
  rcases trail.uncons with ⟨_, _, next, taken, rest⟩
  have starts : next.ahead.kind.startsExpression = true :=
    startsExpression_of_trail readable.spelled (by rw [List.append_nil]; exact rest)
  have settled := readable.unfolds.read readable.spelled rest (band ▸ readable.tight) stands
    separates (band ▸ stops)
  rw [depth_of_advance taken, within] at settled
  rw [collect_of_starts listed sequence taken starts]
  exact settled.up.andThen fun item after =>
    if after.ahead.kind = row.kind then
      after.collect limit row (item :: items)
    else
      .done (.form row.tag (item :: items).reverse) after

/-- The loop over siblings takes all of them, and the trailing separator too. -/
theorem Lined.collect {row : Operator} {later : List Sibling} {trailing : Option Token}
    {last : Parser} {depth base : Nat} (listed : row ∈ Operator.table)
    (sequence : row.role = .sequence) (allowed : Allows limit depth base)
    (looser : last.ahead.kind.power.rank < row.tag.band)
    (separates : last.ahead.kind.Separates)
    (lined : Lined limit row.tag last.ahead.kind later trailing)
    (items : List Tree) (middle : Parser) (within : middle.depth = depth + 1)
    (trail : Trail middle (Sibling.spread later ++ trailing.toList) last) :
    Settles limit depth (Sibling.deepest base later) (middle.collect limit row items)
      (.done (.form row.tag (items.reverse ++ later.map Sibling.tree)) last) := by
  rcases Operator.row_agrees listed with ⟨sign, joins, band⟩
  rw [sequence] at joins
  induction lined generalizing items middle with
  | ends separator isSign =>
      rcases Trail.advance_of_single trail with ⟨_, taken⟩
      apply Settles.of_eq allowed
      rw [collect_of_ends listed sequence taken looser separates, List.map_nil, List.append_nil]
  | last sibling readable stands =>
      have whole : Trail middle (sibling.separator :: sibling.tokens) last := by
        simpa using trail
      have ended : last.ahead.kind ≠ row.kind := sign ▸ Tag.ne_sign_of_looser joins looser
      have settled := readable.collect items listed sequence whole within stands separates
        (Nat.le_of_lt looser)
      rw [if_neg ended, List.reverse_cons] at settled
      exact settled.trans (.of_eq allowed rfl)
  | @next later trailing sibling readable stands lined inductionHypothesis =>
      rw [Sibling.spread_cons, List.append_assoc] at trail
      rcases trail.split with ⟨after, front, back⟩
      have isSign := lined.ahead back
      have again : after.ahead.kind = row.kind := isSign.trans sign
      have stops : after.ahead.kind.power.rank ≤ row.tag.band :=
        Nat.le_of_eq (by rw [isSign, Tag.power_sign joins])
      have settled := readable.collect items listed sequence front within (isSign ▸ stands)
        (isSign ▸ Tag.separates_sign joins) stops
      rw [if_pos again] at settled
      have rest := inductionHypothesis (sibling.tree :: items) after
        (front.depth_eq.trans within) back
      rw [List.reverse_cons, List.append_assoc] at rest
      exact settled.trans rest

/-- Siblings are lined up if the separator may stand behind each of them but the
last, and behind that one the separator or what follows. -/
theorem lined_of_before {tag : Tag} {follow : Kind} {trailing : Option Token}
    (trailed : forall separator, separator ∈ trailing -> separator.kind = tag.sign)
    (later : List Sibling) (more : trailing = none -> later ≠ [])
    (readable : forall sibling, sibling ∈ later -> Readable limit tag sibling)
    (before : forall sibling, sibling ∈ later.dropLast -> sibling.tree.StandsBefore tag.sign)
    (final : forall sibling, sibling ∈ later.getLast? ->
      sibling.tree.StandsBefore (if trailing = none then follow else tag.sign)) :
    Lined limit tag follow later trailing := by
  induction later with
  | nil =>
      cases trailing with
      | none => exact absurd rfl (more rfl)
      | some separator => exact .ends separator (trailed separator rfl)
  | cons sibling rest inductionHypothesis =>
      have head := readable sibling List.mem_cons_self
      have tail : forall other, other ∈ rest -> Readable limit tag other :=
        fun other member => readable other (List.mem_cons_of_mem _ member)
      cases rest with
      | nil =>
          have stands := final sibling rfl
          cases trailing with
          | none => exact .last sibling head stands
          | some separator =>
              exact .next sibling head stands (.ends separator (trailed separator rfl))
      | cons second rest =>
          apply Lined.next sibling head (before sibling List.mem_cons_self)
          refine inductionHypothesis (fun _ => List.cons_ne_nil _ _) tail ?_ ?_
          · intro other member
            exact before other (List.mem_cons_of_mem _ member)
          · intro other member
            exact final other (by rw [List.getLast?_cons_cons]; exact member)

/-- In a sequence that fits, the separator may stand behind the first child, and
the later ones are lined up. -/
theorem lined_of_arranged {tag : Tag} {first : Tree} {later : List Sibling}
    {trailing : Option Token} {follow : Kind} (sequence : tag.role? = some .sequence)
    (arranged : (Tree.form tag (first :: later.map Sibling.tree)).Arranged)
    (stands : (Tree.form tag (first :: later.map Sibling.tree)).StandsBefore follow)
    (more : trailing = none -> later ≠ [])
    (trailed : forall separator, separator ∈ trailing -> separator.kind = tag.sign ∧
      (tag ≠ .semicolon -> Tree.lastEndsOpen (first :: later.map Sibling.tree) = false))
    (signs : forall sibling, sibling ∈ later -> sibling.separator.kind = tag.sign)
    (spelled : forall sibling, sibling ∈ later ->
      Spells sibling.tree sibling.levels sibling.tokens)
    (unfolds : forall sibling, sibling ∈ later ->
      Unfolds limit sibling.tree sibling.levels sibling.tokens) :
    first.StandsBefore tag.sign ∧ follow.power.rank < tag.band ∧
      Lined limit tag follow later trailing := by
  have isSign : forall separator, separator ∈ trailing -> separator.kind = tag.sign :=
    fun separator member => (trailed separator member).1
  rcases List.eq_nil_or_concat later with rfl | ⟨earlier, final, same⟩
  · have alone : (Tree.form tag ([] ++ [first])).Arranged := arranged
    have standsAlone : (Tree.form tag ([] ++ [first])).StandsBefore follow := stands
    have fits := (Tree.arranged_siblings_iff sequence).mp alone
    have looser := ((Tree.standsBefore_siblings_iff sequence).mp standsAlone).1
    refine ⟨fits.2.2 rfl, looser, lined_of_before isSign [] more ?_ ?_ ?_⟩
    · exact fun sibling member => absurd member List.not_mem_nil
    · exact fun sibling member => absurd member List.not_mem_nil
    · exact fun sibling member => by cases member
  · rw [List.concat_eq_append] at same
    subst same
    have children : first :: (earlier ++ [final]).map Sibling.tree =
        (first :: earlier.map Sibling.tree) ++ [final.tree] := by
      simp
    rw [children] at arranged stands trailed
    rcases (Tree.arranged_siblings_iff sequence).mp arranged with ⟨early, tight, _⟩
    rcases (Tree.standsBefore_siblings_iff sequence).mp stands with ⟨looser, shut⟩
    have earlyTree : forall sibling, sibling ∈ earlier ->
        sibling.tree.StandsBefore tag.sign := by
      intro sibling member
      exact early sibling.tree (List.mem_cons_of_mem _ (List.mem_map_of_mem member))
    refine ⟨early first List.mem_cons_self, looser,
      lined_of_before isSign (earlier ++ [final]) more ?_ ?_ ?_⟩
    · intro sibling member
      refine ⟨signs sibling member, spelled sibling member, unfolds sibling member, ?_⟩
      rcases List.mem_append.mp member with front | back
      · exact ((Tree.standsBefore_strict_iff sequence (by decide)).mp
          (earlyTree sibling front)).1
      · rw [List.mem_singleton.mp back]
        exact tight
    · rw [List.dropLast_concat]
      exact earlyTree
    · intro sibling member
      rw [List.getLast?_concat] at member
      cases member
      cases trailing with
      | none => exact Tree.standsBefore_of_tighter (Nat.lt_trans looser tight) shut
      | some separator =>
          have closed := (trailed separator rfl).2
          rw [Tree.lastEndsOpen_concat] at closed
          exact (Tree.standsBefore_strict_iff sequence (by decide)).mpr ⟨tight, closed⟩

theorem siblings_unfolds {tag : Tag} {first : Tree} {later : List Sibling}
    {trailing : Option Token} (sequence : tag.role? = some .sequence)
    (arranged : (Tree.form tag (first :: later.map Sibling.tree)).Arranged)
    (more : trailing = none -> later ≠ [])
    (trailed : forall separator, separator ∈ trailing -> separator.kind = tag.sign ∧
      (tag ≠ .semicolon -> Tree.lastEndsOpen (first :: later.map Sibling.tree) = false))
    (signs : forall sibling, sibling ∈ later -> sibling.separator.kind = tag.sign)
    (spelled : forall sibling, sibling ∈ later ->
      Spells sibling.tree sibling.levels sibling.tokens)
    (firstUnfolds : Unfolds limit first levels tokens)
    (unfolds : forall sibling, sibling ∈ later ->
      Unfolds limit sibling.tree sibling.levels sibling.tokens) :
    Unfolds limit (.form tag (first :: later.map Sibling.tree)) (Sibling.deepest levels later)
      (tokens ++ Sibling.spread later ++ trailing.toList) := by
  intro start last power depth trail tight stands separates within allowed
  have tightTag : power.rank < tag.band := tight
  rcases lined_of_arranged sequence arranged stands more trailed signs spelled unfolds with
    ⟨before, looser, lined⟩
  rw [List.append_assoc] at trail
  rcases trail.split with ⟨middle, front, back⟩
  have isSign := lined.ahead back
  have tightFirst : power.rank < first.band := by
    have loose := before.loose
    rw [Tag.power_sign sequence] at loose
    omega
  have settled := firstUnfolds start middle power depth front tightFirst (isSign ▸ before)
    (isSign ▸ Tag.separates_sign sequence) within allowed
  rcases extend_of_sign first sequence isSign tightTag with ⟨row, listed, rfl, role, extended⟩
  have grown : middle.grow limit row first = middle.collect limit row [first] := by
    rw [grow, role]
  rw [extended, grown] at settled
  refine settled.chain ?_ (Sibling.le_deepest levels later)
  intro room
  have collected := lined.collect listed role room looser separates [first] middle
    (front.depth_eq.trans within) back
  exact collected.andThen fun tree next => next.extend limit power tree

/-! ## Spellings -/

/-- Every spelling of an arranged tree unfolds.  The induction is on the
spelling. -/
theorem unfolds_of_spells (limit : Option Nat) (spelled : Spells tree levels tokens)
    (arranged : tree.Everywhere Tree.Arranged) : Unfolds limit tree levels tokens := by
  induction spelled with
  | name token isName => exact name_unfolds isName
  | int token isInt inRange => exact int_unfolds isInt inRange
  | float token isFloat => exact float_unfolds isFloat
  | string token isString => exact string_unfolds isString
  | importing marker path isMarker isString => exact importing_unfolds isMarker isString
  | declaring marker name isMarker isName => exact declaring_unfolds isMarker isName
  | group opened closed isOpened isClosed spelled inductionHypothesis =>
      have below := (Tree.everywhere_form_iff.mp arranged).2
      exact group_unfolds isOpened isClosed (inductionHypothesis (below _ (by simp))) spelled
  | emptyCall name opened closed isName isOpened isClosed adjacent =>
      exact emptyCall_unfolds isName isOpened isClosed adjacent
  | call name opened closed isName isOpened isClosed adjacent spelled inductionHypothesis =>
      have below := (Tree.everywhere_form_iff.mp arranged).2
      exact call_unfolds isName isOpened isClosed adjacent
        (inductionHypothesis (below _ (by simp))) spelled
  | emptyBracket opened closed isOpened isClosed =>
      exact emptyBracket_unfolds isOpened isClosed
  | bracket opened closed isOpened isClosed spelled inductionHypothesis =>
      have below := (Tree.everywhere_form_iff.mp arranged).2
      exact bracket_unfolds isOpened isClosed (inductionHypothesis (below _ (by simp))) spelled
  | pair sign joins pairs isSign left right leftHypothesis rightHypothesis =>
      rcases Tree.everywhere_form_iff.mp arranged with ⟨root, below⟩
      exact pair_unfolds joins pairs isSign right root (leftHypothesis (below _ (by simp)))
        (rightHypothesis (below _ (by simp)))
  | siblings later trailing sequence first signs spelled more trailed firstHypothesis
      laterHypothesis =>
      rcases Tree.everywhere_form_iff.mp arranged with ⟨root, below⟩
      refine siblings_unfolds sequence root more trailed signs spelled
        (firstHypothesis (below _ List.mem_cons_self)) ?_
      intro sibling member
      exact laterHypothesis sibling member
        (below _ (List.mem_cons_of_mem _ (List.mem_map_of_mem member)))

theorem depth_of_ofSource {file source : String} {parser : Parser}
    (opened : ofSource file source = .ok parser) : parser.depth = 0 :=
  (ofSource_eq_ok_iff.mp opened).1

/-- From the start of its source a spelling is read to the end. -/
theorem read_of_spells {file source : String} {last : Token} (limit : Option Nat)
    (listed : tokenize file source = .ok (tokens ++ [last]))
    (spelled : Spells tree levels tokens) (arranged : tree.Everywhere Tree.Arranged) :
    exists parser final, ofSource file source = .ok parser ∧
      final.ahead.kind = .endOfInput ∧
      Settles limit 0 levels (parser.read limit .loosest) (.done tree final) := by
  rcases tokenize_eq_ok_iff.mp listed with ⟨parser, final, opened, trail, rfl, atEnd⟩
  refine ⟨parser, final, opened, atEnd, ?_⟩
  have absent : Operator.ofKind? final.ahead.kind = none := by
    rw [atEnd]
    rfl
  have never : final.ahead.kind.startsExpression = false := by
    rw [atEnd]
    rfl
  have settled := (unfolds_of_spells limit spelled arranged).read_loosest spelled trail absent
    never
  rw [depth_of_ofSource opened] at settled
  exact settled

end
end Parser

section
variable {file source : String} {tree : Tree} {levels : Nat} {tokens : List Token} {last : Token}

/-- A spelling within the limit is accepted. -/
theorem parseWithin_of_allows {limit : Option Nat}
    (listed : tokenize file source = .ok (tokens ++ [last]))
    (spelled : Spells tree levels tokens) (arranged : tree.Everywhere Tree.Arranged)
    (allowed : Parser.Allows limit 0 levels) : parseWithin limit file source = .ok tree := by
  rcases Parser.read_of_spells limit listed spelled arranged with
    ⟨parser, final, opened, atEnd, settled⟩
  exact parseWithin_eq_ok_iff.mpr ⟨parser, final, opened, settled.enough allowed, atEnd⟩

/-- A spelling beyond the limit is refused for that reason. -/
theorem parseWithin_of_not_allows {limit : Option Nat}
    (listed : tokenize file source = .ok (tokens ++ [last]))
    (spelled : Spells tree levels tokens) (arranged : tree.Everywhere Tree.Arranged)
    (denied : ¬ Parser.Allows limit 0 levels) :
    exists bound position, limit = some bound ∧
      parseWithin limit file source = .error ⟨.tooDeep bound, position⟩ := by
  rcases Parser.read_of_spells limit listed spelled arranged with
    ⟨parser, final, opened, _, settled⟩
  rcases settled.beyond denied with ⟨bound, position, stopped, same, failed⟩
  refine ⟨bound, position, same, ?_⟩
  rw [parseWithin_eq opened, failed]

theorem levels_le_of_spells {other : Tree} {otherLevels : Nat}
    (listed : tokenize file source = .ok (tokens ++ [last]))
    (spelled : Spells tree levels tokens) (arranged : tree.Everywhere Tree.Arranged)
    (otherSpelled : Spells other otherLevels tokens)
    (otherArranged : other.Everywhere Tree.Arranged) : otherLevels ≤ levels := by
  have accepted : parseWithin (some levels) file source = .ok tree :=
    parseWithin_of_allows listed spelled arranged
      (Parser.allows_some_iff.mpr (Nat.le_of_eq (Nat.zero_add levels)))
  rcases Nat.lt_or_ge levels otherLevels with beyond | within
  · have denied : ¬ Parser.Allows (some levels) 0 otherLevels := by
      rw [Parser.allows_some_iff]
      omega
    rcases parseWithin_of_not_allows listed otherSpelled otherArranged denied with
      ⟨bound, position, _, refused⟩
    cases accepted.symm.trans refused
  · exact within

/-- The tokens of a source spell at most one arranged tree, on one number of
levels. -/
theorem spelling_unique {other : Tree} {otherLevels : Nat}
    (listed : tokenize file source = .ok (tokens ++ [last]))
    (spelled : Spells tree levels tokens) (arranged : tree.Everywhere Tree.Arranged)
    (otherSpelled : Spells other otherLevels tokens)
    (otherArranged : other.Everywhere Tree.Arranged) :
    other = tree ∧ otherLevels = levels := by
  have accepted : parseWithin none file source = .ok tree :=
    parseWithin_of_allows listed spelled arranged Parser.allows_none
  have otherAccepted : parseWithin none file source = .ok other :=
    parseWithin_of_allows listed otherSpelled otherArranged Parser.allows_none
  constructor
  · cases accepted.symm.trans otherAccepted
    rfl
  · exact Nat.le_antisymm
      (levels_le_of_spells listed spelled arranged otherSpelled otherArranged)
      (levels_le_of_spells listed otherSpelled otherArranged spelled arranged)

/-- A source that spells a shaped tree within the limit is accepted as that tree,
and its tokens spell no other. -/
theorem parse_of_spelling (listed : tokenize file source = .ok (tokens ++ [last]))
    (spelled : Spells tree levels tokens) (shaped : tree.Shaped)
    (shallow : levels ≤ Parser.nestingLimit) :
    parse file source = .ok tree ∧
      forall (other : Tree) (otherLevels : Nat), Spells other otherLevels tokens ->
        other.Shaped -> other = tree := by
  have arranged := (Tree.shaped_iff.mp shaped).1
  constructor
  · refine parseWithin_of_allows listed spelled arranged (Parser.allows_some_iff.mpr ?_)
    rw [Nat.zero_add]
    exact shallow
  · intro other otherLevels otherSpelled otherShaped
    have otherArranged := (Tree.shaped_iff.mp otherShaped).1
    exact (spelling_unique listed spelled arranged otherSpelled otherArranged).1

end

theorem parse_of_spelling_conditional :
    tokenize "shell" "a?b.c;" =
      .ok ([⟨.identifier, "a", ⟨0, 1⟩⟩, ⟨.question, "?", ⟨1, 2⟩⟩, ⟨.identifier, "b", ⟨2, 3⟩⟩,
        ⟨.dot, ".", ⟨3, 4⟩⟩, ⟨.identifier, "c", ⟨4, 5⟩⟩, ⟨.semicolon, ";", ⟨5, 6⟩⟩] ++
        [⟨.endOfInput, "EOF", ⟨6, 6⟩⟩]) ∧
    Spells (.form .semicolon
        [.form .question [.ident "a", .form .period [.ident "b", .ident "c"]]]) 3
      [⟨.identifier, "a", ⟨0, 1⟩⟩, ⟨.question, "?", ⟨1, 2⟩⟩, ⟨.identifier, "b", ⟨2, 3⟩⟩,
        ⟨.dot, ".", ⟨3, 4⟩⟩, ⟨.identifier, "c", ⟨4, 5⟩⟩, ⟨.semicolon, ";", ⟨5, 6⟩⟩] ∧
    (Tree.form .semicolon
      [.form .question [.ident "a", .form .period [.ident "b", .ident "c"]]]).Shaped ∧
    parse "shell" "a?b.c;" =
      .ok (.form .semicolon
        [.form .question [.ident "a", .form .period [.ident "b", .ident "c"]]]) ∧
    forall (other : Tree) (levels : Nat),
      Spells other levels [⟨.identifier, "a", ⟨0, 1⟩⟩, ⟨.question, "?", ⟨1, 2⟩⟩,
        ⟨.identifier, "b", ⟨2, 3⟩⟩, ⟨.dot, ".", ⟨3, 4⟩⟩, ⟨.identifier, "c", ⟨4, 5⟩⟩,
        ⟨.semicolon, ";", ⟨5, 6⟩⟩] ->
      other.Shaped ->
      other = .form .semicolon
        [.form .question [.ident "a", .form .period [.ident "b", .ident "c"]]] := by
  have listed : tokenize "shell" "a?b.c;" =
      .ok ([⟨.identifier, "a", ⟨0, 1⟩⟩, ⟨.question, "?", ⟨1, 2⟩⟩, ⟨.identifier, "b", ⟨2, 3⟩⟩,
        ⟨.dot, ".", ⟨3, 4⟩⟩, ⟨.identifier, "c", ⟨4, 5⟩⟩, ⟨.semicolon, ";", ⟨5, 6⟩⟩] ++
        [⟨.endOfInput, "EOF", ⟨6, 6⟩⟩]) := by
    refine tokenize_eq_ok_iff.mpr ⟨⟨⟨"shell", 1, "?b.c;".toList⟩, ⟨.identifier, "a", ⟨0, 1⟩⟩, 0⟩,
      ⟨⟨"shell", 6, []⟩, ⟨.endOfInput, "EOF", ⟨6, 6⟩⟩, 0⟩, by cbv, ?_, rfl, rfl⟩
    repeat refine .onward (by decide) (by cbv) ?_
    exact .stay _
  have nameC : Spells (.ident "c") 1 [⟨.identifier, "c", ⟨4, 5⟩⟩] :=
    .name ⟨.identifier, "c", ⟨4, 5⟩⟩ rfl
  have period : Spells (.form .period [.ident "b", .ident "c"]) 2
      [⟨.identifier, "b", ⟨2, 3⟩⟩, ⟨.dot, ".", ⟨3, 4⟩⟩, ⟨.identifier, "c", ⟨4, 5⟩⟩] := by
    refine .siblings [⟨⟨.dot, ".", ⟨3, 4⟩⟩, .ident "c", 1, [⟨.identifier, "c", ⟨4, 5⟩⟩]⟩] none
      rfl (.name ⟨.identifier, "b", ⟨2, 3⟩⟩ rfl) ?_ ?_ (by simp) (by simp)
    · simp [Tag.sign]
    · simpa using nameC
  have question : Spells (.form .question [.ident "a", .form .period [.ident "b", .ident "c"]]) 3
      [⟨.identifier, "a", ⟨0, 1⟩⟩, ⟨.question, "?", ⟨1, 2⟩⟩, ⟨.identifier, "b", ⟨2, 3⟩⟩,
        ⟨.dot, ".", ⟨3, 4⟩⟩, ⟨.identifier, "c", ⟨4, 5⟩⟩] :=
    .pair ⟨.question, "?", ⟨1, 2⟩⟩ rfl (by decide : Role.conditional ≠ .sequence) rfl
      (.name ⟨.identifier, "a", ⟨0, 1⟩⟩ rfl) period
  -- One child needs its separator, and a semicolon may stand behind a conditional.
  have spelled : Spells (.form .semicolon
        [.form .question [.ident "a", .form .period [.ident "b", .ident "c"]]]) 3
      [⟨.identifier, "a", ⟨0, 1⟩⟩, ⟨.question, "?", ⟨1, 2⟩⟩, ⟨.identifier, "b", ⟨2, 3⟩⟩,
        ⟨.dot, ".", ⟨3, 4⟩⟩, ⟨.identifier, "c", ⟨4, 5⟩⟩, ⟨.semicolon, ";", ⟨5, 6⟩⟩] :=
    .siblings [] (some ⟨.semicolon, ";", ⟨5, 6⟩⟩) rfl question (by simp) (by simp)
      (by simp) (by simp [Tag.sign])
  have shaped : (Tree.form .semicolon
      [.form .question [.ident "a", .form .period [.ident "b", .ident "c"]]]).Shaped :=
    (spelled_of_parseWithin (by cbv : parse "shell" "a?b.c;" = _)).1
  exact ⟨listed, spelled, shaped, parse_of_spelling listed spelled shaped (by decide)⟩

end SignalScript
