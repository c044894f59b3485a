import SignalScript.Proofs.Closers
import SignalScript.Proofs.Leftover

namespace SignalScript

/-!
Sources that lack nothing but closing delimiters.

A spelling that is cut off in front of closing delimiters at its end leaves a delimiter open.  The
cut lies on the right edge of the tree, so everything to the left of it is read as in the whole
spelling, and the parse meets the end of the input within the last delimiter that is left open.

If that delimiter has contents, they are complete, and the parse says that it is never closed.  If
nothing stands behind it, a call or a pair of brackets was about to be empty.  But the parse finds
no closing delimiter there and asks for an expression, which the input does not have and the limit
on nesting may not allow.
-/

/-! ## Lists cut off in front of closing delimiters -/

section
variable {first rest front back : List Token} {token : Token}

/-- A token that closes nothing stands in front of the cut. -/
theorem cut_behind (same : first ++ token :: rest = front ++ back)
    (closing : AllClose back) (plain : token.kind.closes = false) :
    exists middle, front = first ++ token :: middle ∧ rest = middle ++ back := by
  have kept : token ∉ back := by
    intro member
    cases plain.symm.trans (closing token member)
  rcases List.append_eq_append_iff.mp same with ⟨middle, whole, split⟩ | ⟨middle, _, split⟩
  · cases middle with
    | nil =>
        rw [List.nil_append] at split
        exact absurd (split ▸ List.mem_cons_self) kept
    | cons other middle =>
        cases split
        exact ⟨middle, whole, rfl⟩
  · refine absurd ?_ kept
    rw [split]
    exact List.mem_append_right _ List.mem_cons_self

/-- The last token stands behind the cut. -/
theorem closes_of_cut (same : first ++ [token] = front ++ back) (more : back ≠ [])
    (closing : AllClose back) : token.kind.closes = true := by
  cases closes : token.kind.closes with
  | true => rfl
  | false =>
      rcases cut_behind same closing closes with ⟨middle, _, nothing⟩
      exact absurd (List.append_eq_nil_iff.mp nothing.symm).2 more

end

/-- Between delimiters, the cut stands behind the opening one and in front of the closing one. -/
theorem cut_between {tokens front back : List Token} {opened closed : Token}
    (same : opened :: tokens ++ [closed] = front ++ back) (more : back ≠ [])
    (closing : AllClose back) (opens : opened.kind.opens = true) :
    exists inner behind, front = opened :: inner ∧ tokens = inner ++ behind ∧
      AllClose behind := by
  have plain : opened.kind.closes = false := by
    cases closes : opened.kind.closes with
    | false => rfl
    | true => cases opens.symm.trans (Kind.opens_of_closes closes)
  rcases List.eq_nil_or_concat back with rfl | ⟨behind, last, rfl⟩
  · exact absurd rfl more
  · rw [List.concat_eq_append, ← List.append_assoc] at same
    have parts : [] ++ opened :: tokens = front ++ behind := (List.append_inj' same rfl).1
    have closingBehind : AllClose behind := by
      intro other member
      exact closing other (by simp [member])
    rcases cut_behind parts closingBehind plain with ⟨inner, whole, split⟩
    exact ⟨inner, behind, whole, split, closingBehind⟩

namespace Parser

/-! ## Readings that run out of input -/

/-- What a parse says at the end of the input, if the tokens leave a delimiter open. -/
def Lacks (limit : Option Nat) (front : List Token) (last : Parser) (fault : Fault) : Prop :=
  exists opened inner close, LastOpen front opened inner ∧ opened.kind.partner? = some close ∧
    (inner ≠ [] -> fault = last.faultAt opened (.unclosed opened.value close.symbol)) ∧
    (inner = [] -> fault.position = last.position ∧
      (fault.cause = .unexpectedEnd ∨ exists bound, limit = some bound ∧
        fault.cause = .tooDeep bound))

/-- A reading fails because the tokens leave a delimiter open. -/
def RunsOut (limit : Option Nat) (front : List Token) (last : Parser)
    (reply : Reply Parser Tree) : Prop :=
  exists fault left, reply = .failed fault left ∧ Lacks limit front last fault

section
variable {limit : Option Nat} {front : List Token} {last : Parser}

theorem RunsOut.andThen {reply : Reply Parser Tree} (runsOut : RunsOut limit front last reply)
    (resume : Tree -> Parser -> Reply Parser Tree) :
    RunsOut limit front last (reply.andThen resume) := by
  rcases runsOut with ⟨fault, left, rfl, lacks⟩
  exact ⟨fault, left, rfl, lacks⟩

theorem RunsOut.behind {reply : Reply Parser Tree} (runsOut : RunsOut limit front last reply)
    (earlier : List Token) : RunsOut limit (earlier ++ front) last reply := by
  rcases runsOut with ⟨fault, left, failed, opened, inner, close, lastOpen, rest⟩
  exact ⟨fault, left, failed, opened, inner, close, lastOpen.append earlier, rest⟩

end

/-- Cut off in front of closing delimiters at its end, the spelling runs out of input. -/
def Unfinished (limit : Option Nat) (tree : Tree) (levels : Nat) (tokens : List Token) : Prop :=
  forall (front back : List Token) (first last : Parser) (power : Power) (depth : Nat),
    tokens = front ++ back -> back ≠ [] -> AllClose back ->
    Trail first front last -> last.ahead.kind = .endOfInput -> power.rank < tree.band ->
    first.depth = depth + 1 -> Allows limit depth levels ->
    RunsOut limit front last (first.body limit power)

section
variable {limit : Option Nat} {tree : Tree} {levels : Nat} {tokens front back : List Token}
  {first last : Parser}

/-- In front of the cut there is at least the token with which the spelling starts. -/
theorem starts_of_cut (spelled : Spells tree levels (front ++ back))
    (closing : AllClose back) (trail : Trail first front last) :
    first.ahead.kind.startsExpression = true := by
  rcases spelled.starts with ⟨token, rest, same, starts⟩
  cases front with
  | nil =>
      have closes := closing token (by rw [← List.nil_append back, same]; exact List.mem_cons_self)
      cases starts.symm.trans (Kind.startsExpression_of_closes closes)
  | cons other front =>
      cases same
      rcases trail.uncons with ⟨rfl, _⟩
      exact starts

theorem Unfinished.read (power : Power)
    (unfinished : Unfinished limit tree levels (front ++ back))
    (spelled : Spells tree levels (front ++ back)) (more : back ≠ []) (closing : AllClose back)
    (trail : Trail first front last) (atEnd : last.ahead.kind = .endOfInput)
    (tight : power.rank < tree.band) (allowed : Allows limit first.depth levels) :
    RunsOut limit front last (first.read limit power) := by
  have positive := spelled.levels_pos
  cases deep : first.tooDeep? limit with
  | some fault =>
      rcases tooDeep?_eq_some deep with ⟨bound, same, full, _⟩
      have room := allowed bound same
      omega
  | none =>
      have below : Trail first.deeper front (last.atDepth (first.depth + 1)) :=
        trail.atDepth (first.depth + 1)
      rw [read_of_none limit deep]
      exact (unfinished front back first.deeper _ power first.depth rfl more closing below atEnd
        tight rfl allowed).andThen _

/-! ## Delimiters -/

/-- What a delimiter holds has been read, and then the input ends. -/
theorem closing_runsOut (limit : Option Nat) {opened : Token} {close : Kind}
    (spelled : Spells tree levels tokens)
    (partners : opened.kind.partner? = some close) (atEnd : last.ahead.kind = .endOfInput) :
    exists fault, (last.closing opened close).reply = .failed fault last ∧
      Lacks limit (opened :: tokens) last fault := by
  refine ⟨last.faultAt opened (.unclosed opened.value close.symbol), ?_, opened, tokens, close,
    ⟨⟨[], rfl⟩, Kind.opens_of_partner? partners, spelled.leftOpen_eq⟩, partners, fun _ => rfl, ?_⟩
  · refine demand_eq_failed_iff.mpr (Or.inr ⟨?_, (if_pos atEnd).symm, rfl⟩)
    rw [atEnd]
    rintro rfl
    cases Kind.closes_of_partner? partners
  · rintro rfl
    rcases spelled.starts with ⟨token, rest, same, _⟩
    cases same

theorem Unfinished.inside {opened : Token} {close : Kind}
    (unfinished : Unfinished limit tree levels (front ++ back))
    (unfolds : Unfolds limit tree levels (front ++ back))
    (spelled : Spells tree levels (front ++ back)) (closing : AllClose back)
    (partners : opened.kind.partner? = some close) (trail : Trail first front last)
    (atEnd : last.ahead.kind = .endOfInput) (allowed : Allows limit first.depth levels) :
    RunsOut limit (opened :: front) last (first.inside limit opened close) := by
  cases back with
  | nil =>
      rw [List.append_nil] at unfolds spelled
      have settled := unfolds.read_loosest spelled trail (by rw [atEnd]; rfl)
        (by rw [atEnd]; rfl)
      rcases closing_runsOut limit spelled partners atEnd with ⟨fault, failed, lacks⟩
      refine ⟨fault, last, ?_, lacks⟩
      rw [Parser.inside, settled.enough allowed, Reply.done_andThen, failed]
      rfl
  | cons token back =>
      have runsOut := unfinished.read .loosest spelled (List.cons_ne_nil _ _) closing trail atEnd
        tree.band_pos allowed
      exact (runsOut.andThen _).behind [opened]

/-- What stands between delimiters is not closed, whatever form they belong to. -/
theorem Unfinished.delimited {opened : Token} {close : Kind} {depth : Nat} (tag : Tag)
    (children : List Tree) (unfinished : Unfinished limit tree levels (front ++ back))
    (unfolds : Unfolds limit tree levels (front ++ back))
    (spelled : Spells tree levels (front ++ back)) (closing : AllClose back)
    (partners : opened.kind.partner? = some close) (trail : Trail first (opened :: front) last)
    (atEnd : last.ahead.kind = .endOfInput) (within : first.depth = depth + 1)
    (allowed : Allows limit depth (levels + 1)) :
    RunsOut limit (opened :: front) last (first.delimited limit tag children close) := by
  rcases trail.uncons with ⟨rfl, _, next, opening, rest⟩
  have starts := starts_of_cut spelled closing rest
  have filled : ¬ next.ahead.kind = close := by
    intro empty
    rw [empty, Kind.startsExpression_of_closes (Kind.closes_of_partner? partners)] at starts
    cases starts
  have room : Allows limit next.depth levels := by
    rw [depth_of_advance opening, within]
    exact allows_succ_iff.mpr allowed
  rw [Parser.delimited, opening, Reply.done_andThen, if_neg filled]
  exact (unfinished.inside unfolds spelled closing partners rest atEnd room).andThen _

/-- Behind an opening delimiter the end of the input is no contents. -/
theorem read_of_endOfInput (limit : Option Nat) (power : Power)
    (atEnd : last.ahead.kind = .endOfInput) :
    exists fault left, last.read limit power = .failed fault left ∧
      fault.position = last.position ∧
      (fault.cause = .unexpectedEnd ∨ exists bound, limit = some bound ∧
        fault.cause = .tooDeep bound) := by
  cases deep : last.tooDeep? limit with
  | some fault =>
      rcases tooDeep?_eq_some deep with ⟨bound, same, _, rfl⟩
      exact ⟨_, last, read_of_some limit deep, rfl, Or.inr ⟨bound, same, rfl⟩⟩
  | none =>
      have absent : Head.ofKind? last.deeper.ahead.kind = none := by
        have same : last.deeper.ahead.kind = .endOfInput := atEnd
        rw [same]
        rfl
      have cause : last.deeper.missingExpression.cause = .unexpectedEnd := if_pos atEnd
      refine ⟨last.deeper.missingExpression, last.deeper, ?_, rfl, Or.inl cause⟩
      rw [read_of_none limit deep, body_of_none limit absent]
      rfl

theorem delimited_of_endOfInput {opened : Token} {close : Kind} (tag : Tag)
    (children : List Tree) (partners : opened.kind.partner? = some close)
    (opening : first.advance = .done opened last) (atEnd : last.ahead.kind = .endOfInput) :
    RunsOut limit [opened] last (first.delimited limit tag children close) := by
  have unclosed : ¬ last.ahead.kind = close := by
    rw [atEnd]
    rintro rfl
    cases Kind.closes_of_partner? partners
  rcases read_of_endOfInput limit .loosest atEnd with ⟨fault, left, failed, said⟩
  refine ⟨fault, left, ?_, opened, [], close,
    ⟨⟨[], rfl⟩, Kind.opens_of_partner? partners, fun _ => rfl⟩, partners, absurd rfl,
    fun _ => said⟩
  rw [Parser.delimited, opening, Reply.done_andThen, if_neg unclosed, inside, failed]
  rfl

/-! ## Primaries -/

theorem body_runsOut {head : Head} {power : Power}
    (found : Head.ofKind? first.ahead.kind = some head)
    (runsOut : RunsOut limit front last (first.start limit head)) :
    RunsOut limit front last (first.body limit power) := by
  rw [body_of_some limit found]
  exact runsOut.andThen _

theorem group_unfinished {opened closed : Token} (isOpened : opened.kind = .openParen)
    (unfinished : Unfinished limit tree levels tokens) (unfolds : Unfolds limit tree levels tokens)
    (spelled : Spells tree levels tokens) :
    Unfinished limit (.form .paren [tree]) (levels + 1) (opened :: tokens ++ [closed]) := by
  intro front back first last power depth same more closing trail atEnd _ within allowed
  have partners : opened.kind.partner? = some .closeParen := congrArg Kind.partner? isOpened
  rcases cut_between same more closing (Kind.opens_of_partner? partners) with
    ⟨inner, behind, rfl, rfl, closingBehind⟩
  rcases trail.uncons with ⟨rfl, _, next, opening, rest⟩
  have room : Allows limit next.depth levels := by
    rw [depth_of_advance opening, within]
    exact allows_succ_iff.mpr allowed
  have found : Head.ofKind? first.ahead.kind = some .group := by
    rw [isOpened]
    rfl
  refine body_runsOut found ?_
  rw [start_group, opening, Reply.done_andThen]
  exact (unfinished.inside unfolds spelled closingBehind partners rest atEnd room).andThen _

theorem bracket_unfinished {opened closed : Token} (isOpened : opened.kind = .openBracket)
    (unfinished : Unfinished limit tree levels tokens) (unfolds : Unfolds limit tree levels tokens)
    (spelled : Spells tree levels tokens) :
    Unfinished limit (.form .bracket [tree]) (levels + 1) (opened :: tokens ++ [closed]) := by
  intro front back first last power depth same more closing trail atEnd _ within allowed
  have partners : opened.kind.partner? = some .closeBracket := congrArg Kind.partner? isOpened
  rcases cut_between same more closing (Kind.opens_of_partner? partners) with
    ⟨inner, behind, rfl, rfl, closingBehind⟩
  have found : Head.ofKind? first.ahead.kind = some .bracket := by
    rw [← trail.uncons.1, isOpened]
    rfl
  refine body_runsOut found ?_
  rw [start_bracket]
  exact unfinished.delimited .bracket [] unfolds spelled closingBehind partners trail atEnd within
    allowed

theorem emptyBracket_unfinished {opened closed : Token} (isOpened : opened.kind = .openBracket) :
    Unfinished limit (.form .bracket []) 1 [opened, closed] := by
  intro front back first last power depth same more closing trail atEnd _ _ _
  have partners : opened.kind.partner? = some .closeBracket := congrArg Kind.partner? isOpened
  have between : opened :: [] ++ [closed] = front ++ back := same
  rcases cut_between between more closing (Kind.opens_of_partner? partners) with
    ⟨inner, behind, rfl, nothing, _⟩
  cases (List.append_eq_nil_iff.mp nothing.symm).1
  rcases trail.advance_of_single with ⟨held, opening⟩
  have found : Head.ofKind? first.ahead.kind = some .bracket := by
    rw [← held, isOpened]
    rfl
  refine body_runsOut found ?_
  rw [start_bracket]
  exact delimited_of_endOfInput .bracket [] partners opening atEnd

/-- A call in which the cut stands behind the parenthesis. -/
theorem call_runsOut {name opened : Token} {inner : List Token} {power : Power}
    (isName : name.kind = .identifier) (isOpened : opened.kind = .openParen)
    (adjacent : opened.span.start = name.span.stop)
    (trail : Trail first (name :: opened :: inner) last)
    (runsOut : forall next, first.depth = next.depth -> Trail next (opened :: inner) last ->
      RunsOut limit (opened :: inner) last
        (next.delimited limit .paren [Tree.ofName name.value] .closeParen)) :
    RunsOut limit (name :: opened :: inner) last (first.body limit power) := by
  rcases trail.uncons with ⟨rfl, _, next, taken, rest⟩
  have held := rest.uncons.1
  have found : Head.ofKind? first.ahead.kind = some .name := by
    rw [isName]
    rfl
  refine body_runsOut found ?_
  rw [start_call isName taken (held ▸ isOpened) (held ▸ adjacent)]
  exact (runsOut next (depth_of_advance taken).symm rest).behind [first.ahead]

theorem emptyCall_unfinished {name opened closed : Token} (isName : name.kind = .identifier)
    (isOpened : opened.kind = .openParen) (adjacent : opened.span.start = name.span.stop) :
    Unfinished limit (.form .paren [.ofName name.value]) 1 [name, opened, closed] := by
  intro front back first last power depth same more closing trail atEnd _ _ _
  have partners : opened.kind.partner? = some .closeParen := congrArg Kind.partner? isOpened
  have named : [] ++ name :: [opened, closed] = front ++ back := same
  rcases cut_behind named closing (by rw [isName]; rfl) with ⟨called, rfl, split⟩
  have between : opened :: [] ++ [closed] = called ++ back := split
  rcases cut_between between more closing (Kind.opens_of_partner? partners) with
    ⟨inner, behind, rfl, nothing, _⟩
  cases (List.append_eq_nil_iff.mp nothing.symm).1
  refine call_runsOut isName isOpened adjacent trail ?_
  intro next _ rest
  exact delimited_of_endOfInput .paren _ partners rest.advance_of_single.2 atEnd

theorem call_unfinished {name opened closed : Token} (isName : name.kind = .identifier)
    (isOpened : opened.kind = .openParen) (adjacent : opened.span.start = name.span.stop)
    (unfinished : Unfinished limit tree levels tokens) (unfolds : Unfolds limit tree levels tokens)
    (spelled : Spells tree levels tokens) :
    Unfinished limit (.form .paren [.ofName name.value, tree]) (levels + 1)
      (name :: opened :: tokens ++ [closed]) := by
  intro front back first last power depth same more closing trail atEnd _ within allowed
  have partners : opened.kind.partner? = some .closeParen := congrArg Kind.partner? isOpened
  have named : [] ++ name :: (opened :: tokens ++ [closed]) = front ++ back := same
  rcases cut_behind named closing (by rw [isName]; rfl) with ⟨called, rfl, split⟩
  rcases cut_between split more closing (Kind.opens_of_partner? partners) with
    ⟨inner, behind, rfl, rfl, closingBehind⟩
  refine call_runsOut isName isOpened adjacent trail ?_
  intro next depth rest
  exact unfinished.delimited .paren _ unfolds spelled closingBehind partners rest atEnd
    (depth ▸ within) allowed

/-! ## Operators -/

/-- A sign is in front of the cut, and so is all of its left operand. -/
theorem pair_unfinished {tag : Tag} {role : Role} {left right : Tree}
    {leftLevels rightLevels : Nat} {leftTokens rightTokens : List Token} {sign : Token}
    (joins : tag.role? = some role) (pairs : role ≠ .sequence) (isSign : sign.kind = tag.sign)
    (rightSpelled : Spells right rightLevels rightTokens)
    (arranged : (Tree.form tag [left, right]).Arranged)
    (leftUnfolds : Unfolds limit left leftLevels leftTokens)
    (unfinished : Unfinished limit right rightLevels rightTokens) :
    Unfinished limit (.form tag [left, right]) (max leftLevels (rightLevels + 1))
      (leftTokens ++ sign :: rightTokens) := by
  intro front back first last power depth same more closing trail atEnd tight within allowed
  have tightTag : power.rank < tag.band := tight
  rcases allows_max_iff.mp allowed with ⟨leftRoom, rightRoom⟩
  rcases (Tree.arranged_pair_iff joins pairs).mp arranged with ⟨before, reaches⟩
  rcases cut_behind same closing (isSign ▸ Tag.closes_sign joins) with ⟨rightFront, rfl, rfl⟩
  rcases trail.split with ⟨middle, leftTrail, back⟩
  rcases back.uncons with ⟨rfl, _, next, taken, rest⟩
  have tightLeft : power.rank < left.band := by
    have loose := before.loose
    rw [Tag.power_sign joins] at loose
    omega
  have positive : 1 ≤ max leftLevels (rightLevels + 1) :=
    Nat.le_trans (Nat.le_add_left 1 rightLevels) (Nat.le_max_right _ _)
  have settled := leftUnfolds first middle power depth leftTrail tightLeft (isSign ▸ before)
    (isSign ▸ Tag.separates_sign joins) within (allowed.mono positive)
  rcases extend_of_sign left joins isSign tightTag with ⟨row, listed, rfl, rfl, extended⟩
  rcases grow_pair left middle listed pairs with ⟨inner, rank, grown⟩
  have starts := starts_of_cut rightSpelled closing rest
  have room : Allows limit next.depth rightLevels := by
    rw [depth_of_advance taken, leftTrail.depth_eq, within]
    exact allows_succ_iff.mpr rightRoom
  have runsOut := unfinished.read inner rightSpelled more closing rest atEnd (rank ▸ reaches) room
  rw [settled.enough leftRoom, extended, grown, paired, taken, Reply.done_andThen, if_pos starts]
  have whole := (runsOut.behind [middle.ahead]).behind leftTokens
  exact (whole.andThen _).andThen _

/-- A separator with a sibling behind it that is cut off. -/
theorem Readable.runsOut {row : Operator} {sibling : Sibling} {middle : Parser} {depth : Nat}
    (items : List Tree) (listed : row ∈ Operator.table) (sequence : row.role = .sequence)
    (readable : Readable limit row.tag sibling)
    (unfinished : Unfinished limit sibling.tree sibling.levels sibling.tokens)
    (same : sibling.tokens = front ++ back) (more : back ≠ []) (closing : AllClose back)
    (trail : Trail middle (sibling.separator :: front) last)
    (atEnd : last.ahead.kind = .endOfInput) (within : middle.depth = depth + 1)
    (allowed : Allows limit depth (sibling.levels + 1)) :
    RunsOut limit (sibling.separator :: front) last (middle.collect limit row items) := by
  have band := (Operator.row_agrees listed).2.2
  have spelled := readable.spelled
  rw [same] at spelled unfinished
  rcases trail.uncons with ⟨_, _, next, taken, rest⟩
  have starts := starts_of_cut spelled closing rest
  have room : Allows limit next.depth sibling.levels := by
    rw [depth_of_advance taken, within]
    exact allows_succ_iff.mpr allowed
  have runsOut := unfinished.read row.power spelled more closing rest atEnd
    (band ▸ readable.tight) room
  rw [collect_of_starts listed sequence taken starts]
  exact (runsOut.andThen _).behind [sibling.separator]

/-- The loop over siblings.  All of them but the last are in front of the cut. -/
theorem Lined.runsOut {row : Operator} {later : List Sibling} {trailing : Option Token}
    {depth base : Nat} (listed : row ∈ Operator.table) (sequence : row.role = .sequence)
    (more : back ≠ []) (closing : AllClose back)
    (atEnd : last.ahead.kind = .endOfInput)
    (lined : Lined limit row.tag .endOfInput later trailing)
    (each : forall sibling, sibling ∈ later ->
      Unfinished limit sibling.tree sibling.levels sibling.tokens)
    (allowed : Allows limit depth (Sibling.deepest base later))
    (items : List Tree) (front : List Token) (middle : Parser)
    (same : Sibling.spread later ++ trailing.toList = front ++ back)
    (trail : Trail middle front last) (within : middle.depth = depth + 1) :
    RunsOut limit front last (middle.collect limit row items) := by
  rcases Operator.row_agrees listed with ⟨sign, joins, band⟩
  rw [sequence] at joins
  induction lined generalizing items front middle with
  | ends separator isSign =>
      have single : [] ++ [separator] = front ++ back := same
      have closes := closes_of_cut single more closing
      rw [isSign, Tag.closes_sign joins] at closes
      cases closes
  | last sibling readable stands =>
      have whole : [] ++ sibling.separator :: sibling.tokens = front ++ back := by
        simpa using same
      rcases cut_behind whole closing (readable.sign ▸ Tag.closes_sign joins) with
        ⟨inner, rfl, split⟩
      exact readable.runsOut items listed sequence (each sibling List.mem_cons_self) split more
        closing trail atEnd within (allows_max_iff.mp allowed).1
  | @next later trailing sibling readable stands lined inductionHypothesis =>
      rcases lined.spread_eq with ⟨separator, rest, spread, isSign⟩
      rw [Sibling.spread_cons, List.append_assoc, spread] at same
      rcases cut_behind same closing (isSign ▸ Tag.closes_sign joins) with ⟨inner, rfl, split⟩
      rcases trail.split with ⟨after, front, back⟩
      have held : after.ahead.kind = row.tag.sign := back.uncons.1 ▸ isSign
      have stops : after.ahead.kind.power.rank ≤ row.tag.band :=
        Nat.le_of_eq (by rw [held, Tag.power_sign joins])
      rcases allows_max_iff.mp allowed with ⟨room, laterRoom⟩
      have settled := readable.collect items listed sequence front within (held ▸ stands)
        (held ▸ Tag.separates_sign joins) stops
      rw [settled.enough room, if_pos (held.trans sign)]
      have onward := inductionHypothesis
        (fun other member => each other (List.mem_cons_of_mem _ member)) laterRoom
        (sibling.tree :: items) (separator :: inner) after (by rw [spread, split]; rfl) back
        (front.depth_eq.trans within)
      exact onward.behind (sibling.separator :: sibling.tokens)

theorem siblings_unfinished {tag : Tag} {first : Tree} {later : List Sibling}
    {trailing : Option Token} (sequence : tag.role? = some .sequence)
    (arranged : (Tree.form tag (first :: later.map Sibling.tree)).Arranged)
    (more : trailing = none -> later ≠ [])
    (trailed : forall separator, separator ∈ trailing -> separator.kind = tag.sign ∧
      (tag ≠ .semicolon -> Tree.lastEndsOpen (first :: later.map Sibling.tree) = false))
    (signs : forall sibling, sibling ∈ later -> sibling.separator.kind = tag.sign)
    (spelledFirst : Spells first levels tokens)
    (spelled : forall sibling, sibling ∈ later ->
      Spells sibling.tree sibling.levels sibling.tokens)
    (firstUnfolds : Unfolds limit first levels tokens)
    (unfolds : forall sibling, sibling ∈ later ->
      Unfolds limit sibling.tree sibling.levels sibling.tokens)
    (unfinished : forall sibling, sibling ∈ later ->
      Unfinished limit sibling.tree sibling.levels sibling.tokens) :
    Unfinished limit (.form tag (first :: later.map Sibling.tree)) (Sibling.deepest levels later)
      (tokens ++ Sibling.spread later ++ trailing.toList) := by
  intro front back start last power depth same moreBack closing trail atEnd tight within allowed
  have tightTag : power.rank < tag.band := tight
  have stands : (Tree.form tag (first :: later.map Sibling.tree)).StandsBefore .endOfInput :=
    Tree.standsBefore_of_none _ rfl
  rcases lined_of_arranged sequence arranged stands more trailed signs spelled unfolds with
    ⟨before, _, lined⟩
  -- The first separator is in front of the cut, and so is all of the first child.
  rcases lined.spread_eq with ⟨separator, rest, spread, isSign⟩
  rw [List.append_assoc, spread] at same
  rcases cut_behind same closing (isSign ▸ Tag.closes_sign sequence) with ⟨inner, rfl, split⟩
  rcases trail.split with ⟨middle, firstTrail, laterTrail⟩
  have held : middle.ahead.kind = tag.sign := laterTrail.uncons.1 ▸ isSign
  have tightFirst : power.rank < first.band := by
    have loose := before.loose
    rw [Tag.power_sign sequence] at loose
    omega
  have room := allowed.mono (Sibling.le_deepest levels later)
  have settled := firstUnfolds start middle power depth firstTrail tightFirst (held ▸ before)
    (held ▸ Tag.separates_sign sequence) within (room.mono spelledFirst.levels_pos)
  rcases extend_of_sign first sequence held tightTag with ⟨row, listed, rfl, role, extended⟩
  have grown : middle.grow limit row first = middle.collect limit row [first] := by
    rw [grow, role]
  rw [settled.enough room, extended, grown]
  have runsOut := lined.runsOut listed role moreBack closing atEnd unfinished allowed [first]
    (separator :: inner) middle (by rw [spread, split]; rfl) laterTrail
    (firstTrail.depth_eq.trans within)
  exact (runsOut.andThen _).behind tokens

/-! ## Spellings -/

/-- A spelling that ends with something else cannot be cut off in front of closing
delimiters. -/
theorem unfinished_of_plain (earlier : List Token) {token : Token} {kind : Kind}
    (isKind : token.kind = kind) (plain : kind.closes = false) :
    Unfinished limit tree levels (earlier ++ [token]) := by
  intro front back first last power depth same more closing
  have closes := closes_of_cut same more closing
  rw [isKind, plain] at closes
  cases closes

/-- Every spelling of an arranged tree runs out of input where it is cut off.  The induction is
on the spelling. -/
theorem unfinished_of_spells (limit : Option Nat) (spelled : Spells tree levels tokens)
    (arranged : tree.Everywhere Tree.Arranged) : Unfinished limit tree levels tokens := by
  induction spelled with
  | name token isName => exact unfinished_of_plain [] isName rfl
  | int token isInt => exact unfinished_of_plain [] isInt rfl
  | float token isFloat => exact unfinished_of_plain [] isFloat rfl
  | string token isString => exact unfinished_of_plain [] isString rfl
  | importing marker path _ isString => exact unfinished_of_plain [marker] isString rfl
  | declaring marker name _ isName => exact unfinished_of_plain [marker] isName rfl
  | group opened closed isOpened _ spelled inductionHypothesis =>
      have below := (Tree.everywhere_form_iff.mp arranged).2 _ List.mem_cons_self
      exact group_unfinished isOpened (inductionHypothesis below)
        (unfolds_of_spells limit spelled below) spelled
  | emptyCall name opened closed isName isOpened _ adjacent =>
      exact emptyCall_unfinished isName isOpened adjacent
  | call name opened closed isName isOpened _ adjacent spelled inductionHypothesis =>
      have below := (Tree.everywhere_form_iff.mp arranged).2 _
        (List.mem_cons_of_mem _ List.mem_cons_self)
      exact call_unfinished isName isOpened adjacent (inductionHypothesis below)
        (unfolds_of_spells limit spelled below) spelled
  | emptyBracket opened closed isOpened => exact emptyBracket_unfinished isOpened
  | bracket opened closed isOpened _ spelled inductionHypothesis =>
      have below := (Tree.everywhere_form_iff.mp arranged).2 _ List.mem_cons_self
      exact bracket_unfinished isOpened (inductionHypothesis below)
        (unfolds_of_spells limit spelled below) spelled
  | pair sign joins pairs isSign left right _ rightHypothesis =>
      rcases Tree.everywhere_form_iff.mp arranged with ⟨root, below⟩
      exact pair_unfinished joins pairs isSign right root
        (unfolds_of_spells limit left (below _ (by simp))) (rightHypothesis (below _ (by simp)))
  | siblings later trailing sequence first signs spelled more trailed _ laterHypothesis =>
      rcases Tree.everywhere_form_iff.mp arranged with ⟨root, below⟩
      have belowLater : forall sibling, sibling ∈ later ->
          sibling.tree.Everywhere Tree.Arranged := fun sibling member =>
        below _ (List.mem_cons_of_mem _ (List.mem_map_of_mem member))
      exact siblings_unfinished sequence root more trailed signs first spelled
        (unfolds_of_spells limit first (below _ List.mem_cons_self))
        (fun sibling member => unfolds_of_spells limit (spelled sibling member)
          (belowLater sibling member))
        (fun sibling member => laterHypothesis sibling member (belowLater sibling member))

end
end Parser

/-! ## Programs -/

/-- Without closing delimiters that were put behind it, a source has the tokens that it had with
them, except for some closing delimiters at the end. -/
theorem tokenize_of_closers {file source closers : String} {tokens : List Token} {last : Token}
    (closing : Text.OnlyClosers closers.toList)
    (listed : tokenize file (source ++ closers) = .ok (tokens ++ [last])) :
    exists front back ended, tokens = front ++ back ∧
      AllClose back ∧ tokenize file source = .ok (front ++ [ended]) := by
  rcases tokenize_eq_ok_iff_scans.mp listed with ⟨middle, final, scans, read, atEnd⟩
  have longer : Scanner.ofSource file (source ++ closers) =
      (Scanner.ofSource file source).followedBy closers.toList := by
    rw [Scanner.ofSource, Scanner.ofSource, Scanner.followedBy, String.toList_append]
  rw [longer] at scans
  rcases scans.of_closers closing read atEnd with
    ⟨front, back, short, stopped, same, closes, own, ended⟩
  exact ⟨front, back, _, same, closes,
    tokenize_eq_ok_iff_scans.mpr ⟨short, stopped, own, ended, rfl⟩⟩

/-- If closing delimiters are all that a rejected source lacks, the fault lies with the last
delimiter that the source leaves open.  It is reported as never closed, unless the source ends
right behind it. -/
theorem missing_closers_reported {file source closers : String} {fault : Fault} {tree : Tree}
    (refused : parse file source = .error fault)
    (closing : Text.OnlyClosers closers.toList)
    (accepted : parse file (source ++ closers) = .ok tree) :
    exists (tokens inner : List Token) (opened last : Token) (close : Kind),
      tokenize file source = .ok (tokens ++ [last]) ∧ last.kind = .endOfInput ∧
      LastOpen tokens opened inner ∧ (leftOpen [] tokens).head? = some opened ∧
      opened.kind.partner? = some close ∧
      (inner ≠ [] ->
        fault = ⟨.unclosed opened.value close.symbol, ⟨opened.span.start, file⟩⟩) ∧
      (inner = [] -> fault.position = ⟨last.span.start, file⟩ ∧
        (fault.cause = .unexpectedEnd ∨ fault.cause = .tooDeep Parser.nestingLimit)) := by
  rcases spelled_of_parseWithin accepted with ⟨shaped, levels, tokens, _, listed, _, spelled⟩
  have arranged := (Tree.shaped_iff.mp shaped).1
  have shallow := (parseWithin_iff_levels listed spelled arranged).mp accepted
  have room : Parser.Allows (some Parser.nestingLimit) 0 levels := by
    rw [Parser.allows_some_iff, Nat.zero_add]
    exact shallow
  rcases tokenize_of_closers closing listed with ⟨front, back, ended, rfl, closes, own⟩
  by_cases complete : back = []
  · subst complete
    rw [List.append_nil] at spelled
    cases refused.symm.trans (parseWithin_of_allows own spelled arranged room)
  · rcases tokenize_eq_ok_iff.mp own with ⟨first, final, opened, trail, rfl, atEnd⟩
    have unfinished := Parser.unfinished_of_spells (some Parser.nestingLimit) spelled arranged
    rw [← Parser.depth_of_ofSource opened] at room
    rcases unfinished.read .loosest spelled complete closes trail atEnd tree.band_pos room with
      ⟨said, left, failed, delimiter, inner, close, lastOpen, partners, unclosed, empty⟩
    rw [parse, parseWithin_eq opened, failed] at refused
    cases refused
    have sameFile : final.scanner.file = file := by
      rw [trail.reaches.file_eq, Parser.file_of_ofSource opened]
    refine ⟨front, inner, delimiter, final.ahead, close, own, atEnd, lastOpen,
      lastOpen.head?_leftOpen [], partners, ?_, ?_⟩
    · intro filled
      rw [unclosed filled, ← sameFile]
      rfl
    · intro nothing
      rcases empty nothing with ⟨position, ended | ⟨bound, same, deep⟩⟩
      · exact ⟨position.trans (by rw [← sameFile]; rfl), Or.inl ended⟩
      · cases same
        exact ⟨position.trans (by rw [← sameFile]; rfl), Or.inr deep⟩

theorem missing_closers_reported_nested :
    parse "shell" "f(1)+[a, ('é';" = .error ⟨.unclosed "(" ")", ⟨9, "shell"⟩⟩ ∧
    Text.OnlyClosers ")]".toList ∧
    parse "shell" ("f(1)+[a, ('é';" ++ ")]") =
      .ok (.form .add [.form .paren [.ident "f", .int 1], .form .bracket [.form .comma
        [.ident "a", .form .paren [.form .semicolon [.string "é"]]]]]) ∧
    exists (tokens inner : List Token) (opened last : Token) (close : Kind),
      tokenize "shell" "f(1)+[a, ('é';" = .ok (tokens ++ [last]) ∧ last.kind = .endOfInput ∧
      LastOpen tokens opened inner ∧ (leftOpen [] tokens).head? = some opened ∧
      opened.kind.partner? = some close ∧
      (inner ≠ [] ->
        (⟨.unclosed "(" ")", ⟨9, "shell"⟩⟩ : Fault) =
          ⟨.unclosed opened.value close.symbol, ⟨opened.span.start, "shell"⟩⟩) ∧
      (inner = [] -> (⟨9, "shell"⟩ : Position) = ⟨last.span.start, "shell"⟩ ∧
        (Cause.unclosed "(" ")" = .unexpectedEnd ∨
          Cause.unclosed "(" ")" = .tooDeep Parser.nestingLimit)) := by
  have refused : parse "shell" "f(1)+[a, ('é';" = .error ⟨.unclosed "(" ")", ⟨9, "shell"⟩⟩ := by
    cbv
  have closing : Text.OnlyClosers ")]".toList := by
    intro c member
    simpa using member
  have accepted : parse "shell" ("f(1)+[a, ('é';" ++ ")]") =
      .ok (.form .add [.form .paren [.ident "f", .int 1], .form .bracket [.form .comma
        [.ident "a", .form .paren [.form .semicolon [.string "é"]]]]]) := by
    cbv
  exact ⟨refused, closing, accepted, missing_closers_reported refused closing accepted⟩

/-- A call that lacks nothing but its closing parenthesis is not reported as never closed. -/
theorem empty_call_unreported :
    parse "shell" ("f(" ++ ")") = .ok (.form .paren [.ident "f"]) ∧
    Text.OnlyClosers ")".toList ∧
    parse "shell" "f(" = .error ⟨.unexpectedEnd, ⟨2, "shell"⟩⟩ ∧
    forall delimiter expected position,
      parse "shell" "f(" ≠ .error ⟨.unclosed delimiter expected, position⟩ := by
  have refused : parse "shell" "f(" = .error ⟨.unexpectedEnd, ⟨2, "shell"⟩⟩ := by
    cbv
  refine ⟨by cbv, ?_, refused, ?_⟩
  · intro c member
    exact Or.inl (List.mem_singleton.mp member)
  · intro delimiter expected position unclosed
    cases refused.symm.trans unclosed

end SignalScript
