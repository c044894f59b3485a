import Mathlib.Data.List.Chain
import SignalScript.Proofs.Completeness
import SignalScript.Proofs.Punctuation

namespace SignalScript

/-!
What stands behind a separator.

Behind a separator stands another sibling, or else the separator is the last token of its
sequence.  In the second case what follows may stand behind the sequence as a whole, and so it
binds more loosely than the separator does.

That does not make it a looser separator.  Behind a period or a semicolon nothing else is left,
but between the bands of the period and the comma lie those of assignments and conditionals.  A
trailing comma may therefore be followed by one of these, which takes the sequence for its left
operand.
-/

namespace Kind

/-- Behind a separator, a token starts a sibling or binds more loosely.  Behind any other token
there is nothing to ask. -/
def Precedes (first second : Kind) : Prop :=
  first.isSeparator = true ->
    second.startsExpression = true ∨ second.power.rank < first.power.rank

theorem precedes_of_other {first : Kind} (second : Kind) (other : first.isSeparator = false) :
    first.Precedes second := by
  intro separates
  rw [other] at separates
  cases separates

/-- What binds more loosely than a separator and starts nothing is the end of the input, a
closing delimiter or a looser separator.  Only behind a comma there is more. -/
theorem follower_of_looser {separator next : Kind} (separates : separator.isSeparator = true)
    (never : next.startsExpression = false) (looser : next.power.rank < separator.power.rank) :
    next = .endOfInput ∨ next.closes = true ∨
      (next.isSeparator = true ∧ next.power < separator.power) ∨
      (separator = .comma ∧ next ∈ [assign, plusAssign, question, colon]) := by
  revert separates never looser
  cases separator <;> cases next <;> decide

end Kind

/-- A token may stand right in front of another. -/
def Token.Precedes (first second : Token) : Prop :=
  first.kind.Precedes second.kind

theorem Token.precedes_of_kind {token : Token} {kind : Kind} (next : Token)
    (same : token.kind = kind) (other : kind.isSeparator = false) : token.Precedes next :=
  Kind.precedes_of_other next.kind (same ▸ other)

theorem Tag.isSeparator_sign {tag : Tag} {role : Role} (joins : tag.role? = some role)
    (pairs : role ≠ .sequence) : tag.sign.isSeparator = false := by
  cases tag <;> cases joins <;> first | rfl | exact absurd rfl pairs

/-! ## Spellings as chains -/

namespace Spells

/-- A separator may stand in front of any spelling. -/
theorem precedes_head {tree : Tree} {levels : Nat} {tokens more : List Token}
    (spelled : Spells tree levels tokens) (separator : Token) :
    forall next, next ∈ (tokens ++ more).head? -> separator.Precedes next := by
  intro next member
  rcases spelled.starts with ⟨first, rest, rfl, starts⟩
  cases member
  exact fun _ => Or.inl starts

end Spells

/-- Delimiters around a chain, and a token behind them. -/
theorem chained_between {opened closed follow : Token} {tokens : List Token} {first second : Kind}
    (isOpened : opened.kind = first) (plainFirst : first.isSeparator = false)
    (isClosed : closed.kind = second) (plainSecond : second.isSeparator = false)
    (inner : (tokens ++ [closed]).IsChain Token.Precedes) :
    ((opened :: tokens ++ [closed]) ++ [follow]).IsChain Token.Precedes := by
  rw [List.append_assoc, List.cons_append, List.singleton_append, List.isChain_cons,
    List.isChain_split]
  refine ⟨fun next _ => opened.precedes_of_kind next isOpened plainFirst, inner, ?_⟩
  exact List.isChain_pair.mpr (closed.precedes_of_kind follow isClosed plainSecond)

namespace Parser

variable {limit : Option Nat} {tag : Tag} {later : List Sibling} {trailing : Option Token}

/-- Siblings in a row form a chain up to what follows them, if each of them does. -/
theorem Lined.chained {follow : Token} (sequence : tag.role? = some .sequence)
    (looser : follow.kind.power.rank < tag.band)
    (lined : Lined limit tag follow.kind later trailing)
    (each : forall sibling, sibling ∈ later -> forall next : Token,
      sibling.tree.StandsBefore next.kind ->
      (sibling.tokens ++ [next]).IsChain Token.Precedes) :
    (Sibling.spread later ++ trailing.toList ++ [follow]).IsChain Token.Precedes := by
  generalize same : follow.kind = kind at lined
  induction lined with
  | ends separator isSign =>
      refine List.isChain_pair.mpr fun _ => Or.inr ?_
      rw [isSign, Tag.power_sign sequence]
      exact looser
  | last sibling readable stands =>
      have chained := each sibling List.mem_cons_self follow (same ▸ stands)
      have whole : Sibling.spread [sibling] ++ (none : Option Token).toList ++ [follow] =
          sibling.separator :: (sibling.tokens ++ [follow]) := by
        simp
      rw [whole, List.isChain_cons]
      exact ⟨readable.spelled.precedes_head sibling.separator, chained⟩
  | @next later trailing sibling readable stands lined inductionHypothesis =>
      have rest := inductionHypothesis fun other member =>
        each other (List.mem_cons_of_mem _ member)
      rcases lined.spread_eq with ⟨separator, onward, starts, isSign⟩
      have chained := each sibling List.mem_cons_self separator (isSign ▸ stands)
      rw [starts, List.cons_append] at rest
      rw [Sibling.spread_cons, List.append_assoc (_ :: _), starts, List.append_assoc,
        List.cons_append, List.cons_append, List.isChain_cons, List.isChain_split]
      exact ⟨readable.spelled.precedes_head sibling.separator, chained, rest⟩

end Parser

/-- The tokens of an arranged tree and what may stand behind it form a chain. -/
theorem Spells.chained {tree : Tree} {levels : Nat} {tokens : List Token}
    (spelled : Spells tree levels tokens) (arranged : tree.Everywhere Tree.Arranged)
    (follow : Token) (stands : tree.StandsBefore follow.kind) :
    (tokens ++ [follow]).IsChain Token.Precedes := by
  induction spelled generalizing follow with
  | name token isName => exact List.isChain_pair.mpr (token.precedes_of_kind _ isName rfl)
  | int token isInt => exact List.isChain_pair.mpr (token.precedes_of_kind _ isInt rfl)
  | float token isFloat => exact List.isChain_pair.mpr (token.precedes_of_kind _ isFloat rfl)
  | string token isString => exact List.isChain_pair.mpr (token.precedes_of_kind _ isString rfl)
  | importing marker path isMarker isString =>
      exact List.isChain_cons_cons.mpr ⟨marker.precedes_of_kind _ isMarker rfl,
        List.isChain_pair.mpr (path.precedes_of_kind _ isString rfl)⟩
  | declaring marker name isMarker isName =>
      exact List.isChain_cons_cons.mpr ⟨marker.precedes_of_kind _ isMarker rfl,
        List.isChain_pair.mpr (name.precedes_of_kind _ isName rfl)⟩
  | group opened closed isOpened isClosed _ inductionHypothesis =>
      have below := (Tree.everywhere_form_iff.mp arranged).2 _ List.mem_cons_self
      exact chained_between isOpened rfl isClosed rfl (inductionHypothesis below closed
        (Tree.standsBefore_of_none _ (isClosed ▸ rfl)))
  | emptyCall name opened closed isName isOpened isClosed =>
      have nothing : ([] ++ [closed]).IsChain Token.Precedes := List.isChain_singleton closed
      exact List.isChain_cons_cons.mpr ⟨name.precedes_of_kind _ isName rfl,
        chained_between isOpened rfl isClosed rfl nothing⟩
  | call name opened closed isName isOpened isClosed _ _ inductionHypothesis =>
      have below := (Tree.everywhere_form_iff.mp arranged).2 _
        (List.mem_cons_of_mem _ List.mem_cons_self)
      exact List.isChain_cons_cons.mpr ⟨name.precedes_of_kind _ isName rfl,
        chained_between isOpened rfl isClosed rfl (inductionHypothesis below closed
          (Tree.standsBefore_of_none _ (isClosed ▸ rfl)))⟩
  | emptyBracket opened closed isOpened isClosed =>
      have nothing : ([] ++ [closed]).IsChain Token.Precedes := List.isChain_singleton closed
      exact chained_between isOpened rfl isClosed rfl nothing
  | bracket opened closed isOpened isClosed _ inductionHypothesis =>
      have below := (Tree.everywhere_form_iff.mp arranged).2 _ List.mem_cons_self
      exact chained_between isOpened rfl isClosed rfl (inductionHypothesis below closed
        (Tree.standsBefore_of_none _ (isClosed ▸ rfl)))
  | pair sign joins pairs isSign _ _ leftHypothesis rightHypothesis =>
      rcases Tree.everywhere_form_iff.mp arranged with ⟨root, below⟩
      rcases (Tree.arranged_pair_iff joins pairs).mp root with ⟨before, reaches⟩
      rcases (Tree.standsBefore_pair_iff joins pairs).mp stands with ⟨stops, shut⟩
      have left := leftHypothesis (below _ (by simp)) sign (isSign ▸ before)
      have right := rightHypothesis (below _ (by simp)) follow
        (Tree.standsBefore_of_tighter (Nat.lt_of_le_of_lt stops reaches) shut)
      rw [List.append_assoc, List.cons_append, List.isChain_split, List.isChain_cons]
      exact ⟨left, fun next _ => sign.precedes_of_kind next isSign
        (Tag.isSeparator_sign joins pairs), right⟩
  | siblings later trailing sequence _ signs spelled more trailed firstHypothesis
      laterHypothesis =>
      rcases Tree.everywhere_form_iff.mp arranged with ⟨root, below⟩
      have belowLater : forall sibling, sibling ∈ later ->
          sibling.tree.Everywhere Tree.Arranged := fun sibling member =>
        below _ (List.mem_cons_of_mem _ (List.mem_map_of_mem member))
      rcases Parser.lined_of_arranged sequence root stands more trailed signs
        spelled (fun sibling member => Parser.unfolds_of_spells none (spelled sibling member)
          (belowLater sibling member)) with ⟨before, looser, lined⟩
      have rest := lined.chained sequence looser fun sibling member next =>
        laterHypothesis sibling member (belowLater sibling member) next
      rcases lined.spread_eq with ⟨separator, onward, starts, isSign⟩
      have front := firstHypothesis (below _ List.mem_cons_self) separator (isSign ▸ before)
      rw [starts, List.cons_append] at rest
      rw [List.append_assoc _ (Sibling.spread later), starts, List.append_assoc,
        List.cons_append, List.isChain_split]
      exact ⟨front, rest⟩

/-! ## Programs -/

/-- In an accepted source, a separator that adds no sibling is followed by the end of the input,
a closing delimiter or a looser separator.  A comma may also be followed by an assignment or a
conditional. -/
theorem trailing_separator_followed {file source : String} {tree : Tree}
    {before after : List Token} {separator next : Token}
    (accepted : parse file source = .ok tree)
    (listed : tokenize file source = .ok (before ++ separator :: next :: after))
    (separates : separator.kind.isSeparator = true)
    (never : next.kind.startsExpression = false) :
    next.kind = .endOfInput ∨ next.kind.closes = true ∨
      (next.kind.isSeparator = true ∧ next.kind.power < separator.kind.power) ∨
      (separator.kind = .comma ∧ next.kind ∈ [.assign, .plusAssign, .question, .colon]) := by
  rcases spelled_of_parseWithin accepted with
    ⟨shaped, levels, tokens, last, listedAll, atEnd, spelled⟩
  have stands : tree.StandsBefore last.kind := Tree.standsBefore_of_none tree (atEnd ▸ rfl)
  have chained := spelled.chained (Tree.shaped_iff.mp shaped).1 last stands
  have same : before ++ separator :: next :: after = tokens ++ [last] :=
    Except.ok.inj (listed.symm.trans listedAll)
  rw [← same, List.isChain_append_cons_cons] at chained
  rcases chained.2.1 separates with starts | looser
  · cases never.symm.trans starts
  · exact Kind.follower_of_looser separates never looser

theorem trailing_separator_followed_close :
    parse "shell" "f(a.;b,)" =
      .ok (.form .paren [.ident "f", .form .semicolon
        [.form .period [.ident "a"], .form .comma [.ident "b"]]]) ∧
    tokenize "shell" "f(a.;b,)" =
      .ok ([⟨.identifier, "f", ⟨0, 1⟩⟩, ⟨.openParen, "(", ⟨1, 2⟩⟩, ⟨.identifier, "a", ⟨2, 3⟩⟩,
        ⟨.dot, ".", ⟨3, 4⟩⟩, ⟨.semicolon, ";", ⟨4, 5⟩⟩, ⟨.identifier, "b", ⟨5, 6⟩⟩] ++
        ⟨.comma, ",", ⟨6, 7⟩⟩ :: ⟨.closeParen, ")", ⟨7, 8⟩⟩ :: [⟨.endOfInput, "EOF", ⟨8, 8⟩⟩]) ∧
    Kind.comma.isSeparator = true ∧ Kind.closeParen.startsExpression = false ∧
    (Kind.closeParen = .endOfInput ∨ Kind.closeParen.closes = true ∨
      (Kind.closeParen.isSeparator = true ∧ Kind.closeParen.power < Kind.comma.power) ∨
      (Kind.comma = .comma ∧ Kind.closeParen ∈ [.assign, .plusAssign, .question, .colon])) := by
  have accepted : parse "shell" "f(a.;b,)" =
      .ok (.form .paren [.ident "f", .form .semicolon
        [.form .period [.ident "a"], .form .comma [.ident "b"]]]) := by
    cbv
  let front : List Token := [⟨.identifier, "f", ⟨0, 1⟩⟩, ⟨.openParen, "(", ⟨1, 2⟩⟩,
    ⟨.identifier, "a", ⟨2, 3⟩⟩, ⟨.dot, ".", ⟨3, 4⟩⟩, ⟨.semicolon, ";", ⟨4, 5⟩⟩,
    ⟨.identifier, "b", ⟨5, 6⟩⟩]
  let separator : Token := ⟨.comma, ",", ⟨6, 7⟩⟩
  let next : Token := ⟨.closeParen, ")", ⟨7, 8⟩⟩
  let ended : Token := ⟨.endOfInput, "EOF", ⟨8, 8⟩⟩
  have listed : tokenize "shell" "f(a.;b,)" = .ok (front ++ separator :: next :: [ended]) := by
    show tokenize "shell" "f(a.;b,)" = .ok ((front ++ [separator, next]) ++ [ended])
    refine tokenize_eq_ok_iff.mpr
      ⟨⟨⟨"shell", 1, "(a.;b,)".toList⟩, ⟨.identifier, "f", ⟨0, 1⟩⟩, 0⟩,
        ⟨⟨"shell", 8, []⟩, ⟨.endOfInput, "EOF", ⟨8, 8⟩⟩, 0⟩, by cbv, ?_, rfl, rfl⟩
    repeat refine .onward (by decide) (by cbv) ?_
    exact .stay _
  exact ⟨accepted, listed, rfl, rfl, trailing_separator_followed accepted listed rfl rfl⟩

/-- An assignment behind a trailing comma is accepted, although it is no looser separator. -/
theorem trailing_comma_before_assignment :
    parse "shell" "a, = b" =
      .ok (.form .assign [.form .comma [.ident "a"], .ident "b"]) ∧
    tokenize "shell" "a, = b" =
      .ok ([⟨.identifier, "a", ⟨0, 1⟩⟩] ++ ⟨.comma, ",", ⟨1, 2⟩⟩ :: ⟨.assign, "=", ⟨3, 4⟩⟩ ::
        [⟨.identifier, "b", ⟨5, 6⟩⟩, ⟨.endOfInput, "EOF", ⟨6, 6⟩⟩]) ∧
    Kind.comma.isSeparator = true ∧ Kind.assign.startsExpression = false ∧
    ¬ (Kind.assign = .endOfInput ∨ Kind.assign.closes = true ∨
      (Kind.assign.isSeparator = true ∧ Kind.assign.power < Kind.comma.power)) := by
  have listed : tokenize "shell" "a, = b" =
      .ok ([⟨.identifier, "a", ⟨0, 1⟩⟩, ⟨.comma, ",", ⟨1, 2⟩⟩, ⟨.assign, "=", ⟨3, 4⟩⟩,
        ⟨.identifier, "b", ⟨5, 6⟩⟩] ++ [⟨.endOfInput, "EOF", ⟨6, 6⟩⟩]) := by
    refine tokenize_eq_ok_iff.mpr
      ⟨⟨⟨"shell", 1, ", = b".toList⟩, ⟨.identifier, "a", ⟨0, 1⟩⟩, 0⟩,
        ⟨⟨"shell", 6, []⟩, ⟨.endOfInput, "EOF", ⟨6, 6⟩⟩, 0⟩, by cbv, ?_, rfl, rfl⟩
    repeat refine .onward (by decide) (by cbv) ?_
    exact .stay _
  exact ⟨by cbv, listed, rfl, rfl, by decide⟩

end SignalScript
