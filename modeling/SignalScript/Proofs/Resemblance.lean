import SignalScript.Proofs.Pulling

namespace SignalScript

/-!
Layout and letter case do not matter.

Two sources resemble each other if their token lists do: place by place the tokens have
the same kind and the same value, where the letters of names may differ in case.  Blanks,
comments and offsets are left out, with one exception.  Whether a parenthesis touches the
name in front of it has to be the same in both sources.

The parsers of two such sources run side by side.  They have taken the same number of
tokens at any time, and so they hold tokens from the same place.  What they answer in the
end is the same tree, or two faults against tokens from the same place.
-/

/-- Two tokens say the same.  The letters of a name may differ in case. -/
structure Token.Matches (token other : Token) : Prop where
  kind : token.kind = other.kind
  name : token.kind = .identifier ->
    token.value.toList.map Char.toLower = other.value.toList.map Char.toLower
  value : token.kind ≠ .identifier -> token.value = other.value

/-- Two token lists say the same, place by place, and agree about which names have a
parenthesis right behind them. -/
structure Resembles (tokens others : List Token) : Prop where
  length : tokens.length = others.length
  agree : forall {index : Nat} {token other : Token}, tokens[index]? = some token ->
    others[index]? = some other -> token.Matches other
  adjacent : forall {index : Nat} {name paren otherName otherParen : Token},
    tokens[index]? = some name -> tokens[index + 1]? = some paren ->
    others[index]? = some otherName -> others[index + 1]? = some otherParen ->
    name.kind = .identifier -> paren.kind = .openParen ->
    (paren.span.start = name.span.stop <-> otherParen.span.start = otherName.span.stop)

/-- Two tokens stand at the same place of two lists, and they say the same. -/
def Corresponds (tokens others : List Token) (token other : Token) : Prop :=
  (exists index : Nat, tokens[index]? = some token ∧ others[index]? = some other) ∧
    token.Matches other

/-- Two faults are held against tokens from the same place, each at the start of its own.
They have the same cause, and what they quote are the values of such tokens. -/
def SameFault (tokens others : List Token) (file otherFile : String) (fault other : Fault) :
    Prop :=
  exists token otherToken, Corresponds tokens others token otherToken ∧
    fault.cause.Alike (Corresponds tokens others) token otherToken other.cause ∧
    fault.position = ⟨token.span.start, file⟩ ∧
    other.position = ⟨otherToken.span.start, otherFile⟩

/-! ## Names -/

namespace Text

open Lexeme

theorem lowered_eq_toLower_of_lt : forall code, code < 128 ->
    lowered (Char.ofNat code) = (Char.ofNat code).toLower := by
  decide +kernel

/-- A word is lowered letter by letter. -/
theorem lower_eq_toLower {text : List Char} (isWord : IsWord text) :
    lower text = text.map Char.toLower := by
  have all := continuesWord_of_isWord isWord
  rw [lower_eq_map all]
  apply List.map_congr_left
  intro c member
  have same := lowered_eq_toLower_of_lt c.toNat (toNat_lt_of_continuesWord (all c member))
  rw [Char.ofNat_toNat] at same
  exact same

end Text

theorem Tree.ofName_eq {token other : Token} (agree : token.Matches other)
    (isName : token.kind = .identifier) (worded : token.Worded) (otherWorded : other.Worded) :
    Tree.ofName token.value = Tree.ofName other.value := by
  rw [Tree.ofName, Tree.ofName, Text.lower_eq_toLower (worded.1 isName),
    Text.lower_eq_toLower (otherWorded.1 (agree.kind ▸ isName)), agree.name isName]

/-- All tokens of a source hold what their kinds allow. -/
theorem worded_of_tokenize {file source : String} {tokens : List Token} {token : Token}
    (listed : tokenize file source = .ok tokens) (member : token ∈ tokens) : token.Worded := by
  rcases exists_trail_of_tokenize listed with ⟨first, front, last, opened, trail, atEnd, rfl⟩
  rcases List.mem_append.mp member with inFront | isLast
  · exact trail.worded (Parser.worded_of_ofSource opened) token inFront
  · rw [List.mem_singleton.mp isLast]
    exact Token.worded_of_other (atEnd ▸ nofun) (atEnd ▸ nofun)

/-! ## Side by side -/

namespace Parser

/-- Two parsers on their way, each of which has taken this many tokens. -/
structure Facing (first second : Parser) (count : Nat) (parser twin : Parser) : Prop where
  pulled : exists taken, Pulled first taken parser ∧ taken.length = count
  otherPulled : exists taken, Pulled second taken twin ∧ taken.length = count
  depth : parser.depth = twin.depth

/-- Two parsers at the start of sources that resemble each other. -/
structure Faced (tokens others : List Token) (first second : Parser) : Prop where
  resembles : Resembles tokens others
  awaits : first.Awaits tokens
  otherAwaits : second.Awaits others
  worded : forall token, token ∈ tokens -> token.Worded
  otherWorded : forall other, other ∈ others -> other.Worded

namespace Facing

variable {tokens others : List Token} {first second parser twin : Parser} {count : Nat}

theorem atDepth (facing : Facing first second count parser twin) (depth : Nat) :
    Facing first second count (parser.atDepth depth) (twin.atDepth depth) := by
  rcases facing.pulled with ⟨taken, pulled, counted⟩
  rcases facing.otherPulled with ⟨otherTaken, otherPulled, otherCounted⟩
  refine ⟨⟨taken ++ [], pulled.append (.moved depth (.stay _)), ?_⟩,
    ⟨otherTaken ++ [], otherPulled.append (.moved depth (.stay _)), ?_⟩, rfl⟩
  · rw [List.append_nil, counted]
  · rw [List.append_nil, otherCounted]

/-- The parsers hold tokens from the same place. -/
theorem held (facing : Facing first second count parser twin)
    (faced : Faced tokens others first second) :
    tokens[min count (tokens.length - 1)]? = some parser.ahead ∧
      others[min count (tokens.length - 1)]? = some twin.ahead := by
  rcases facing.pulled with ⟨taken, pulled, rfl⟩
  rcases facing.otherPulled with ⟨otherTaken, otherPulled, same⟩
  have own := (faced.awaits.draws pulled).held
  have other := (faced.otherAwaits.draws otherPulled).held
  rw [same, ← faced.resembles.length] at other
  exact ⟨own, other⟩

theorem corresponds (facing : Facing first second count parser twin)
    (faced : Faced tokens others first second) :
    Corresponds tokens others parser.ahead twin.ahead := by
  rcases facing.held faced with ⟨own, other⟩
  exact ⟨⟨_, own, other⟩, faced.resembles.agree own other⟩

/-- Both parsers can go on, and both then have taken one token more. -/
theorem advance (facing : Facing first second count parser twin)
    (faced : Faced tokens others first second) :
    exists next otherNext, parser.advance = .done parser.ahead next ∧
      twin.advance = .done twin.ahead otherNext ∧
      Facing first second (count + 1) next otherNext := by
  rcases facing.pulled with ⟨taken, pulled, counted⟩
  rcases facing.otherPulled with ⟨otherTaken, otherPulled, otherCounted⟩
  rcases (faced.awaits.pulled pulled).advance with ⟨next, step, _⟩
  rcases (faced.otherAwaits.pulled otherPulled).advance with ⟨otherNext, otherStep, _⟩
  refine ⟨next, otherNext, step, otherStep, ?_, ?_, ?_⟩
  · refine ⟨taken ++ [parser.ahead], pulled.append (.taken step (.stay next)), ?_⟩
    rw [List.length_append, counted, List.length_singleton]
  · refine ⟨otherTaken ++ [twin.ahead], otherPulled.append (.taken otherStep (.stay _)), ?_⟩
    rw [List.length_append, otherCounted, List.length_singleton]
  · rw [depth_of_advance step, depth_of_advance otherStep]
    exact facing.depth

/-- Whether a parenthesis touches the name in front of it is the same on both sides. -/
theorem adjacent {next otherNext : Parser} (facing : Facing first second count parser twin)
    (onward : Facing first second (count + 1) next otherNext)
    (faced : Faced tokens others first second) (isName : parser.ahead.kind = .identifier)
    (isParen : next.ahead.kind = .openParen) :
    (next.ahead.span.start = parser.ahead.span.stop <->
      otherNext.ahead.span.start = twin.ahead.span.stop) := by
  rcases facing.held faced with ⟨own, other⟩
  rcases onward.held faced with ⟨ownNext, otherNext⟩
  by_cases within : count < tokens.length - 1
  · have here : min count (tokens.length - 1) = count := by omega
    have behind : min (count + 1) (tokens.length - 1) = count + 1 := by omega
    rw [here] at own other
    rw [behind] at ownNext otherNext
    exact faced.resembles.adjacent own ownNext other otherNext isName isParen
  · -- Behind the end of the list the same token is held again, which is no parenthesis.
    have again : min (count + 1) (tokens.length - 1) = min count (tokens.length - 1) := by omega
    rw [again, own, Option.some.injEq] at ownNext
    rw [← ownNext, isName] at isParen
    cases isParen

end Facing

/-- The parsers of two sources held against each other. -/
def comparison (tokens others : List Token) (first second : Parser) : Pairing where
  states parser twin := exists count, Facing first second count parser twin
  tokens := Corresponds tokens others
  faults := SameFault tokens others first.scanner.file second.scanner.file

theorem comparison_lawful {tokens others : List Token} {first second : Parser}
    (faced : Faced tokens others first second) :
    (comparison tokens others first second).Lawful where
  held := by
    rintro parser twin ⟨count, facing⟩
    exact facing.corresponds faced
  depth := by
    rintro parser twin ⟨count, facing⟩
    exact facing.depth
  atDepth := by
    rintro parser twin depth ⟨count, facing⟩
    exact ⟨count, facing.atDepth depth⟩
  advance := by
    rintro parser twin ⟨count, facing⟩
    rcases facing.advance faced with ⟨next, otherNext, step, otherStep, onward⟩
    rw [step, otherStep]
    exact .done (facing.corresponds faced) ⟨count + 1, onward⟩
  kind := fun corresponds => corresponds.2.kind
  value := fun corresponds => corresponds.2.value
  name := by
    rintro token other ⟨⟨index, own, opposite⟩, agree⟩ isName
    exact Tree.ofName_eq agree isName (faced.worded _ (List.mem_of_getElem? own))
      (faced.otherWorded _ (List.mem_of_getElem? opposite))
  adjacent := by
    rintro parser next twin otherNext name otherName ⟨count, facing⟩ isName step otherStep isParen
    rcases facing.advance faced with ⟨_, _, sameStep, sameOther, onward⟩
    cases step.symm.trans sameStep
    cases otherStep.symm.trans sameOther
    exact facing.adjacent onward faced isName isParen
  raised := by
    rintro parser twin token other cause otherCause ⟨count, facing⟩ corresponds alike
    rcases facing.pulled with ⟨_, pulled, _⟩
    rcases facing.otherPulled with ⟨_, otherPulled, _⟩
    refine ⟨token, other, corresponds, alike, ?_, ?_⟩
    · rw [faultAt, positionOf, Reaches.file_eq ⟨_, pulled⟩]
    · rw [faultAt, positionOf, Reaches.file_eq ⟨_, otherPulled⟩]

end Parser

/-- Sources that resemble each other are parsed to the same tree, or rejected for the same
reason at the same place of their token lists. -/
theorem parse_resembles {file otherFile source otherSource : String} {tokens others : List Token}
    (listed : tokenize file source = .ok tokens)
    (otherListed : tokenize otherFile otherSource = .ok others)
    (resembles : Resembles tokens others) :
    (exists tree, parse file source = .ok tree ∧ parse otherFile otherSource = .ok tree) ∨
      exists fault other, parse file source = .error fault ∧
        parse otherFile otherSource = .error other ∧
        SameFault tokens others file otherFile fault other := by
  rcases Parser.awaits_of_tokenize listed with ⟨first, opened, awaits⟩
  rcases Parser.awaits_of_tokenize otherListed with ⟨second, otherOpened, otherAwaits⟩
  have faced : Parser.Faced tokens others first second :=
    ⟨resembles, awaits, otherAwaits, fun _ => worded_of_tokenize listed,
      fun _ => worded_of_tokenize otherListed⟩
  have depth : first.depth = second.depth := by
    rw [(Parser.ofSource_eq_ok_iff.mp opened).1, (Parser.ofSource_eq_ok_iff.mp otherOpened).1]
  have start : Parser.Facing first second 0 first second :=
    ⟨⟨[], .stay first, rfl⟩, ⟨[], .stay second, rfl⟩, depth⟩
  have compared := parseWithin_alike (Parser.comparison_lawful faced) (some Parser.nestingLimit)
    opened otherOpened ⟨0, start⟩
  simp only [Parser.comparison] at compared
  rw [Parser.file_of_ofSource opened, Parser.file_of_ofSource otherOpened] at compared
  exact compared

theorem parse_resembles_call :
    tokenize "shell" "f()" =
      .ok ([⟨.identifier, "f", ⟨0, 1⟩⟩, ⟨.openParen, "(", ⟨1, 2⟩⟩, ⟨.closeParen, ")", ⟨2, 3⟩⟩] ++
        [⟨.endOfInput, "EOF", ⟨3, 3⟩⟩]) ∧
    tokenize "shell" "\nF( )" =
      .ok ([⟨.identifier, "F", ⟨1, 2⟩⟩, ⟨.openParen, "(", ⟨2, 3⟩⟩, ⟨.closeParen, ")", ⟨4, 5⟩⟩] ++
        [⟨.endOfInput, "EOF", ⟨5, 5⟩⟩]) ∧
    ((exists tree, parse "shell" "f()" = .ok tree ∧ parse "shell" "\nF( )" = .ok tree) ∨
      exists fault other, parse "shell" "f()" = .error fault ∧
        parse "shell" "\nF( )" = .error other ∧
        SameFault [⟨.identifier, "f", ⟨0, 1⟩⟩, ⟨.openParen, "(", ⟨1, 2⟩⟩,
            ⟨.closeParen, ")", ⟨2, 3⟩⟩, ⟨.endOfInput, "EOF", ⟨3, 3⟩⟩]
          [⟨.identifier, "F", ⟨1, 2⟩⟩, ⟨.openParen, "(", ⟨2, 3⟩⟩,
            ⟨.closeParen, ")", ⟨4, 5⟩⟩, ⟨.endOfInput, "EOF", ⟨5, 5⟩⟩]
          "shell" "shell" fault other) := by
  have listed : tokenize "shell" "f()" =
      .ok ([⟨.identifier, "f", ⟨0, 1⟩⟩, ⟨.openParen, "(", ⟨1, 2⟩⟩, ⟨.closeParen, ")", ⟨2, 3⟩⟩] ++
        [⟨.endOfInput, "EOF", ⟨3, 3⟩⟩]) := by
    refine tokenize_eq_ok_iff.mpr ⟨⟨⟨"shell", 1, ['(', ')']⟩, ⟨.identifier, "f", ⟨0, 1⟩⟩, 0⟩,
      ⟨⟨"shell", 3, []⟩, ⟨.endOfInput, "EOF", ⟨3, 3⟩⟩, 0⟩, by cbv, ?_, rfl, rfl⟩
    repeat refine .onward (by decide) (by cbv) ?_
    exact .stay _
  have otherListed : tokenize "shell" "\nF( )" =
      .ok ([⟨.identifier, "F", ⟨1, 2⟩⟩, ⟨.openParen, "(", ⟨2, 3⟩⟩, ⟨.closeParen, ")", ⟨4, 5⟩⟩] ++
        [⟨.endOfInput, "EOF", ⟨5, 5⟩⟩]) := by
    refine tokenize_eq_ok_iff.mpr ⟨⟨⟨"shell", 2, ['(', ' ', ')']⟩, ⟨.identifier, "F", ⟨1, 2⟩⟩, 0⟩,
      ⟨⟨"shell", 5, []⟩, ⟨.endOfInput, "EOF", ⟨5, 5⟩⟩, 0⟩, by cbv, ?_, rfl, rfl⟩
    repeat refine .onward (by decide) (by cbv) ?_
    exact .stay _
  refine ⟨listed, otherListed, parse_resembles listed otherListed ⟨rfl, ?_, ?_⟩⟩
  · intro index token other own opposite
    rcases index with _ | _ | _ | _ | index <;> cases own <;> cases opposite
    · exact ⟨rfl, fun _ => by decide, fun unnamed => absurd rfl unnamed⟩
    · exact ⟨rfl, fun named => absurd named (by decide), fun _ => rfl⟩
    · exact ⟨rfl, fun named => absurd named (by decide), fun _ => rfl⟩
    · exact ⟨rfl, fun named => absurd named (by decide), fun _ => rfl⟩
  · intro index name paren otherName otherParen own ownNext other otherNext isName isParen
    rcases index with _ | _ | _ | _ | index <;> cases own <;> cases isName
    cases ownNext
    cases other
    cases otherNext
    decide

end SignalScript
