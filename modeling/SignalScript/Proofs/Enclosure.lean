import SignalScript.Proofs.Lines
import SignalScript.Proofs.Nesting

namespace SignalScript

/-!
Programs between delimiters.

A program keeps its tree when it is put between delimiters on a line that ends behind it.
Its tokens are those it had, moved by what stands in front, so they spell what they spelled
before: whether a parenthesis makes a call depends on the distance between two tokens and
not on where they stand.  With an opening token in front and a closing one behind, they spell
the enclosing form, one level above.  Nothing can be read from them but that form, and only
the limit on nesting can prevent it from being read.
-/

/-! ## Spellings farther back -/

theorem Token.adjacent_moved {token other : Token} (distance : Nat)
    (adjacent : token.span.start = other.span.stop) :
    (token.moved distance).span.start = (other.moved distance).span.stop :=
  congrArg (· + UInt32.ofNat distance) adjacent

/-- The same sibling farther back in its source. -/
def Sibling.moved (distance : Nat) (sibling : Sibling) : Sibling where
  separator := sibling.separator.moved distance
  tree := sibling.tree
  levels := sibling.levels
  tokens := sibling.tokens.map (Token.moved distance)

namespace Sibling

theorem spread_moved (distance : Nat) (siblings : List Sibling) :
    spread (siblings.map (moved distance)) = (spread siblings).map (Token.moved distance) := by
  induction siblings with
  | nil => rfl
  | cons sibling later inductionHypothesis =>
      rw [List.map_cons, spread_cons, spread_cons, inductionHypothesis, List.map_append]
      rfl

theorem deepest_moved (distance first : Nat) (siblings : List Sibling) :
    deepest first (siblings.map (moved distance)) = deepest first siblings := by
  rw [deepest, List.foldr_map]
  rfl

theorem trees_moved (distance : Nat) (siblings : List Sibling) :
    (siblings.map (moved distance)).map tree = siblings.map tree := by
  rw [List.map_map]
  rfl

end Sibling

/-- Tokens spell the same tree wherever they stand. -/
theorem Spells.moved {tree : Tree} {levels : Nat} {tokens : List Token} (distance : Nat)
    (spelled : Spells tree levels tokens) :
    Spells tree levels (tokens.map (Token.moved distance)) := by
  induction spelled with
  | name token isName => exact .name (token.moved distance) isName
  | int token isInt inRange => exact .int (token.moved distance) isInt inRange
  | float token isFloat => exact .float (token.moved distance) isFloat
  | string token isString => exact .string (token.moved distance) isString
  | importing marker path isMarker isString =>
      exact .importing (marker.moved distance) (path.moved distance) isMarker isString
  | declaring marker name isMarker isName =>
      exact .declaring (marker.moved distance) (name.moved distance) isMarker isName
  | group opened closed isOpened isClosed _ inductionHypothesis =>
      rw [List.map_append, List.map_cons]
      exact .group (opened.moved distance) (closed.moved distance) isOpened isClosed
        inductionHypothesis
  | emptyCall name opened closed isName isOpened isClosed adjacent =>
      exact .emptyCall (name.moved distance) (opened.moved distance) (closed.moved distance)
        isName isOpened isClosed (Token.adjacent_moved distance adjacent)
  | call name opened closed isName isOpened isClosed adjacent _ inductionHypothesis =>
      rw [List.map_append, List.map_cons, List.map_cons]
      exact .call (name.moved distance) (opened.moved distance) (closed.moved distance)
        isName isOpened isClosed (Token.adjacent_moved distance adjacent) inductionHypothesis
  | emptyBracket opened closed isOpened isClosed =>
      exact .emptyBracket (opened.moved distance) (closed.moved distance) isOpened isClosed
  | bracket opened closed isOpened isClosed _ inductionHypothesis =>
      rw [List.map_append, List.map_cons]
      exact .bracket (opened.moved distance) (closed.moved distance) isOpened isClosed
        inductionHypothesis
  | pair sign joins pairs isSign _ _ leftHypothesis rightHypothesis =>
      rw [List.map_append, List.map_cons]
      exact .pair (sign.moved distance) joins pairs isSign leftHypothesis rightHypothesis
  | @siblings tag first levels tokens later trailing sequence _ signs _ more trailed
      firstHypothesis laterHypothesis =>
      rw [List.map_append, List.map_append, ← Sibling.spread_moved,
        ← Sibling.deepest_moved distance, ← Sibling.trees_moved distance, ← Option.toList_map]
      refine .siblings (later.map (Sibling.moved distance)) (trailing.map (Token.moved distance))
        sequence firstHypothesis ?_ ?_ ?_ ?_
      · intro sibling member
        rcases List.mem_map.mp member with ⟨original, listed, rfl⟩
        exact signs original listed
      · intro sibling member
        rcases List.mem_map.mp member with ⟨original, listed, rfl⟩
        exact laterHypothesis original listed
      · intro none
        rw [Ne, List.map_eq_nil_iff]
        exact more (Option.map_eq_none_iff.mp none)
      · intro separator member
        rcases Option.map_eq_some_iff.mp member with ⟨original, listed, rfl⟩
        rw [Sibling.trees_moved]
        exact trailed original listed

/-! ## Delimiters and names in front -/

/-- The kinds that open or close a form. -/
def Kind.delimits : Kind -> Bool
  | .openParen | .closeParen | .openBracket | .closeBracket => true
  | _ => false

theorem Kind.size_of_delimits {kind : Kind} (delimits : kind.delimits = true) :
    Text.size kind.symbol.toList = 1 := by
  cases kind <;> cases delimits <;> rfl

namespace Lexeme

/-- A delimiter is a lexeme whatever follows it. -/
theorem first?_of_delimiter {kind : Kind} (delimits : kind.delimits = true) (text : List Char) :
    first? (kind.symbol.toList ++ text) = some (.fixed kind) ∧
      (fixed kind).width (kind.symbol.toList ++ text) = kind.symbol.toList.length := by
  cases kind <;> cases delimits <;> exact ⟨rfl, rfl⟩

/-- On the first 128 characters, what starts a word starts no blank and no comment. -/
theorem startsWord_of_lt : forall code, code < 128 -> startsWord (Char.ofNat code) = true ->
    Text.isBlank (Char.ofNat code) = false ∧ Char.ofNat code ≠ '/' := by
  decide +kernel

theorem not_blank_of_startsWord {c : Char} (starts : startsWord c = true) :
    Text.isBlank c = false ∧ c ≠ '/' := by
  have facts := startsWord_of_lt c.toNat
    (Text.toNat_lt_of_continuesWord (Text.continuesWord_of_startsWord starts))
  rw [Char.ofNat_toNat] at facts
  exact facts starts

/-- A word is a lexeme if what follows cannot continue it. -/
theorem first?_of_word {word text : List Char} (isWord : IsWord word)
    (ended : forall c, text.head? = some c -> continuesWord c = false) :
    first? (word ++ text) = some .word ∧ Lexeme.word.width (word ++ text) = word.length := by
  rcases isWord with ⟨_, c, rest, rfl, starts, continues⟩
  rcases not_blank_of_startsWord starts with ⟨blank, slash⟩
  have taken : Lexeme.word.width (c :: rest ++ text) = (c :: rest).length := by
    rw [List.cons_append, width, if_pos starts, run_exact continues ended, List.length_cons,
      Nat.add_comm]
  refine ⟨?_, taken⟩
  have noBlanks : ¬ 0 < blanks.width (c :: rest ++ text) := by
    rw [List.cons_append, blanks_pos_iff, blank]
    decide
  have noComment : comment.width (c :: rest ++ text) = 0 := by
    simp [width, slash]
  rw [first?, order, List.find?_cons_of_neg (by simpa using noBlanks),
    List.find?_cons_of_neg (by simpa using noComment), List.find?_cons_of_pos]
  rw [taken]
  simp

end Lexeme

namespace Scanner

/-- A text that starts with a lexeme yields the token of that lexeme. -/
theorem next_of_taken {scanner : Scanner} {lexeme : Lexeme} {kind : Kind} {taken text : List Char}
    (unread : scanner.rest = taken ++ text)
    (found : Lexeme.first? (taken ++ text) = some lexeme ∧
      lexeme.width (taken ++ text) = taken.length)
    (isKind : lexeme.kind? taken = some kind) :
    scanner.next =
      .done ⟨kind, String.ofList (lexeme.value taken),
          Span.ofOffset scanner.offset (Text.size taken)⟩
        ⟨scanner.file, scanner.offset + Text.size taken, text⟩ := by
  rcases found with ⟨found, width⟩
  rw [← unread] at found width
  have front : scanner.rest.take taken.length = taken := by
    rw [unread, List.take_left]
  have isToken : scanner.token? lexeme (lexeme.width scanner.rest) =
      some ⟨kind, String.ofList (lexeme.value taken),
        Span.ofOffset scanner.offset (Text.size taken)⟩ := by
    simp only [token?, width, front, isKind, Option.map_some]
  rw [next_of_token found isToken, skip, width, front, unread, List.drop_left]

theorem next_of_delimiter {scanner : Scanner} {kind : Kind} {text : List Char}
    (delimits : kind.delimits = true) (unread : scanner.rest = kind.symbol.toList ++ text) :
    scanner.next =
      .done ⟨kind, kind.symbol, Span.ofOffset scanner.offset 1⟩
        ⟨scanner.file, scanner.offset + 1, text⟩ := by
  have read := next_of_taken unread (Lexeme.first?_of_delimiter delimits text) rfl
  have value : (Lexeme.fixed kind).value kind.symbol.toList = kind.symbol.toList := rfl
  rw [Kind.size_of_delimits delimits, value, String.ofList_toList] at read
  exact read

theorem next_of_name {scanner : Scanner} {word text : List Char} (isWord : Lexeme.IsWord word)
    (ended : forall c, text.head? = some c -> Lexeme.continuesWord c = false)
    (unread : scanner.rest = word ++ text) :
    scanner.next =
      .done ⟨.identifier, String.ofList word, Span.ofOffset scanner.offset (Text.size word)⟩
        ⟨scanner.file, scanner.offset + Text.size word, text⟩ := by
  refine next_of_taken unread (Lexeme.first?_of_word isWord ended) ?_
  rw [Lexeme.kind?, if_neg isWord.1]

theorem scans_of_delimiter (file : String) (offset : Nat) {kind : Kind}
    (delimits : kind.delimits = true) (after : List Char) :
    Scans ⟨file, offset, kind.symbol.toList ++ after⟩
      [⟨kind, kind.symbol, Span.ofOffset offset 1⟩]
      ⟨file, offset + Text.size kind.symbol.toList, after⟩ := by
  rw [Kind.size_of_delimits delimits]
  refine .onward (next_of_delimiter delimits rfl) ?_ (.stay _)
  rintro rfl
  cases delimits

/-- A name with a parenthesis behind it, which starts where the name stops. -/
theorem scans_of_call (file : String) (offset : Nat) {word : List Char}
    (isWord : Lexeme.IsWord word) (after : List Char) :
    Scans ⟨file, offset, (word ++ Kind.openParen.symbol.toList) ++ after⟩
      [⟨.identifier, String.ofList word, Span.ofOffset offset (Text.size word)⟩,
        ⟨.openParen, Kind.openParen.symbol, Span.ofOffset (offset + Text.size word) 1⟩]
      ⟨file, offset + Text.size (word ++ Kind.openParen.symbol.toList), after⟩ := by
  rw [Text.size_append, ← Nat.add_assoc, List.append_assoc]
  have delimits : Kind.openParen.delimits = true := rfl
  have opened := scans_of_delimiter file (offset + Text.size word) delimits after
  have ended : forall c, (Kind.openParen.symbol.toList ++ after).head? = some c ->
      Lexeme.continuesWord c = false := by
    rintro c ⟨⟩
    decide
  exact .onward (next_of_name isWord ended rfl) nofun opened

end Scanner

/-! ## The tokens of an enclosed program -/

/-- Between delimiters a source has the tokens that it had, farther back. -/
theorem tokenize_enclosed {file source whole : String} {before : List Char} {close : Kind}
    {front tokens : List Token} {last : Token} (delimits : close.delimits = true)
    (listed : tokenize file source = .ok (tokens ++ [last]))
    (written : whole.toList = before ++ (source.toList ++ '\n' :: close.symbol.toList))
    (opens : forall after, Scanner.Scans ⟨file, 0, before ++ after⟩ front
      ⟨file, 0 + Text.size before, after⟩) :
    exists closed ended, closed.kind = close ∧
      tokenize file whole =
        .ok (front ++ (tokens.map (Token.moved (Text.size before)) ++ [closed]) ++ [ended]) := by
  rcases tokenize_eq_ok_iff_scans.mp listed with ⟨middle, final, scans, read, atEnd⟩
  have start : Scanner.ofSource file whole =
      ⟨file, 0, before ++ (source.toList ++ '\n' :: close.symbol.toList)⟩ := by
    rw [Scanner.ofSource, written]
  have inner := (scans.followedBy_line close.symbol.toList).moved (Text.size before)
  -- Where the source ended, the newline is passed and the closing delimiter is read.
  let line : Scanner := ⟨final.file, final.offset + 1, close.symbol.toList⟩
  let closed : Token := ⟨close, close.symbol, Span.ofOffset line.offset 1⟩
  let rest : Scanner := ⟨final.file, line.offset + 1, []⟩
  have readClosed : (middle.followedBy ('\n' :: close.symbol.toList)).next =
      .done closed rest := by
    rw [Scanner.next_followedBy_line _ read, if_pos atEnd,
      Scanner.next_of_line _ ((Scanner.yields_of_next read).last atEnd)]
    exact Scanner.next_of_delimiter delimits (List.append_nil _).symm
  have more : close ≠ .endOfInput := by
    rintro rfl
    cases delimits
  have readMoved := Scanner.next_moved (Text.size before) readClosed
  have nothing : (rest.moved (Text.size before)).rest = [] := rfl
  refine ⟨closed.moved (Text.size before), _, rfl, tokenize_eq_ok_iff_scans.mpr
    ⟨rest.moved (Text.size before), _, ?_, Scanner.next_of_nil nothing, rfl⟩⟩
  rw [start]
  exact (opens _).append (inner.append (.onward readMoved more (.stay _)))

/-! ## The tree of an enclosed program -/

/-- A text is accepted as an enclosing form of a program, unless the program leaves no room
for one more level. -/
structure Encloses (file source : String) (tree : Tree) (text : String) (form : Tree) : Prop where
  unlimited : parseWithin none file text = .ok form
  limited : parse file text = .ok form ∨
    exists position, parse file text = .error ⟨.tooDeep Parser.nestingLimit, position⟩
  /-- There is room exactly when the program itself takes less than all of the levels. -/
  room : parse file text = .ok form <->
    parseWithin (some (Parser.nestingLimit - 1)) file source = .ok tree

/-- A spelling is accepted under exactly those limits that leave room for its levels. -/
theorem parseWithin_iff_levels {file source : String} {tree : Tree} {levels bound : Nat}
    {tokens : List Token} {last : Token} (listed : tokenize file source = .ok (tokens ++ [last]))
    (spelled : Spells tree levels tokens) (arranged : tree.Everywhere Tree.Arranged) :
    parseWithin (some bound) file source = .ok tree <-> levels ≤ bound := by
  constructor
  · intro accepted
    by_cases room : Parser.Allows (some bound) 0 levels
    · rw [Parser.allows_some_iff, Nat.zero_add] at room
      exact room
    · rcases parseWithin_of_not_allows listed spelled arranged room with ⟨_, _, _, refused⟩
      cases accepted.symm.trans refused
  · intro room
    refine parseWithin_of_allows listed spelled arranged (Parser.allows_some_iff.mpr ?_)
    rw [Nat.zero_add]
    exact room

theorem encloses_of_spells {file source text : String} {tree form : Tree} {levels : Nat}
    {tokens enclosing : List Token} {last ended : Token}
    (listed : tokenize file source = .ok (tokens ++ [last]))
    (spelled : Spells tree levels tokens) (arranged : tree.Everywhere Tree.Arranged)
    (listedForm : tokenize file text = .ok (enclosing ++ [ended]))
    (spelledForm : Spells form (levels + 1) enclosing)
    (arrangedForm : form.Everywhere Tree.Arranged) : Encloses file source tree text form where
  unlimited := parseWithin_of_allows listedForm spelledForm arrangedForm Parser.allows_none
  limited := by
    by_cases room : Parser.Allows (some Parser.nestingLimit) 0 (levels + 1)
    · exact Or.inl (parseWithin_of_allows listedForm spelledForm arrangedForm room)
    · rcases parseWithin_of_not_allows listedForm spelledForm arrangedForm room with
        ⟨bound, position, same, refused⟩
      cases same
      exact Or.inr ⟨position, refused⟩
  room := by
    rw [parse, parseWithin_iff_levels listedForm spelledForm arrangedForm,
      parseWithin_iff_levels listed spelled arranged, Parser.nestingLimit]
    omega

theorem toList_between (front source back : String) :
    (front ++ source ++ back).toList = front.toList ++ (source.toList ++ back.toList) := by
  rw [String.toList_append, String.toList_append, List.append_assoc]

/-- A program between delimiters, with or without a name in front, is read as that program
in the enclosing form, as far as the limit on nesting allows. -/
theorem enclosure_keeps_tree {file source word : String} {tree : Tree}
    (accepted : parse file source = .ok tree) (isWord : Lexeme.IsWord word.toList) :
    Encloses file source tree ("(" ++ source ++ "\n)") (.form .paren [tree]) ∧
    Encloses file source tree ("[" ++ source ++ "\n]") (.form .bracket [tree]) ∧
    Encloses file source tree (word ++ "(" ++ source ++ "\n)")
      (.form .paren [.ofName word, tree]) := by
  rcases spelled_of_parseWithin accepted with
    ⟨shaped, levels, tokens, last, listed, _, spelled⟩
  have arranged := (Tree.shaped_iff.mp shaped).1
  refine ⟨?_, ?_, ?_⟩
  · have written : ("(" ++ source ++ "\n)").toList = Kind.openParen.symbol.toList ++
        (source.toList ++ '\n' :: Kind.closeParen.symbol.toList) :=
      toList_between "(" source "\n)"
    rcases tokenize_enclosed rfl listed written (Scanner.scans_of_delimiter file 0 rfl) with
      ⟨closed, ended, isClosed, listedForm⟩
    exact encloses_of_spells listed spelled arranged listedForm
      (.group _ closed rfl isClosed (spelled.moved _))
      (Tree.everywhere_single (Or.inl ⟨tree, rfl⟩) arranged)
  · have written : ("[" ++ source ++ "\n]").toList = Kind.openBracket.symbol.toList ++
        (source.toList ++ '\n' :: Kind.closeBracket.symbol.toList) :=
      toList_between "[" source "\n]"
    rcases tokenize_enclosed rfl listed written (Scanner.scans_of_delimiter file 0 rfl) with
      ⟨closed, ended, isClosed, listedForm⟩
    exact encloses_of_spells listed spelled arranged listedForm
      (.bracket _ closed rfl isClosed (spelled.moved _))
      (Tree.everywhere_single (Nat.le_refl 1) arranged)
  · have written : (word ++ "(" ++ source ++ "\n)").toList =
        (word.toList ++ Kind.openParen.symbol.toList) ++
          (source.toList ++ '\n' :: Kind.closeParen.symbol.toList) := by
      rw [toList_between, String.toList_append]
      rfl
    rcases tokenize_enclosed rfl listed written (Scanner.scans_of_call file 0 isWord) with
      ⟨closed, ended, isClosed, listedForm⟩
    rw [String.ofList_toList] at listedForm
    let name : Token := ⟨.identifier, word, Span.ofOffset 0 (Text.size word.toList)⟩
    let opened : Token :=
      ⟨.openParen, Kind.openParen.symbol, Span.ofOffset (0 + Text.size word.toList) 1⟩
    have spelledForm := Spells.call name opened closed rfl rfl isClosed rfl
      (spelled.moved (Text.size (word.toList ++ Kind.openParen.symbol.toList)))
    have atom : (Tree.ofName word).Everywhere Tree.Arranged := Tree.arranged_of_isAtom rfl
    exact encloses_of_spells listed spelled arranged listedForm spelledForm
      (Tree.everywhere_pair (Or.inr ⟨_, tree, rfl⟩) atom arranged)

theorem enclosure_keeps_tree_comment :
    parse "shell" "A ? b. c; d,// e" =
      .ok (.form .semicolon [.form .question [.ident "a", .form .period [.ident "b", .ident "c"]],
        .form .comma [.ident "d"]]) ∧
    Lexeme.IsWord "F1".toList ∧
    Encloses "shell" "A ? b. c; d,// e"
      (.form .semicolon [.form .question [.ident "a", .form .period [.ident "b", .ident "c"]],
        .form .comma [.ident "d"]])
      ("F1" ++ "(" ++ "A ? b. c; d,// e" ++ "\n)")
      (.form .paren [.ident "f1", .form .semicolon
        [.form .question [.ident "a", .form .period [.ident "b", .ident "c"]],
          .form .comma [.ident "d"]]]) := by
  have accepted : parse "shell" "A ? b. c; d,// e" =
      .ok (.form .semicolon [.form .question [.ident "a", .form .period [.ident "b", .ident "c"]],
        .form .comma [.ident "d"]]) := by
    cbv
  have isWord : Lexeme.IsWord "F1".toList := by
    refine ⟨by decide, 'F', ['1'], rfl, by decide, ?_⟩
    intro c member
    rw [List.mem_singleton.mp member]
    decide
  have lowered : Tree.ofName "F1" = .ident "f1" := by
    cbv
  have enclosed := (enclosure_keeps_tree accepted isWord).2.2
  rw [lowered] at enclosed
  exact ⟨accepted, isWord, enclosed⟩

end SignalScript
