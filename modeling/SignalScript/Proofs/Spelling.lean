import SignalScript.Proofs.Shape

namespace SignalScript

/-!
Spellings: the token lists that stand for a tree.

A spelling has every token of the tree in order, delimiters and operators
included.  A tree can have several spellings, since the last separator of a
sequence may be left out and a form in parentheses with one name can be a group
or a call.  How deeply a spelling is nested therefore belongs to the spelling and
not to the tree.

Nesting is counted in levels.  A left operand stands on the level of its form,
and everything to the right of a sign, and everything between delimiters, stands
one level below.
-/

/-- A child of a sequence behind the first one, with the separator in front of
it. -/
structure Sibling where
  separator : Token
  tree : Tree
  levels : Nat
  tokens : List Token

namespace Sibling

/-- The tokens of siblings in a row, separators included. -/
def spread (siblings : List Sibling) : List Token :=
  siblings.flatMap fun sibling => sibling.separator :: sibling.tokens

/-- The levels of a sequence whose first child needs `first` of them. -/
def deepest (first : Nat) (siblings : List Sibling) : Nat :=
  siblings.foldr (fun sibling most => max (sibling.levels + 1) most) first

@[simp] theorem spread_nil : spread [] = [] := rfl

@[simp] theorem spread_cons (sibling : Sibling) (later : List Sibling) :
    spread (sibling :: later) = sibling.separator :: sibling.tokens ++ spread later := rfl

@[simp] theorem spread_concat (earlier : List Sibling) (sibling : Sibling) :
    spread (earlier ++ [sibling]) = spread earlier ++ sibling.separator :: sibling.tokens := by
  simp [spread]

theorem le_deepest (first : Nat) (siblings : List Sibling) : first ≤ deepest first siblings := by
  induction siblings with
  | nil => exact Nat.le_refl _
  | cons sibling later inductionHypothesis =>
      exact Nat.le_trans inductionHypothesis (Nat.le_max_right _ _)

end Sibling

/-- The tokens spell the tree, and reading them takes the given number of
levels. -/
inductive Spells : Tree -> Nat -> List Token -> Prop
  | name (token : Token) :
      token.kind = .identifier ->
      Spells (.ofName token.value) 1 [token]
  | int (token : Token) :
      token.kind = .int ->
      Number.ofDigits token.value.toList ≤ Parser.greatestInt ->
      Spells (.int (Number.ofDigits token.value.toList)) 1 [token]
  | float (token : Token) :
      token.kind = .float ->
      Spells (.float (Number.Double.ofLiteral token.value.toList)) 1 [token]
  | string (token : Token) :
      token.kind = .string ->
      Spells (.string token.value) 1 [token]
  | importing (marker path : Token) :
      marker.kind = .atSign -> path.kind = .string ->
      Spells (.form .importing [.string path.value]) 1 [marker, path]
  | declaring (marker name : Token) :
      marker.kind = .star -> name.kind = .identifier ->
      Spells (.form .declaring [.ofName name.value]) 1 [marker, name]
  | group {content : Tree} {levels : Nat} {tokens : List Token} (opened closed : Token) :
      opened.kind = .openParen -> closed.kind = .closeParen ->
      Spells content levels tokens ->
      Spells (.form .paren [content]) (levels + 1) (opened :: tokens ++ [closed])
  | emptyCall (name opened closed : Token) :
      name.kind = .identifier -> opened.kind = .openParen -> closed.kind = .closeParen ->
      opened.span.start = name.span.stop ->
      Spells (.form .paren [.ofName name.value]) 1 [name, opened, closed]
  | call {content : Tree} {levels : Nat} {tokens : List Token} (name opened closed : Token) :
      name.kind = .identifier -> opened.kind = .openParen -> closed.kind = .closeParen ->
      opened.span.start = name.span.stop ->
      Spells content levels tokens ->
      Spells (.form .paren [.ofName name.value, content]) (levels + 1)
        (name :: opened :: tokens ++ [closed])
  | emptyBracket (opened closed : Token) :
      opened.kind = .openBracket -> closed.kind = .closeBracket ->
      Spells (.form .bracket []) 1 [opened, closed]
  | bracket {content : Tree} {levels : Nat} {tokens : List Token} (opened closed : Token) :
      opened.kind = .openBracket -> closed.kind = .closeBracket ->
      Spells content levels tokens ->
      Spells (.form .bracket [content]) (levels + 1) (opened :: tokens ++ [closed])
  | pair {tag : Tag} {role : Role} {left right : Tree} {leftLevels rightLevels : Nat}
      {leftTokens rightTokens : List Token} (sign : Token) :
      tag.role? = some role -> role ≠ .sequence -> sign.kind = tag.sign ->
      Spells left leftLevels leftTokens -> Spells right rightLevels rightTokens ->
      Spells (.form tag [left, right]) (max leftLevels (rightLevels + 1))
        (leftTokens ++ sign :: rightTokens)
  /-- A separator stands between any two children.  One more may stand behind the
  last, and must if there is only one child, but a period or a comma never stands
  behind a child on whose right edge a conditional lies. -/
  | siblings {tag : Tag} {first : Tree} {levels : Nat} {tokens : List Token}
      (later : List Sibling) (trailing : Option Token) :
      tag.role? = some .sequence ->
      Spells first levels tokens ->
      (forall sibling, sibling ∈ later -> sibling.separator.kind = tag.sign) ->
      (forall sibling, sibling ∈ later ->
        Spells sibling.tree sibling.levels sibling.tokens) ->
      (trailing = none -> later ≠ []) ->
      (forall separator, separator ∈ trailing -> separator.kind = tag.sign ∧
        (tag ≠ .semicolon ->
          Tree.lastEndsOpen (first :: later.map Sibling.tree) = false)) ->
      Spells (.form tag (first :: later.map Sibling.tree)) (Sibling.deepest levels later)
        (tokens ++ Sibling.spread later ++ trailing.toList)

namespace Spells

/-- Every spelling takes a level. -/
theorem levels_pos {tree : Tree} {levels : Nat} {tokens : List Token}
    (spelled : Spells tree levels tokens) : 0 < levels := by
  induction spelled with
  | name => decide
  | int => decide
  | float => decide
  | string => decide
  | importing => decide
  | declaring => decide
  | group => omega
  | emptyCall => decide
  | call => omega
  | emptyBracket => decide
  | bracket => omega
  | pair => omega
  | @siblings tag first levels tokens later trailing sequence spelled separators laterSpelled
      some trailed positive =>
      exact Nat.lt_of_lt_of_le positive (Sibling.le_deepest levels later)

/-- Every spelling starts with a token that can start an expression. -/
theorem starts {tree : Tree} {levels : Nat} {tokens : List Token}
    (spelled : Spells tree levels tokens) :
    exists first rest, tokens = first :: rest ∧ first.kind.startsExpression = true := by
  induction spelled with
  | name token isName => exact ⟨token, [], rfl, by rw [isName]; rfl⟩
  | int token isInt => exact ⟨token, [], rfl, by rw [isInt]; rfl⟩
  | float token isFloat => exact ⟨token, [], rfl, by rw [isFloat]; rfl⟩
  | string token isString => exact ⟨token, [], rfl, by rw [isString]; rfl⟩
  | importing marker path isMarker => exact ⟨marker, [path], rfl, by rw [isMarker]; rfl⟩
  | declaring marker name isMarker => exact ⟨marker, [name], rfl, by rw [isMarker]; rfl⟩
  | group opened closed isOpened => exact ⟨opened, _, rfl, by rw [isOpened]; rfl⟩
  | emptyCall name opened closed isName => exact ⟨name, _, rfl, by rw [isName]; rfl⟩
  | call name opened closed isName => exact ⟨name, _, rfl, by rw [isName]; rfl⟩
  | emptyBracket opened closed isOpened => exact ⟨opened, _, rfl, by rw [isOpened]; rfl⟩
  | bracket opened closed isOpened => exact ⟨opened, _, rfl, by rw [isOpened]; rfl⟩
  | pair sign joins pairs isSign left right leftStarts rightStarts =>
      rcases leftStarts with ⟨first, rest, same, starts⟩
      exact ⟨first, _, by rw [same]; rfl, starts⟩
  | siblings later trailing sequence first separators laterSpelled some trailed firstStarts =>
      rcases firstStarts with ⟨token, rest, same, starts⟩
      exact ⟨token, _, by rw [same]; rfl, starts⟩

end Spells
end SignalScript
