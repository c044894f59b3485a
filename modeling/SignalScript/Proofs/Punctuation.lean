import SignalScript.Proofs.Spelling

namespace SignalScript

/-!
Separators and delimiters among tokens.

Whether a delimiter is still open can be seen without any grammar.  Tokens are gone through from
left to right, with the open delimiters on a stack: an opening delimiter is put on top, and a
closing one takes its partner off.  What is left on the stack in the end was never closed.

A spelling closes whatever it opens and touches nothing that was open before.
-/

namespace Kind

/-- The kinds that separate siblings. -/
def isSeparator : Kind -> Bool
  | .semicolon | .dot | .comma => true
  | _ => false

/-- The closing delimiter that belongs to an opening one. -/
def partner? : Kind -> Option Kind
  | .openParen => some .closeParen
  | .openBracket => some .closeBracket
  | _ => none

/-- The kinds that open a form. -/
def opens (kind : Kind) : Bool :=
  kind.partner?.isSome

/-- The kinds that close a form. -/
def closes : Kind -> Bool
  | .closeParen | .closeBracket => true
  | _ => false

theorem closes_of_partner? {opened closed : Kind} (partners : opened.partner? = some closed) :
    closed.closes = true := by
  cases opened <;> cases partners <;> rfl

theorem opens_of_partner? {opened closed : Kind} (partners : opened.partner? = some closed) :
    opened.opens = true := by
  rw [opens, partners]
  rfl

theorem opens_of_closes {kind : Kind} (closes : kind.closes = true) : kind.opens = false := by
  cases kind <;> first | rfl | cases closes

theorem startsExpression_of_closes {kind : Kind} (closes : kind.closes = true) :
    kind.startsExpression = false := by
  cases kind <;> first | rfl | cases closes

theorem ne_endOfInput_of_opens {kind : Kind} (opens : kind.opens = true) :
    kind ≠ .endOfInput := by
  rintro rfl
  cases opens

/-- The kinds that leave open delimiters alone. -/
def isPlain (kind : Kind) : Bool :=
  !kind.opens && !kind.closes

theorem isPlain_iff {kind : Kind} :
    kind.isPlain = true <-> kind.opens = false ∧ kind.closes = false := by
  rw [isPlain, Bool.and_eq_true, Bool.not_eq_true', Bool.not_eq_true']

end Kind

theorem Tag.isPlain_sign {tag : Tag} {role : Role} (joins : tag.role? = some role) :
    tag.sign.isPlain = true := by
  cases tag <;> cases joins <;> rfl

theorem Tag.closes_sign {tag : Tag} {role : Role} (joins : tag.role? = some role) :
    tag.sign.closes = false :=
  (Kind.isPlain_iff.mp (isPlain_sign joins)).2

/-- Tokens that do nothing but close. -/
def AllClose (tokens : List Token) : Prop :=
  forall token, token ∈ tokens -> token.kind.closes = true

/-! ## Open delimiters -/

/-- What is open behind a token, if `pending` is open in front of it.  A closing delimiter
closes the innermost one, unless the two are no partners. -/
def Token.leaves (pending : List Token) (token : Token) : List Token :=
  if token.kind.opens then
    token :: pending
  else
    match pending with
    | [] => []
    | opened :: outer => if opened.kind.partner? = some token.kind then outer else pending

/-- The delimiters that are open behind tokens, innermost first, if `pending` is open in front
of them. -/
def leftOpen (pending tokens : List Token) : List Token :=
  tokens.foldl Token.leaves pending

section
variable {pending : List Token}

@[simp] theorem leftOpen_nil : leftOpen pending [] = pending := rfl

@[simp] theorem leftOpen_cons (token : Token) (tokens : List Token) :
    leftOpen pending (token :: tokens) = leftOpen (token.leaves pending) tokens := rfl

@[simp] theorem leftOpen_append (first second : List Token) :
    leftOpen pending (first ++ second) = leftOpen (leftOpen pending first) second :=
  List.foldl_append

namespace Token

theorem leaves_of_opens {token : Token} (opens : token.kind.opens = true) :
    token.leaves pending = token :: pending :=
  if_pos opens

theorem leaves_of_partner {opened closed : Token}
    (partners : opened.kind.partner? = some closed.kind) :
    closed.leaves (opened :: pending) = pending := by
  have closes := Kind.opens_of_closes (Kind.closes_of_partner? partners)
  rw [leaves, closes, if_neg Bool.false_ne_true, if_pos partners]

theorem leaves_of_plain {token : Token} (plain : token.kind.isPlain = true) :
    token.leaves pending = pending := by
  rcases Kind.isPlain_iff.mp plain with ⟨opens, closes⟩
  cases pending with
  | nil => rw [leaves, opens, if_neg Bool.false_ne_true]
  | cons opened outer =>
      rw [leaves, opens, if_neg Bool.false_ne_true]
      refine if_neg fun partners => ?_
      rw [Kind.closes_of_partner? partners] at closes
      cases closes

theorem leaves_of_kind {token : Token} {kind : Kind} (same : token.kind = kind)
    (plain : kind.isPlain = true) : token.leaves pending = pending :=
  leaves_of_plain (same ▸ plain)

end Token

/-- Delimiters around tokens that leave nothing open leave nothing open either. -/
theorem leftOpen_between {opened closed : Token} {tokens : List Token}
    (partners : opened.kind.partner? = some closed.kind)
    (inner : forall pending, leftOpen pending tokens = pending) :
    leftOpen pending (opened :: tokens ++ [closed]) = pending := by
  rw [List.cons_append, leftOpen_cons, leftOpen_append, inner,
    Token.leaves_of_opens (Kind.opens_of_partner? partners)]
  exact Token.leaves_of_partner partners

end

theorem Sibling.leftOpen_spread {later : List Sibling} {kind : Kind} (plain : kind.isPlain = true)
    (signs : forall sibling, sibling ∈ later -> sibling.separator.kind = kind)
    (each : forall sibling, sibling ∈ later -> forall pending,
      leftOpen pending sibling.tokens = pending) (pending : List Token) :
    leftOpen pending (spread later) = pending := by
  induction later with
  | nil => rfl
  | cons sibling later inductionHypothesis =>
      have rest := inductionHypothesis
        (fun other member => signs other (List.mem_cons_of_mem _ member))
        (fun other member => each other (List.mem_cons_of_mem _ member))
      rw [spread_cons, List.cons_append, leftOpen_cons, leftOpen_append,
        Token.leaves_of_kind (signs sibling List.mem_cons_self) plain,
        each sibling List.mem_cons_self, rest]

/-- A spelling leaves open what was open in front of it and nothing else. -/
theorem Spells.leftOpen_eq {tree : Tree} {levels : Nat} {tokens : List Token}
    (spelled : Spells tree levels tokens) (pending : List Token) :
    leftOpen pending tokens = pending := by
  induction spelled generalizing pending with
  | name token isName => exact Token.leaves_of_kind isName rfl
  | int token isInt => exact Token.leaves_of_kind isInt rfl
  | float token isFloat => exact Token.leaves_of_kind isFloat rfl
  | string token isString => exact Token.leaves_of_kind isString rfl
  | importing marker path isMarker isString =>
      rw [leftOpen_cons, Token.leaves_of_kind isMarker rfl]
      exact Token.leaves_of_kind isString rfl
  | declaring marker name isMarker isName =>
      rw [leftOpen_cons, Token.leaves_of_kind isMarker rfl]
      exact Token.leaves_of_kind isName rfl
  | group opened closed isOpened isClosed _ inductionHypothesis =>
      exact leftOpen_between (by rw [isOpened, isClosed]; rfl) inductionHypothesis
  | emptyCall name opened closed isName isOpened isClosed =>
      rw [leftOpen_cons, Token.leaves_of_kind isName rfl]
      exact leftOpen_between (by rw [isOpened, isClosed]; rfl) fun _ => leftOpen_nil
  | call name opened closed isName isOpened isClosed _ _ inductionHypothesis =>
      rw [List.cons_append, leftOpen_cons, Token.leaves_of_kind isName rfl]
      exact leftOpen_between (by rw [isOpened, isClosed]; rfl) inductionHypothesis
  | emptyBracket opened closed isOpened isClosed =>
      exact leftOpen_between (by rw [isOpened, isClosed]; rfl) fun _ => leftOpen_nil
  | bracket opened closed isOpened isClosed _ inductionHypothesis =>
      exact leftOpen_between (by rw [isOpened, isClosed]; rfl) inductionHypothesis
  | pair sign joins pairs isSign _ _ leftHypothesis rightHypothesis =>
      rw [leftOpen_append, leftOpen_cons, leftHypothesis,
        Token.leaves_of_kind isSign (Tag.isPlain_sign joins), rightHypothesis]
  | siblings later trailing sequence _ signs _ _ trailed firstHypothesis laterHypothesis =>
      have plain := Tag.isPlain_sign sequence
      rw [leftOpen_append, leftOpen_append, firstHypothesis,
        Sibling.leftOpen_spread plain signs laterHypothesis]
      cases trailing with
      | none => rfl
      | some separator => exact Token.leaves_of_kind (trailed separator rfl).1 plain

/-- Of the delimiters that the tokens leave open, this one is the last: whatever is opened
behind it is closed again. -/
structure LastOpen (tokens : List Token) (opened : Token) (inner : List Token) : Prop where
  behind : exists before, tokens = before ++ opened :: inner
  opens : opened.kind.opens = true
  matched : forall pending, leftOpen pending inner = pending

namespace LastOpen

variable {tokens inner : List Token} {opened : Token}

theorem head?_leftOpen (last : LastOpen tokens opened inner) (pending : List Token) :
    (leftOpen pending tokens).head? = some opened := by
  rcases last.behind with ⟨before, rfl⟩
  rw [leftOpen_append, leftOpen_cons, Token.leaves_of_opens last.opens, last.matched]
  rfl

theorem append (last : LastOpen tokens opened inner) (front : List Token) :
    LastOpen (front ++ tokens) opened inner := by
  rcases last.behind with ⟨before, rfl⟩
  exact ⟨⟨front ++ before, (List.append_assoc _ _ _).symm⟩, last.opens, last.matched⟩

end LastOpen
end SignalScript
