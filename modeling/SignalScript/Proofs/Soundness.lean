import SignalScript.Proofs.Replies
import SignalScript.Proofs.Wording

namespace SignalScript
namespace Parser

/-!
What a successful parse has read.

Every success of the expression parser leaves behind the trail of a spelling of
its tree.  The tree is arranged, it is tighter than the power that was asked for,
and the token held afterwards may stand behind it.  The last fact is what the
loops live on: it says of every left operand that the next operator fits.

The argument follows the recursion of the parser.  Each form is taken apart under
the assumption that nested expressions, which start at lighter states, have
already been read as stated.  The limit on nesting plays no part in it.
-/

/-- The tokens taken between two states spell an arranged tree. -/
structure Covers (first : Parser) (tree : Tree) (last : Parser) : Prop where
  spelled : exists levels tokens, Spells tree levels tokens ∧ Trail first tokens last
  arranged : tree.Everywhere Tree.Arranged

/-- Between two states an expression at a power has been read to its end. -/
structure Reads (first : Parser) (power : Power) (tree : Tree) (last : Parser) : Prop
    extends Covers first tree last where
  tight : power.rank < tree.band
  stands : tree.StandsBefore last.ahead.kind
  stops : last.ahead.kind.power.rank ≤ power.rank

/-- All expressions that start at states of bounded weight are read as stated. -/
def SoundWithin (limit : Option Nat) (bound : Nat) : Prop :=
  forall (first : Parser) (power : Power) (tree : Tree) (last : Parser),
    first.weight ≤ bound -> first.read limit power = .done tree last ->
      Reads first power tree last

theorem Covers.weight_le {first last : Parser} {tree : Tree} (covered : Covers first tree last) :
    last.weight ≤ first.weight := by
  rcases covered.spelled with ⟨_, _, _, trail⟩
  exact trail.weight_le

theorem Covers.unread_le {first last : Parser} {tree : Tree} (covered : Covers first tree last) :
    last.unread ≤ first.unread := by
  rcases covered.spelled with ⟨_, _, _, trail⟩
  exact trail.unread_le

/-- What was read one level below is read from the level itself. -/
theorem Reads.leave {first last : Parser} {power : Power} {tree : Tree}
    (reads : Reads first.deeper power tree last) : Reads first power tree (last.leave 1) := by
  rcases reads.spelled with ⟨levels, tokens, spelled, trail⟩
  have depth : last.depth - 1 = first.depth := by
    rw [trail.depth_eq]
    rfl
  have outer : Trail first tokens (last.leave 1) := by
    rw [leave_eq_atDepth, depth]
    exact trail.atDepth first.depth
  exact ⟨⟨⟨levels, tokens, spelled, outer⟩, reads.arranged⟩, reads.tight, reads.stands,
    reads.stops⟩

section
variable {limit : Option Nat} {bound : Nat}

/-! ## Heads -/

theorem kind_of_head {kind : Kind} {head : Head} (found : Head.ofKind? kind = some head) :
    match head with
    | .literal => kind = .int ∨ kind = .float ∨ kind = .string
    | .name => kind = .identifier
    | .group => kind = .openParen
    | .bracket => kind = .openBracket
    | .importing => kind = .atSign
    | .declaring => kind = .star := by
  cases kind <;> cases found <;> simp

theorem more_of_kind {parser : Parser} {kind : Kind} (same : parser.ahead.kind = kind)
    (other : kind ≠ .endOfInput) : parser.ahead.kind ≠ .endOfInput :=
  same ▸ other

theorem covers_atom {first last : Parser} {token : Token} {tree : Tree} {levels : Nat}
    (more : first.ahead.kind ≠ .endOfInput) (taken : first.advance = .done token last)
    (spelled : Spells tree levels [token]) (atom : tree.isAtom = true) :
    Covers first tree last where
  spelled := ⟨levels, [token], spelled, .single more taken⟩
  arranged := Tree.arranged_of_isAtom atom

theorem literal_covers {first last : Parser} {tree : Tree}
    (more : first.ahead.kind ≠ .endOfInput)
    (reply : first.literal.reply = .done tree last) :
    Covers first tree last ∧ tree.role? = none := by
  rcases Step.andThen_done_iff.mp reply with ⟨token, next, taken, rest⟩
  have advanced : first.advance = .done token next := taken
  split at rest
  next isInt =>
    by_cases inRange : Number.ofDigits token.value.toList ≤ greatestInt
    · rw [if_pos inRange] at rest
      cases rest
      exact ⟨covers_atom more advanced (.int token isInt inRange) rfl, rfl⟩
    · rw [if_neg inRange] at rest
      cases rest
  next isFloat =>
    cases rest
    exact ⟨covers_atom more advanced (.float token isFloat) rfl, rfl⟩
  next isString =>
    cases rest
    exact ⟨covers_atom more advanced (.string token isString) rfl, rfl⟩
  next => cases rest

/-- A marker takes one token and then demands another. -/
theorem marked_eq_done_iff {first last : Parser} {kind : Kind} {otherwise : Parser -> Fault}
    {build : Token -> Tree} {tree : Tree} :
    (first.take.andThen fun _ next within =>
      (next.demand kind (otherwise next)).andThen fun token after small =>
        (Step.done (build token) after (within_of_unread small within) :
          Step first.unread Tree)).reply = .done tree last <->
    exists marker next token, first.advance = .done marker next ∧
      next.ahead.kind = kind ∧ next.advance = .done token last ∧ tree = build token := by
  constructor
  · intro reply
    rcases Step.andThen_done_iff.mp reply with ⟨marker, next, marked, rest⟩
    rcases Step.andThen_done_iff.mp rest with ⟨token, after, demanded, same⟩
    rcases demand_eq_done_iff.mp demanded with ⟨isKind, taken⟩
    cases same
    exact ⟨marker, next, token, marked, isKind, taken, rfl⟩
  · rintro ⟨marker, next, token, marked, isKind, taken, rfl⟩
    have demanded : (next.demand kind (otherwise next)).reply = .done token last :=
      demand_eq_done_iff.mpr ⟨isKind, taken⟩
    exact Step.andThen_done_iff.mpr ⟨marker, next, marked,
      Step.andThen_done_iff.mpr ⟨token, last, demanded, rfl⟩⟩

theorem covers_marked {first next last : Parser} {marker token : Token} {tag : Tag} {child : Tree}
    (more : first.ahead.kind ≠ .endOfInput) (marked : first.advance = .done marker next)
    (moreNext : next.ahead.kind ≠ .endOfInput) (taken : next.advance = .done token last)
    (spelled : Spells (.form tag [child]) 1 [marker, token]) (atom : child.isAtom = true)
    (fits : (Tree.form tag [child]).Arranged) :
    Covers first (.form tag [child]) last where
  spelled := ⟨1, [marker, token], spelled, (Trail.single more marked).append
    (.single moreNext taken)⟩
  arranged := Tree.everywhere_single fits (Tree.arranged_of_isAtom atom)

theorem importing_covers {first last : Parser} {tree : Tree}
    (isMarker : first.ahead.kind = .atSign)
    (reply : first.importing.reply = .done tree last) :
    Covers first tree last ∧ tree.role? = none := by
  rcases marked_eq_done_iff.mp reply with ⟨marker, next, path, marked, isString, taken, rfl⟩
  have held : marker = first.ahead := token_of_advance marked
  have heldNext : path = next.ahead := token_of_advance taken
  refine ⟨covers_marked (more_of_kind isMarker (by decide)) marked
    (more_of_kind isString (by decide)) taken ?_ rfl ⟨_, rfl⟩, rfl⟩
  exact .importing marker path (held ▸ isMarker) (heldNext ▸ isString)

theorem declaring_covers {first last : Parser} {tree : Tree}
    (isMarker : first.ahead.kind = .star)
    (reply : first.declaring.reply = .done tree last) :
    Covers first tree last ∧ tree.role? = none := by
  rcases marked_eq_done_iff.mp reply with ⟨marker, next, name, marked, isName, taken, rfl⟩
  have held : marker = first.ahead := token_of_advance marked
  have heldNext : name = next.ahead := token_of_advance taken
  refine ⟨covers_marked (more_of_kind isMarker (by decide)) marked
    (more_of_kind isName (by decide)) taken ?_ rfl ⟨_, rfl⟩, rfl⟩
  exact .declaring marker name (held ▸ isMarker) (heldNext ▸ isName)

/-- The contents of delimiters: a spelling between two tokens, the second of
which is the closing delimiter. -/
theorem inside_covers {first next last : Parser} {opened : Token} {close : Kind} {content : Tree}
    (sound : SoundWithin limit bound) (small : first.unread ≤ bound)
    (more : first.ahead.kind ≠ .endOfInput) (closes : close ≠ .endOfInput)
    (taken : first.advance = .done opened next)
    (reply : next.inside limit opened close = .done content last) :
    content.Everywhere Tree.Arranged ∧
      exists levels tokens closed, Spells content levels tokens ∧ closed.kind = close ∧
        Trail first (opened :: tokens ++ [closed]) last := by
  rcases inside_eq_done_iff.mp reply with ⟨middle, closed, contents, isClose, closing⟩
  have within : next.weight ≤ bound := Nat.le_trans (weight_of_advance taken) small
  have reads := sound next .loosest content middle within contents
  rcases reads.spelled with ⟨levels, tokens, spelled, trail⟩
  have held : closed = middle.ahead := token_of_advance closing
  have enter : Trail first [opened] next := .single more taken
  have leave : Trail middle [closed] last := .single (more_of_kind isClose closes) closing
  exact ⟨reads.arranged, levels, tokens, closed, spelled, by rw [held, isClose],
    (enter.append trail).append leave⟩

theorem group_covers {first last : Parser} {tree : Tree}
    (sound : SoundWithin limit bound) (small : first.unread ≤ bound)
    (isOpened : first.ahead.kind = .openParen)
    (reply : first.start limit .group = .done tree last) :
    Covers first tree last ∧ tree.role? = none := by
  rw [start_group] at reply
  rcases Reply.andThen_eq_done_iff.mp reply with ⟨opened, next, taken, rest⟩
  rcases Reply.andThen_eq_done_iff.mp rest with ⟨content, after, contents, same⟩
  cases same
  have held : opened = first.ahead := token_of_advance taken
  rcases inside_covers sound small (more_of_kind isOpened (by decide)) (by decide) taken
      contents with ⟨arranged, levels, tokens, closed, spelled, isClosed, trail⟩
  refine ⟨⟨⟨levels + 1, _, .group opened closed (held ▸ isOpened) isClosed spelled, trail⟩, ?_⟩,
    rfl⟩
  exact Tree.everywhere_single (Or.inl ⟨content, rfl⟩) arranged

theorem bracket_covers {first last : Parser} {tree : Tree}
    (sound : SoundWithin limit bound) (small : first.unread ≤ bound)
    (isOpened : first.ahead.kind = .openBracket)
    (reply : first.start limit .bracket = .done tree last) :
    Covers first tree last ∧ tree.role? = none := by
  rw [start_bracket] at reply
  have more : first.ahead.kind ≠ .endOfInput := more_of_kind isOpened (by decide)
  rcases delimited_eq_done reply with ⟨opened, next, taken, empty | filled⟩
  · rcases empty with ⟨closed, isClose, closing, rfl⟩
    have held : opened = first.ahead := token_of_advance taken
    have heldNext : closed = next.ahead := token_of_advance closing
    have trail := (Trail.single more taken).append
      (.single (more_of_kind isClose (by decide)) closing)
    refine ⟨⟨⟨1, _, .emptyBracket opened closed (held ▸ isOpened) (heldNext ▸ isClose), trail⟩,
      ?_⟩, rfl⟩
    rw [Tree.everywhere_form_iff]
    exact ⟨Nat.zero_le 1, fun child member => absurd member List.not_mem_nil⟩
  · rcases filled with ⟨content, contents, rfl⟩
    have held : opened = first.ahead := token_of_advance taken
    rcases inside_covers sound small more (by decide) taken contents with
      ⟨arranged, levels, tokens, closed, spelled, isClosed, trail⟩
    refine ⟨⟨⟨levels + 1, _, .bracket opened closed (held ▸ isOpened) isClosed spelled, trail⟩,
      ?_⟩, rfl⟩
    exact Tree.everywhere_single (Nat.le_refl 1) arranged

/-- A name stands alone unless a parenthesis starts where it stops. -/
theorem name_covers {first last : Parser} {tree : Tree}
    (sound : SoundWithin limit bound) (small : first.unread ≤ bound)
    (reply : first.start limit .name = .done tree last) :
    Covers first tree last ∧ tree.role? = none := by
  rw [start_name] at reply
  rcases Reply.andThen_eq_done_iff.mp reply with ⟨name, next, expected, rest⟩
  rcases demand_eq_done_iff.mp expected with ⟨isName, taken⟩
  have more : first.ahead.kind ≠ .endOfInput := more_of_kind isName (by decide)
  have named : name.kind = .identifier := token_of_advance taken ▸ isName
  have atom : (Tree.ofName name.value).Everywhere Tree.Arranged := Tree.arranged_of_isAtom rfl
  have smallNext : next.unread ≤ bound :=
    Nat.le_trans next.unread_le_weight (Nat.le_trans (weight_of_advance taken) small)
  by_cases call : next.ahead.kind = .openParen ∧ next.ahead.span.start = name.span.stop
  · rw [if_pos call] at rest
    have moreNext : next.ahead.kind ≠ .endOfInput := more_of_kind call.1 (by decide)
    rcases delimited_eq_done rest with ⟨opened, after, opening, empty | filled⟩
    · rcases empty with ⟨closed, isClose, closing, rfl⟩
      have held : opened = next.ahead := token_of_advance opening
      have heldNext : closed = after.ahead := token_of_advance closing
      have trail := (Trail.single more taken).append ((Trail.single moreNext opening).append
        (.single (more_of_kind isClose (by decide)) closing))
      refine ⟨⟨⟨1, _, .emptyCall name opened closed named (held ▸ call.1) (heldNext ▸ isClose)
        (held ▸ call.2), trail⟩, ?_⟩, rfl⟩
      exact Tree.everywhere_single (Or.inl ⟨_, rfl⟩) atom
    · rcases filled with ⟨content, contents, rfl⟩
      have held : opened = next.ahead := token_of_advance opening
      rcases inside_covers sound smallNext moreNext (by decide) opening contents with
        ⟨arranged, levels, tokens, closed, spelled, isClosed, trail⟩
      have whole := (Trail.single more taken).append trail
      refine ⟨⟨⟨levels + 1, _, .call name opened closed named (held ▸ call.1) isClosed
        (held ▸ call.2) spelled, whole⟩, ?_⟩, rfl⟩
      exact Tree.everywhere_pair (Or.inr ⟨_, content, rfl⟩) atom arranged
  · rw [if_neg call] at rest
    cases rest
    exact ⟨covers_atom more taken (.name name named) rfl, rfl⟩

/-- Whatever a head announces is a primary. -/
theorem start_covers {first last : Parser} {head : Head} {tree : Tree}
    (sound : SoundWithin limit bound) (small : first.unread ≤ bound)
    (found : Head.ofKind? first.ahead.kind = some head)
    (reply : first.start limit head = .done tree last) :
    Covers first tree last ∧ tree.role? = none := by
  have isKind := kind_of_head found
  cases head with
  | literal =>
      have more : first.ahead.kind ≠ .endOfInput := by
        rcases isKind with same | same | same <;> exact more_of_kind same (by decide)
      exact literal_covers more reply
  | name => exact name_covers sound small reply
  | group => exact group_covers sound small isKind reply
  | bracket => exact bracket_covers sound small isKind reply
  | importing => exact importing_covers isKind reply
  | declaring => exact declaring_covers isKind reply

/-! ## Operators -/

/-- A sign behind a left operand and the right operand behind it. -/
theorem paired_covers {first middle last : Parser} {tag : Tag} {role : Role} {power : Power}
    {left tree : Tree} (sound : SoundWithin limit bound) (small : middle.unread ≤ bound)
    (joins : tag.role? = some role) (pairs : role ≠ .sequence)
    (reach : power.rank = tag.reach) (isSign : middle.ahead.kind = tag.sign)
    (more : middle.ahead.kind ≠ .endOfInput) (covered : Covers first left middle)
    (stands : left.StandsBefore middle.ahead.kind)
    (reply : middle.paired limit tag power left = .done tree last) :
    Covers first tree last ∧ tree.band = tag.band ∧ tree.StandsBefore last.ahead.kind := by
  rcases paired_eq_done reply with ⟨sign, next, right, taken, operand, rfl⟩
  have within : next.weight ≤ bound := Nat.le_trans (weight_of_advance taken) small
  have reads := sound next power right last within operand
  rcases covered.spelled with ⟨leftLevels, leftTokens, leftSpelled, leftTrail⟩
  rcases reads.spelled with ⟨rightLevels, rightTokens, rightSpelled, rightTrail⟩
  have held : sign = middle.ahead := token_of_advance taken
  have signed : sign.kind = tag.sign := by rw [held, isSign]
  have trail := leftTrail.append ((Trail.single more taken).append rightTrail)
  have spelled := Spells.pair sign joins pairs signed leftSpelled rightSpelled
  have fits : (Tree.form tag [left, right]).Arranged :=
    (Tree.arranged_pair_iff joins pairs).mpr ⟨isSign ▸ stands, reach ▸ reads.tight⟩
  refine ⟨⟨⟨_, _, spelled, trail⟩, ?_⟩, rfl, ?_⟩
  · exact Tree.everywhere_pair fits covered.arranged reads.arranged
  · exact (Tree.standsBefore_pair_iff joins pairs).mpr ⟨reach ▸ reads.stops, reads.stands.shut⟩

/-- The siblings read so far, in reverse, with the separators between them. -/
def Run (tag : Tag) (first : Parser) (items : List Tree) (middle : Parser) : Prop :=
  exists (head : Tree) (levels : Nat) (tokens : List Token) (later : List Sibling),
    items.reverse = head :: later.map Sibling.tree ∧ Spells head levels tokens ∧
      (forall sibling, sibling ∈ later -> sibling.separator.kind = tag.sign) ∧
      (forall sibling, sibling ∈ later ->
        Spells sibling.tree sibling.levels sibling.tokens) ∧
      Trail first (tokens ++ Sibling.spread later) middle

namespace Run

variable {tag : Tag} {first middle next last : Parser} {items : List Tree}

theorem single {item : Tree} (covered : Covers first item middle) :
    Run tag first [item] middle := by
  rcases covered.spelled with ⟨levels, tokens, spelled, trail⟩
  refine ⟨item, levels, tokens, [], rfl, spelled, ?_, ?_, ?_⟩
  · intro sibling member
    cases member
  · intro sibling member
    cases member
  · rw [Sibling.spread_nil, List.append_nil]
    exact trail

theorem ne_nil (run : Run tag first items middle) : items ≠ [] := by
  rcases run with ⟨head, levels, tokens, later, same, _⟩
  intro empty
  rw [empty] at same
  cases same

/-- One more separator and one more sibling. -/
theorem extend {separator : Token} {item : Tree} (run : Run tag first items middle)
    (more : middle.ahead.kind ≠ .endOfInput) (isSign : middle.ahead.kind = tag.sign)
    (taken : middle.advance = .done separator next) (covered : Covers next item last) :
    Run tag first (item :: items) last := by
  rcases run with ⟨head, levels, tokens, later, same, spelled, signs, laterSpelled, trail⟩
  rcases covered.spelled with ⟨itemLevels, itemTokens, itemSpelled, itemTrail⟩
  have signed : separator.kind = tag.sign := by rw [token_of_advance taken, isSign]
  let sibling : Sibling := ⟨separator, item, itemLevels, itemTokens⟩
  refine ⟨head, levels, tokens, later ++ [sibling], ?_, spelled, ?_, ?_, ?_⟩
  · rw [List.reverse_cons, same, List.map_append]
    rfl
  · intro other member
    rcases List.mem_append.mp member with earlier | final
    · exact signs other earlier
    · rw [List.mem_singleton.mp final]
      exact signed
  · intro other member
    rcases List.mem_append.mp member with earlier | final
    · exact laterSpelled other earlier
    · rw [List.mem_singleton.mp final]
      exact itemSpelled
  · rw [Sibling.spread_concat, ← List.append_assoc]
    exact trail.append ((Trail.single more taken).append itemTrail)

/-- Two or more siblings are a sequence as they stand. -/
theorem close (run : Run tag first items middle) (sequence : tag.role? = some .sequence)
    (several : 2 ≤ items.length) :
    exists levels tokens, Spells (.form tag items.reverse) levels tokens ∧
      Trail first tokens middle := by
  rcases run with ⟨head, levels, tokens, later, same, spelled, signs, laterSpelled, trail⟩
  have count : later ≠ [] := by
    intro empty
    have length := congrArg List.length same
    rw [empty, List.length_reverse] at length
    simp at length
    omega
  have whole := Spells.siblings later none sequence spelled signs laterSpelled
    (fun _ => count) (fun separator member => by cases member)
  rw [Option.toList_none, List.append_nil, ← same] at whole
  exact ⟨_, _, whole, trail⟩

/-- A separator behind the last sibling ends the sequence. -/
theorem trail {separator : Token} (run : Run tag first items middle)
    (sequence : tag.role? = some .sequence)
    (more : middle.ahead.kind ≠ .endOfInput) (isSign : middle.ahead.kind = tag.sign)
    (taken : middle.advance = .done separator last)
    (closed : tag ≠ .semicolon -> Tree.lastEndsOpen items.reverse = false) :
    exists levels tokens, Spells (.form tag items.reverse) levels tokens ∧
      Trail first tokens last := by
  rcases run with ⟨head, levels, tokens, later, same, spelled, signs, laterSpelled, path⟩
  have signed : separator.kind = tag.sign := by rw [token_of_advance taken, isSign]
  rw [same] at closed ⊢
  refine ⟨_, _, Spells.siblings later (some separator) sequence spelled signs laterSpelled ?_ ?_,
    path.append (.single more taken)⟩
  · intro absent
    cases absent
  · intro other member
    cases member
    exact ⟨signed, closed⟩

/-- A sequence of several siblings fits if what follows it may stand behind the
last of them. -/
theorem close_covers {item : Tree} (run : Run tag first (item :: items) last)
    (sequence : tag.role? = some .sequence) (others : items ≠ [])
    (before : forall other, other ∈ items ->
      other.Everywhere Tree.Arranged ∧ other.StandsBefore tag.sign)
    (arranged : item.Everywhere Tree.Arranged) (tight : tag.band < item.band)
    (looser : last.ahead.kind.power.rank < tag.band)
    (shut : item.endsOpen = true -> last.ahead.kind.power.rank ≤ Tag.semicolon.band) :
    Covers first (.form tag (item :: items).reverse) last ∧
      (Tree.form tag (item :: items).reverse).StandsBefore last.ahead.kind := by
  have several : 2 ≤ (item :: items).length := by
    have some := List.length_pos_iff.mpr others
    rw [List.length_cons]
    omega
  have spelled := run.close sequence several
  rw [List.reverse_cons] at spelled ⊢
  have fits : (Tree.form tag (items.reverse ++ [item])).Arranged := by
    refine (Tree.arranged_siblings_iff sequence).mpr ⟨?_, tight, ?_⟩
    · intro child member
      exact (before child (List.mem_reverse.mp member)).2
    · intro empty
      exact absurd (List.reverse_eq_nil_iff.mp empty) others
  refine ⟨⟨spelled, Tree.everywhere_form_iff.mpr ⟨fits, ?_⟩⟩,
    (Tree.standsBefore_siblings_iff sequence).mpr ⟨looser, shut⟩⟩
  intro child member
  rcases List.mem_append.mp member with earlier | final
  · exact (before child (List.mem_reverse.mp earlier)).1
  · rw [List.mem_singleton.mp final]
    exact arranged

/-- A sequence with a trailing separator fits, since that separator may stand
behind the last sibling too. -/
theorem trail_covers {separator : Token} (run : Run tag first items middle)
    (sequence : tag.role? = some .sequence)
    (more : middle.ahead.kind ≠ .endOfInput) (isSign : middle.ahead.kind = tag.sign)
    (taken : middle.advance = .done separator last)
    (before : forall item, item ∈ items ->
      item.Everywhere Tree.Arranged ∧ item.StandsBefore tag.sign)
    (looser : last.ahead.kind.power.rank < tag.band) :
    Covers first (.form tag items.reverse) last ∧
      (Tree.form tag items.reverse).StandsBefore last.ahead.kind := by
  cases items with
  | nil => exact absurd rfl run.ne_nil
  | cons item items =>
      have stands := (before item List.mem_cons_self).2
      rcases (Tree.standsBefore_strict_iff sequence (by decide)).mp stands with ⟨tight, closed⟩
      have spelled := run.trail sequence more isSign taken
        (by rw [List.reverse_cons, Tree.lastEndsOpen_concat]; exact closed)
      have arranged : forall child, child ∈ (item :: items).reverse ->
          child.Everywhere Tree.Arranged :=
        fun child member => (before child (List.mem_reverse.mp member)).1
      rw [List.reverse_cons] at spelled arranged ⊢
      have fits : (Tree.form tag (items.reverse ++ [item])).Arranged := by
        refine (Tree.arranged_siblings_iff sequence).mpr ⟨?_, tight, fun _ => stands⟩
        intro child member
        exact (before child (List.mem_cons_of_mem _ (List.mem_reverse.mp member))).2
      refine ⟨⟨spelled, Tree.everywhere_form_iff.mpr ⟨fits, arranged⟩⟩,
        (Tree.standsBefore_siblings_iff sequence).mpr ⟨looser, ?_⟩⟩
      intro isOpen
      have signLoose := stands.shut isOpen
      rw [Tag.power_sign sequence] at signLoose
      omega

end Run

/-- The loop over siblings.  In front of every round a separator is held, so it
may stand behind each of the siblings read so far. -/
theorem collect_covers {first last : Parser} {row : Operator} {tree : Tree}
    (sound : SoundWithin limit bound) (sequence : row.role = .sequence)
    (items : List Tree) (middle : Parser)
    (found : Operator.ofKind? middle.ahead.kind = some row) (small : middle.unread ≤ bound)
    (run : Run row.tag first items middle)
    (before : forall item, item ∈ items ->
      item.Everywhere Tree.Arranged ∧ item.StandsBefore row.tag.sign)
    (reply : middle.collect limit row items = .done tree last) :
    Covers first tree last ∧ tree.band = row.tag.band ∧
      tree.StandsBefore last.ahead.kind := by
  rcases Operator.row_agrees (Operator.mem_table_of_ofKind? found) with ⟨signKind, role, band⟩
  rw [sequence] at role
  have sign : row.tag.sign = middle.ahead.kind := Operator.sign_of_ofKind? found
  have more : middle.ahead.kind ≠ .endOfInput := Operator.ne_endOfInput_of_ofKind? found
  have lighter : middle.unread < middle.weight := unread_lt_weight more
  rcases collect_eq_done reply with ⟨separator, next, taken, single, onward⟩
  have within : next.weight ≤ middle.unread := weight_of_advance taken
  rcases onward with ⟨item, after, operand, onward⟩ | ⟨loose, rfl, rfl⟩
  · have reads := sound next row.power item after (Nat.le_trans within small) operand
    have extended := run.extend more sign.symm taken reads.toCovers
    rcases onward with ⟨again, rest⟩ | ⟨ended, rfl, rfl⟩
    · -- The loop goes on from a lighter state that holds the next separator.
      have held : after.ahead.kind = row.tag.sign := again.trans signKind.symm
      have below : after.weight ≤ middle.unread := Nat.le_trans reads.weight_le within
      have smaller : after.unread ≤ bound :=
        Nat.le_trans after.unread_le_weight (Nat.le_trans below small)
      refine collect_covers sound sequence (item :: items) after ?_ smaller extended ?_ rest
      · rw [held, sign]
        exact found
      · intro other member
        rcases List.mem_cons.mp member with same | earlier
        · rw [same, ← held]
          exact ⟨reads.arranged, reads.stands⟩
        · exact before other earlier
    · have looser := Tag.looser_of_ne role (band ▸ reads.stops) (signKind ▸ ended)
      rcases extended.close_covers role run.ne_nil before reads.arranged (band ▸ reads.tight)
        looser reads.stands.shut with ⟨covered, stands⟩
      exact ⟨covered, rfl, stands⟩
  · have looser := Tag.looser_of_ne role (band ▸ loose) (signKind ▸ single)
    rcases run.trail_covers role more sign.symm taken before looser with ⟨covered, stands⟩
    exact ⟨covered, rfl, stands⟩
termination_by middle.weight

/-- What the held operator makes of its left operand. -/
theorem grow_covers {first middle last : Parser} {row : Operator} {left tree : Tree}
    (sound : SoundWithin limit bound) (small : middle.unread ≤ bound)
    (found : Operator.ofKind? middle.ahead.kind = some row) (covered : Covers first left middle)
    (stands : left.StandsBefore middle.ahead.kind)
    (reply : middle.grow limit row left = .done tree last) :
    Covers first tree last ∧ tree.band = row.tag.band ∧
      tree.StandsBefore last.ahead.kind := by
  rcases Operator.row_agrees (Operator.mem_table_of_ofKind? found) with ⟨_, joins, band⟩
  have sign : middle.ahead.kind = row.tag.sign := (Operator.sign_of_ofKind? found).symm
  have more : middle.ahead.kind ≠ .endOfInput := Operator.ne_endOfInput_of_ofKind? found
  unfold grow at reply
  cases role : row.role with
  | binary =>
      rw [role] at reply joins
      have reach : row.power.rank = row.tag.reach := by
        rw [Tag.reach_of_binary joins, band]
      exact paired_covers sound small joins (by decide) reach sign more covered stands reply
  | conditional =>
      rw [role] at reply joins
      have reach : Power.semicolon.rank = row.tag.reach := by
        rw [Tag.reach_of_conditional joins]
        rfl
      exact paired_covers sound small joins (by decide) reach sign more covered stands reply
  | sequence =>
      rw [role] at reply
      refine collect_covers sound role [left] middle found small (.single covered) ?_ reply
      intro item member
      rw [List.mem_singleton.mp member]
      exact ⟨covered.arranged, sign ▸ stands⟩

/-! ## Expressions -/

/-- The loop over operators.  The left operand is always tighter than the power
asked for, and the held token may stand behind it. -/
theorem extend_reads {first last : Parser} {power : Power} {tree : Tree}
    (sound : SoundWithin limit bound) (left : Tree) (middle : Parser)
    (small : middle.unread ≤ bound) (covered : Covers first left middle)
    (tight : power.rank < left.band) (stands : left.StandsBefore middle.ahead.kind)
    (reply : middle.extend limit power left = .done tree last) :
    Reads first power tree last := by
  rw [extend_eq] at reply
  cases found : Operator.ofKind? middle.ahead.kind with
  | none =>
      rw [extendOnce_of_none limit found] at reply
      cases reply
      refine ⟨covered, tight, stands, ?_⟩
      rw [Kind.power_eq_loosest found]
      exact Nat.zero_le _
  | some row =>
      rw [extendOnce_of_some limit found] at reply
      by_cases loose : row.power ≤ power
      · rw [if_pos loose] at reply
        cases reply
        refine ⟨covered, tight, stands, ?_⟩
        rw [Operator.power_of_ofKind? found]
        exact loose
      · rw [if_neg loose] at reply
        rcases Reply.andThen_eq_done_iff.mp reply with ⟨grown, next, step, onward⟩
        rcases grow_covers sound small found covered stands step with
          ⟨grownCovered, grownBand, grownStands⟩
        have below : next.weight ≤ middle.unread := weight_of_grow limit step
        have lighter : middle.unread < middle.weight :=
          unread_lt_weight (Operator.ne_endOfInput_of_ofKind? found)
        have smaller : next.unread ≤ bound :=
          Nat.le_trans next.unread_le_weight (Nat.le_trans below small)
        refine extend_reads sound grown next smaller grownCovered ?_ grownStands onward
        rw [grownBand, (Operator.row_agrees (Operator.mem_table_of_ofKind? found)).2.2]
        exact Nat.not_le.mp loose
termination_by middle.weight

/-- Whatever the expression parser accepts, it has read a spelling of. -/
theorem read_reads {first last : Parser} {power : Power} {tree : Tree}
    (reply : first.read limit power = .done tree last) : Reads first power tree last := by
  cases deep : first.tooDeep? limit with
  | some fault =>
      rw [read_of_some limit deep] at reply
      cases reply
  | none =>
      rw [read_of_none limit deep] at reply
      rcases Reply.andThen_eq_done_iff.mp reply with ⟨program, after, inner, same⟩
      cases same
      cases found : Head.ofKind? first.deeper.ahead.kind with
      | none =>
          rw [body_of_none limit found] at inner
          cases inner
      | some head =>
          rw [body_of_some limit found] at inner
          rcases Reply.andThen_eq_done_iff.mp inner with ⟨left, middle, started, extended⟩
          have lighter : first.unread < first.weight := unread_lt_weight_of_head found
          have sound : SoundWithin limit first.deeper.unread := by
            intro inside innerPower innerTree innerLast within innerReply
            have nested : inside.weight < first.weight := Nat.lt_of_le_of_lt within lighter
            exact read_reads innerReply
          rcases start_covers sound (Nat.le_refl first.deeper.unread) found started with
            ⟨covered, primary⟩
          have tight : power.rank < left.band := by
            rw [Tree.band_eq_of_role?_none primary]
            cases power <;> decide
          have reads := extend_reads sound left middle covered.unread_le covered tight
            (Tree.standsBefore_of_primary _ primary) extended
          exact reads.leave
termination_by first.weight

end
end Parser

/-! ## Programs -/

/-- An accepted source, under any limit, is a spelling of its tree with the end of
the input behind it. -/
theorem spelled_of_parseWithin {limit : Option Nat} {file source : String} {tree : Tree}
    (accepted : parseWithin limit file source = .ok tree) :
    tree.Shaped ∧ exists (levels : Nat) (tokens : List Token) (last : Token),
      tokenize file source = .ok (tokens ++ [last]) ∧ last.kind = .endOfInput ∧
        Spells tree levels tokens := by
  rcases parseWithin_eq_ok_iff.mp accepted with ⟨parser, final, opened, reply, atEnd⟩
  have reads := Parser.read_reads reply
  rcases reads.spelled with ⟨levels, tokens, spelled, trail⟩
  have legal := spelled.legalAtoms (trail.worded (Parser.worded_of_ofSource opened))
  refine ⟨Tree.shaped_iff.mpr ⟨reads.arranged, legal⟩, levels, tokens, final.ahead, ?_, atEnd,
    spelled⟩
  exact tokenize_eq_ok_iff.mpr ⟨parser, final, opened, trail, rfl, atEnd⟩

/-- No token of an accepted source is lost, doubled, moved or made up: the tokens
in front of the end of the input spell the tree. -/
theorem parse_spells {file source : String} {tree : Tree}
    (accepted : parse file source = .ok tree) :
    exists (levels : Nat) (tokens : List Token) (last : Token),
      tokenize file source = .ok (tokens ++ [last]) ∧ last.kind = .endOfInput ∧
        Spells tree levels tokens :=
  (spelled_of_parseWithin accepted).2

theorem parse_spells_call :
    parse "shell" "F(a ? 1. ; *b)" =
      .ok (.form .paren [.ident "f", .form .semicolon
        [.form .question [.ident "a", .form .period [.int 1]],
          .form .declaring [.ident "b"]]]) ∧
    exists (levels : Nat) (tokens : List Token) (last : Token),
      tokenize "shell" "F(a ? 1. ; *b)" = .ok (tokens ++ [last]) ∧
        last.kind = .endOfInput ∧
        Spells (.form .paren [.ident "f", .form .semicolon
          [.form .question [.ident "a", .form .period [.int 1]],
            .form .declaring [.ident "b"]]]) levels tokens := by
  have accepted : parse "shell" "F(a ? 1. ; *b)" =
      .ok (.form .paren [.ident "f", .form .semicolon
        [.form .question [.ident "a", .form .period [.int 1]],
          .form .declaring [.ident "b"]]]) := by
    cbv
  exact ⟨accepted, parse_spells accepted⟩

/-- Every node of an accepted program has the children that its tag allows. -/
theorem parse_shaped {file source : String} {tree : Tree}
    (accepted : parse file source = .ok tree) : tree.Shaped :=
  (spelled_of_parseWithin accepted).1

theorem parse_shaped_conditional :
    parse "shell" "a = b ? c. d ; e, * f" =
      .ok (.form .semicolon
        [.form .assign [.ident "a", .form .question [.ident "b",
          .form .period [.ident "c", .ident "d"]]],
        .form .comma [.ident "e", .form .declaring [.ident "f"]]]) ∧
    (Tree.form .semicolon
      [.form .assign [.ident "a", .form .question [.ident "b",
        .form .period [.ident "c", .ident "d"]]],
      .form .comma [.ident "e", .form .declaring [.ident "f"]]]).Shaped := by
  have accepted : parse "shell" "a = b ? c. d ; e, * f" =
      .ok (.form .semicolon
        [.form .assign [.ident "a", .form .question [.ident "b",
          .form .period [.ident "c", .ident "d"]]],
        .form .comma [.ident "e", .form .declaring [.ident "f"]]]) := by
    cbv
  exact ⟨accepted, parse_shaped accepted⟩

end SignalScript
