import SignalScript.Parser.Form

namespace SignalScript

/-!
The shape of trees that a program can stand for.

Every tag has a band, and bands are ordered from the loosest separator to the
primaries, which hold together by themselves.  A form restricts the bands of its
children.  Conditionals break the usual rule: their right operand reaches up to
the next semicolon, so it may be looser than the conditional itself.  What keeps
the notation unambiguous is a condition on the right edge of a tree instead of
one on its root: nothing but a semicolon may follow a tree on whose right edge a
conditional lies.

The definitions here do not consult the operator table.  That the table agrees
with them is a statement of its own.
-/

/-- A word is a run of letters, digits and marks that does not start with a digit.
The import marker by itself is none. -/
def Lexeme.IsWord (text : List Char) : Prop :=
  text ≠ ['@'] ∧ exists first rest, text = first :: rest ∧ startsWord first = true ∧
    forall c, c ∈ rest -> continuesWord c = true

namespace Tag

/-- How the form of a tag joins its children.  The tags of primaries join
nothing. -/
def role? : Tag -> Option Role
  | .add | .subtract | .multiply | .divide | .addAssign | .bind | .assign => some .binary
  | .question | .colon => some .conditional
  | .semicolon | .period | .comma => some .sequence
  | .paren | .bracket | .importing | .declaring => none

/-- The bands, loosest first. -/
def band : Tag -> Nat
  | .semicolon => 1
  | .period => 2
  | .assign | .addAssign => 3
  | .question | .colon => 4
  | .comma => 5
  | .bind => 6
  | .add | .subtract => 7
  | .multiply | .divide => 8
  | .paren | .bracket | .importing | .declaring => 9

/-- The kind of token that makes a form of this tag. -/
def sign : Tag -> Kind
  | .add => .plus
  | .subtract => .dash
  | .multiply => .star
  | .divide => .slash
  | .addAssign => .plusAssign
  | .bind => .leftArrow
  | .assign => .assign
  | .question => .question
  | .colon => .colon
  | .semicolon => .semicolon
  | .period => .dot
  | .comma => .comma
  | .paren => .openParen
  | .bracket => .openBracket
  | .importing => .atSign
  | .declaring => .star

/-- The band that the right operand must be tighter than.  It is the band of the
tag itself, except that a conditional reaches up to the next semicolon. -/
def reach (tag : Tag) : Nat :=
  if tag.role? = some .conditional then semicolon.band else tag.band

end Tag

namespace Tree

/-- How a form joins its children.  Atoms and primaries join nothing. -/
def role? : Tree -> Option Role
  | .form tag _ => tag.role?
  | _ => none

/-- The band of a tree.  Atoms are as tight as the other primaries. -/
def band : Tree -> Nat
  | .form tag _ => tag.band
  | _ => 9

mutual

/-- A conditional lies on the right edge, which is the tree itself and, below an
operator, the right edge of the last child. -/
def endsOpen : Tree -> Bool
  | .form tag children =>
      match tag.role? with
      | some .conditional => true
      | some _ => lastEndsOpen children
      | none => false
  | _ => false

/-- A conditional lies on the right edge of the last of several trees. -/
def lastEndsOpen : List Tree -> Bool
  | [] => false
  | [child] => endsOpen child
  | _ :: second :: rest => lastEndsOpen (second :: rest)

end

/-- The children of a primary form: one group, or a call with its name in front;
at most one in brackets; one string behind an import marker; one name behind a
declaration marker. -/
def ArrangedPrimary (tag : Tag) (children : List Tree) : Prop :=
  match tag with
  | .paren =>
      (exists content, children = [content]) ∨
        exists name content, children = [.ident name, content]
  | .bracket => children.length ≤ 1
  | .importing => exists path, children = [.string path]
  | .declaring => exists name, children = [.ident name]
  | _ => True

/-- The children of a binary form or a conditional. -/
def ArrangedPair (tag : Tag) (children : List Tree) : Prop :=
  exists left right, children = [left, right] ∧ left.endsOpen = false ∧
    if tag.role? = some .binary then
      tag.band ≤ left.band ∧ tag.band < right.band
    else
      tag.band < left.band ∧ right.tag? ≠ some .semicolon

/-- The children of a sequence.  In front of a period or a comma, no conditional
may lie on the right edge, because it would have taken the separator for its own
operand. -/
def ArrangedSiblings (tag : Tag) (children : List Tree) : Prop :=
  children ≠ [] ∧ (forall child, child ∈ children -> tag.band < child.band) ∧
    (tag ≠ .semicolon ->
      (forall child, child ∈ children.dropLast -> child.endsOpen = false) ∧
        forall child, children = [child] -> child.endsOpen = false)

/-- The children of a form fit its tag.  Nothing is asked of an atom. -/
def Arranged : Tree -> Prop
  | .form tag children =>
      match tag.role? with
      | some .sequence => ArrangedSiblings tag children
      | some _ => ArrangedPair tag children
      | none => ArrangedPrimary tag children
  | _ => True

/-- An atom that a token can stand for.  A name is a word without capitals; a
whole number is not negative and at most the greatest one; a floating-point
number has no sign and is a number; a string holds no quotation mark. -/
def LegalAtom : Tree -> Prop
  | .ident name =>
      Lexeme.IsWord name.toList ∧ forall c, c ∈ name.toList -> c.isUpper = false
  | .int value => 0 ≤ value ∧ value ≤ Parser.greatestInt
  | .float value => value.isNegative = false ∧ value.isNaN = false
  | .string value => '\'' ∉ value.toList
  | .form _ _ => True

/-- A property of every node of a tree. -/
def Everywhere (holds : Tree -> Prop) (tree : Tree) : Prop :=
  forall node, node ∈ tree.preorder -> holds node

/-- Every form has fitting children and every atom can be written. -/
def Shaped (tree : Tree) : Prop :=
  tree.Everywhere fun node => node.Arranged ∧ node.LegalAtom

/-! ## Every node -/

mutual

theorem preorderOnto_append (tree : Tree) (first second : List Tree) :
    tree.preorderOnto (first ++ second) = tree.preorderOnto first ++ second := by
  cases tree with
  | form tag children =>
      simp only [preorderOnto, preorderEachOnto_append children first second, List.cons_append]
  | ident name => rfl
  | int value => rfl
  | float value => rfl
  | string value => rfl

theorem preorderEachOnto_append (trees first second : List Tree) :
    preorderEachOnto trees (first ++ second) = preorderEachOnto trees first ++ second := by
  cases trees with
  | nil => rfl
  | cons tree rest =>
      simp only [preorderEachOnto, preorderEachOnto_append rest first second,
        preorderOnto_append tree _ second]

end

theorem mem_preorderEachOnto {node : Tree} (trees : List Tree) :
    node ∈ preorderEachOnto trees [] <-> exists tree, tree ∈ trees ∧ node ∈ tree.preorder := by
  induction trees with
  | nil => simp [preorderEachOnto]
  | cons tree rest inductionHypothesis =>
      have split : preorderEachOnto (tree :: rest) [] =
          tree.preorder ++ preorderEachOnto rest [] := by
        rw [preorderEachOnto, preorder, ← preorderOnto_append, List.nil_append]
      rw [split, List.mem_append, inductionHypothesis]
      simp

theorem everywhere_form_iff {holds : Tree -> Prop} {tag : Tag} {children : List Tree} :
    (form tag children).Everywhere holds <->
      holds (form tag children) ∧ forall child, child ∈ children -> child.Everywhere holds := by
  have nodes : (form tag children).preorder =
      form tag children :: preorderEachOnto children [] := by
    rw [preorder, preorderOnto]
  unfold Everywhere
  rw [nodes]
  constructor
  · intro all
    refine ⟨all _ List.mem_cons_self, ?_⟩
    intro child member node below
    exact all node (List.mem_cons_of_mem _
      ((mem_preorderEachOnto children).mpr ⟨child, member, below⟩))
  · rintro ⟨root, below⟩ node member
    rcases List.mem_cons.mp member with same | later
    · rw [same]
      exact root
    · rcases (mem_preorderEachOnto children).mp later with ⟨child, listed, inside⟩
      exact below child listed node inside

theorem everywhere_atom_iff {holds : Tree -> Prop} {tree : Tree} (atom : tree.isAtom = true) :
    tree.Everywhere holds <-> holds tree := by
  have alone : tree.preorder = [tree] := by
    cases tree with
    | form tag children => cases atom
    | ident name => rfl
    | int value => rfl
    | float value => rfl
    | string value => rfl
  unfold Everywhere
  rw [alone]
  simp

theorem everywhere_single {holds : Tree -> Prop} {tag : Tag} {child : Tree}
    (root : holds (form tag [child])) (below : child.Everywhere holds) :
    (form tag [child]).Everywhere holds := by
  rw [everywhere_form_iff]
  refine ⟨root, ?_⟩
  intro other member
  rw [List.mem_singleton.mp member]
  exact below

theorem everywhere_pair {holds : Tree -> Prop} {tag : Tag} {left right : Tree}
    (root : holds (form tag [left, right])) (below : left.Everywhere holds)
    (behind : right.Everywhere holds) : (form tag [left, right]).Everywhere holds := by
  rw [everywhere_form_iff]
  refine ⟨root, ?_⟩
  intro other member
  rcases List.mem_cons.mp member with same | later
  · rw [same]
    exact below
  · rw [List.mem_singleton.mp later]
    exact behind

theorem arranged_of_isAtom {tree : Tree} (atom : tree.isAtom = true) :
    tree.Everywhere Arranged := by
  rw [everywhere_atom_iff atom]
  cases tree with
  | form tag children => cases atom
  | ident name => exact True.intro
  | int value => exact True.intro
  | float value => exact True.intro
  | string value => exact True.intro

theorem shaped_iff {tree : Tree} :
    tree.Shaped <-> tree.Everywhere Arranged ∧ tree.Everywhere LegalAtom := by
  constructor
  · intro shaped
    exact ⟨fun node member => (shaped node member).1, fun node member => (shaped node member).2⟩
  · rintro ⟨arranged, legal⟩ node member
    exact ⟨arranged node member, legal node member⟩

/-! ## Right edges -/

@[simp] theorem lastEndsOpen_concat (front : List Tree) (last : Tree) :
    lastEndsOpen (front ++ [last]) = last.endsOpen := by
  induction front with
  | nil => rfl
  | cons first rest inductionHypothesis =>
      cases rest with
      | nil => rfl
      | cons second rest => exact inductionHypothesis

theorem endsOpen_pair {tag : Tag} (left right : Tree) (binary : tag.role? = some .binary) :
    (form tag [left, right]).endsOpen = right.endsOpen := by
  simp only [endsOpen, binary, lastEndsOpen]

theorem endsOpen_conditional {tag : Tag} (children : List Tree)
    (conditional : tag.role? = some .conditional) : (form tag children).endsOpen = true := by
  simp only [endsOpen, conditional]

theorem endsOpen_siblings {tag : Tag} (children : List Tree)
    (sequence : tag.role? = some .sequence) :
    (form tag children).endsOpen = lastEndsOpen children := by
  simp only [endsOpen, sequence]

end Tree

/-! ## The operator table -/

/-- Every row of the table makes a form of its own sign, role and band. -/
theorem Operator.row_agrees {row : Operator} (listed : row ∈ Operator.table) :
    row.tag.sign = row.kind ∧ row.tag.role? = some row.role ∧
      row.tag.band = row.power.rank := by
  revert row
  decide

theorem Operator.mem_table_of_ofKind? {kind : Kind} {row : Operator}
    (found : Operator.ofKind? kind = some row) : row ∈ Operator.table :=
  List.mem_of_find?_eq_some found

theorem Operator.power_of_ofKind? {kind : Kind} {row : Operator}
    (found : Operator.ofKind? kind = some row) : kind.power = row.power := by
  rw [Kind.power, found]

theorem Operator.sign_of_ofKind? {kind : Kind} {row : Operator}
    (found : Operator.ofKind? kind = some row) : row.tag.sign = kind :=
  (Operator.row_agrees (Operator.mem_table_of_ofKind? found)).1.trans
    (Operator.kind_of_ofKind? found)

theorem Kind.power_eq_loosest {kind : Kind} (absent : Operator.ofKind? kind = none) :
    kind.power = .loosest := by
  rw [Kind.power, absent]

theorem Kind.power_rank_le (kind : Kind) : kind.power.rank ≤ 8 := by
  cases kind <;> decide

namespace Tag

/-- Every tag that joins its children has a row in the table. -/
theorem exists_row {tag : Tag} {role : Role} (joins : tag.role? = some role) :
    exists row, Operator.ofKind? tag.sign = some row ∧ row.tag = tag ∧ row.role = role ∧
      row.power.rank = tag.band := by
  cases tag <;> cases joins <;> exact ⟨_, rfl, rfl, rfl, rfl⟩

theorem power_sign {tag : Tag} {role : Role} (joins : tag.role? = some role) :
    tag.sign.power.rank = tag.band := by
  rcases exists_row joins with ⟨row, found, _, _, power⟩
  rw [Operator.power_of_ofKind? found, power]

/-- Two tags of the same band join their children in the same way. -/
theorem role?_eq_of_band_eq {first second : Tag} (same : first.band = second.band) :
    first.role? = second.role? := by
  cases first <;> cases second <;> first | rfl | cases same

/-- A separator is the only kind of token with its power. -/
theorem kind_eq_sign {tag : Tag} {kind : Kind} (sequence : tag.role? = some .sequence)
    (same : kind.power.rank = tag.band) : kind = tag.sign := by
  cases tag <;> cases sequence <;> cases kind <;> first | rfl | exact absurd same (by decide)

/-- What is no tighter than a separator and is another kind of token is looser. -/
theorem looser_of_ne {tag : Tag} {kind : Kind} (sequence : tag.role? = some .sequence)
    (loose : kind.power.rank ≤ tag.band) (other : kind ≠ tag.sign) :
    kind.power.rank < tag.band :=
  Nat.lt_of_le_of_ne loose fun same => other (kind_eq_sign sequence same)

theorem ne_sign_of_looser {tag : Tag} {role : Role} {kind : Kind}
    (joins : tag.role? = some role) (looser : kind.power.rank < tag.band) :
    kind ≠ tag.sign := by
  intro same
  rw [same, power_sign joins] at looser
  exact Nat.lt_irrefl _ looser

theorem band_pos (tag : Tag) : 0 < tag.band := by
  cases tag <;> decide

theorem band_eq_of_role?_none {tag : Tag} (primary : tag.role? = none) : tag.band = 9 := by
  cases tag <;> first | rfl | cases primary

theorem semicolon_lt_band {tag : Tag} {role : Role} (joins : tag.role? = some role)
    (pairs : role ≠ .sequence) : semicolon.band < tag.band := by
  cases tag <;> cases joins <;> first | decide | exact absurd rfl pairs

theorem semicolon_lt_band_of_ne {tag : Tag} (different : tag ≠ .semicolon) :
    semicolon.band < tag.band := by
  cases tag <;> first | decide | exact absurd rfl different

theorem reach_of_binary {tag : Tag} (binary : tag.role? = some .binary) :
    tag.reach = tag.band := by
  simp [reach, binary]

theorem reach_of_conditional {tag : Tag} (conditional : tag.role? = some .conditional) :
    tag.reach = semicolon.band := by
  simp [reach, conditional]

end Tag

namespace Tree

theorem tag?_ne_semicolon_iff {tree : Tree} :
    tree.tag? ≠ some .semicolon <-> Tag.semicolon.band < tree.band := by
  cases tree with
  | form tag children =>
      constructor
      · intro different
        exact Tag.semicolon_lt_band_of_ne fun same => different (by rw [tag?, same])
      · intro tighter same
        cases same
        exact Nat.lt_irrefl _ tighter
  | ident name => simp [tag?, band, Tag.band]
  | int value => simp [tag?, band, Tag.band]
  | float value => simp [tag?, band, Tag.band]
  | string value => simp [tag?, band, Tag.band]

theorem band_eq_of_role?_none {tree : Tree} (primary : tree.role? = none) : tree.band = 9 := by
  cases tree with
  | form tag children => exact Tag.band_eq_of_role?_none primary
  | ident name => rfl
  | int value => rfl
  | float value => rfl
  | string value => rfl

theorem endsOpen_of_role?_none {tree : Tree} (primary : tree.role? = none) :
    tree.endsOpen = false := by
  cases tree with
  | form tag children =>
      have none_joined : tag.role? = none := primary
      simp only [endsOpen, none_joined]
  | ident name => rfl
  | int value => rfl
  | float value => rfl
  | string value => rfl

/-! ## What may stand behind a tree -/

/-- A token of this kind may stand behind a tree without being taken into it.
An operator there is no tighter than the tree; it is as tight only behind a
binary form, which then becomes its left operand; and behind a conditional on
the right edge only a semicolon is loose enough. -/
structure StandsBefore (tree : Tree) (kind : Kind) : Prop where
  loose : kind.power.rank ≤ tree.band
  tie : kind.power.rank = tree.band -> tree.role? = some .binary
  shut : tree.endsOpen = true -> kind.power.rank ≤ Tag.semicolon.band

theorem standsBefore_of_tighter {tree : Tree} {kind : Kind}
    (tighter : kind.power.rank < tree.band)
    (shut : tree.endsOpen = true -> kind.power.rank ≤ Tag.semicolon.band) :
    tree.StandsBefore kind where
  loose := Nat.le_of_lt tighter
  tie := fun same => absurd same (Nat.ne_of_lt tighter)
  shut := shut

theorem standsBefore_of_primary {tree : Tree} (kind : Kind) (primary : tree.role? = none) :
    tree.StandsBefore kind := by
  apply standsBefore_of_tighter
  · have loose := kind.power_rank_le
    rw [band_eq_of_role?_none primary]
    omega
  · rw [endsOpen_of_role?_none primary]
    intro isOpen
    cases isOpen

/-- Behind a pair only what is outside the reach of its right operand may
stand. -/
theorem standsBefore_pair_iff {tag : Tag} {role : Role} {left right : Tree} {kind : Kind}
    (joins : tag.role? = some role) (pairs : role ≠ .sequence) :
    (form tag [left, right]).StandsBefore kind <->
      kind.power.rank ≤ tag.reach ∧
        (right.endsOpen = true -> kind.power.rank ≤ Tag.semicolon.band) := by
  cases role with
  | sequence => exact absurd rfl pairs
  | binary =>
      rw [Tag.reach_of_binary joins, ← endsOpen_pair left right joins]
      constructor
      · intro stands
        exact ⟨stands.loose, stands.shut⟩
      · rintro ⟨loose, shut⟩
        exact ⟨loose, fun _ => joins, shut⟩
  | conditional =>
      have looser := Tag.semicolon_lt_band joins pairs
      have isOpen := endsOpen_conditional [left, right] joins
      rw [Tag.reach_of_conditional joins]
      constructor
      · intro stands
        exact ⟨stands.shut isOpen, fun _ => stands.shut isOpen⟩
      · rintro ⟨loose, _⟩
        exact standsBefore_of_tighter (Nat.lt_of_le_of_lt loose looser) fun _ => loose

/-- Only a form of the same role shares a band with a joining tag. -/
theorem role?_of_tie {tag : Tag} {role : Role} {tree : Tree} (joins : tag.role? = some role)
    (same : tag.band = tree.band) : tree.role? = some role := by
  have low := tag.sign.power_rank_le
  rw [Tag.power_sign joins] at low
  cases tree with
  | form other children => exact (Tag.role?_eq_of_band_eq same).symm.trans joins
  | ident name => simp only [band] at same; omega
  | int value => simp only [band] at same; omega
  | float value => simp only [band] at same; omega
  | string value => simp only [band] at same; omega

/-- The sign of anything but a semicolon is too tight for a conditional on the
right edge in front of it. -/
theorem shut_sign_iff {tag : Tag} {role : Role} {tree : Tree} (joins : tag.role? = some role) :
    (tree.endsOpen = true -> tag.sign.power.rank ≤ Tag.semicolon.band) <->
      (tag ≠ .semicolon -> tree.endsOpen = false) := by
  rw [Tag.power_sign joins]
  cases tree.endsOpen with
  | false => simp
  | true =>
      constructor
      · intro loose different
        exact absurd (loose rfl) (Nat.not_le.mpr (Tag.semicolon_lt_band_of_ne different))
      · intro closed _
        by_cases semicolon : tag = .semicolon
        · exact Nat.le_of_eq (congrArg Tag.band semicolon)
        · cases closed semicolon

theorem standsBefore_binary_iff {tag : Tag} {tree : Tree} (binary : tag.role? = some .binary) :
    tree.StandsBefore tag.sign <->
      tag.band ≤ tree.band ∧ (tag ≠ .semicolon -> tree.endsOpen = false) := by
  have sign := Tag.power_sign binary
  rw [← shut_sign_iff binary]
  constructor
  · intro stands
    exact ⟨sign ▸ stands.loose, stands.shut⟩
  · rintro ⟨loose, shut⟩
    exact ⟨sign ▸ loose, fun same => role?_of_tie binary (sign.symm.trans same), shut⟩

theorem standsBefore_strict_iff {tag : Tag} {role : Role} {tree : Tree}
    (joins : tag.role? = some role) (strict : role ≠ .binary) :
    tree.StandsBefore tag.sign <->
      tag.band < tree.band ∧ (tag ≠ .semicolon -> tree.endsOpen = false) := by
  have sign := Tag.power_sign joins
  rw [← shut_sign_iff joins]
  constructor
  · intro stands
    refine ⟨Nat.lt_of_le_of_ne (sign ▸ stands.loose) ?_, stands.shut⟩
    intro same
    have binary := stands.tie (sign.trans same)
    rw [role?_of_tie joins same] at binary
    cases binary
    exact strict rfl
  · rintro ⟨tighter, shut⟩
    exact standsBefore_of_tighter (sign ▸ tighter) shut

theorem arrangedPair_iff {tag : Tag} {left right : Tree} :
    ArrangedPair tag [left, right] <-> left.endsOpen = false ∧
      if tag.role? = some .binary then
        tag.band ≤ left.band ∧ tag.band < right.band
      else
        tag.band < left.band ∧ right.tag? ≠ some .semicolon := by
  constructor
  · rintro ⟨first, second, same, fits⟩
    cases same
    exact fits
  · intro fits
    exact ⟨left, right, rfl, fits⟩

/-- The children of a pair fit exactly when its sign may stand behind the left
one and the right one is within reach. -/
theorem arranged_pair_iff {tag : Tag} {role : Role} {left right : Tree}
    (joins : tag.role? = some role) (pairs : role ≠ .sequence) :
    (form tag [left, right]).Arranged <->
      left.StandsBefore tag.sign ∧ tag.reach < right.band := by
  have different : tag ≠ .semicolon := by
    intro same
    rw [same] at joins
    cases joins
    exact pairs rfl
  cases role with
  | sequence => exact absurd rfl pairs
  | binary =>
      have fits : (form tag [left, right]).Arranged <-> ArrangedPair tag [left, right] := by
        rw [Arranged, joins]
      rw [fits, arrangedPair_iff, if_pos joins, Tag.reach_of_binary joins,
        standsBefore_binary_iff joins]
      constructor
      · rintro ⟨closed, loose, tight⟩
        exact ⟨⟨loose, fun _ => closed⟩, tight⟩
      · rintro ⟨⟨loose, closed⟩, tight⟩
        exact ⟨closed different, loose, tight⟩
  | conditional =>
      have fits : (form tag [left, right]).Arranged <-> ArrangedPair tag [left, right] := by
        rw [Arranged, joins]
      have other : ¬ tag.role? = some .binary := by
        rw [joins]
        decide
      rw [fits, arrangedPair_iff, if_neg other, Tag.reach_of_conditional joins,
        standsBefore_strict_iff joins (by decide), tag?_ne_semicolon_iff]
      constructor
      · rintro ⟨closed, tight, inside⟩
        exact ⟨⟨tight, fun _ => closed⟩, inside⟩
      · rintro ⟨⟨tight, closed⟩, inside⟩
        exact ⟨closed different, tight, inside⟩

/-- Behind siblings only what is looser than their separator may stand. -/
theorem standsBefore_siblings_iff {tag : Tag} {front : List Tree} {last : Tree} {kind : Kind}
    (sequence : tag.role? = some .sequence) :
    (form tag (front ++ [last])).StandsBefore kind <->
      kind.power.rank < tag.band ∧
        (last.endsOpen = true -> kind.power.rank ≤ Tag.semicolon.band) := by
  have edge : (form tag (front ++ [last])).endsOpen = last.endsOpen := by
    rw [endsOpen_siblings _ sequence, lastEndsOpen_concat]
  constructor
  · intro stands
    refine ⟨Nat.lt_of_le_of_ne stands.loose ?_, edge ▸ stands.shut⟩
    intro same
    have binary : tag.role? = some .binary := stands.tie same
    rw [sequence] at binary
    cases binary
  · rintro ⟨tighter, shut⟩
    exact standsBefore_of_tighter tighter (edge ▸ shut)

/-- Siblings fit exactly when the separator may stand behind every one of them
but the last, and behind the last as well if it is the only one. -/
theorem arranged_siblings_iff {tag : Tag} {front : List Tree} {last : Tree}
    (sequence : tag.role? = some .sequence) :
    (form tag (front ++ [last])).Arranged <->
      (forall child, child ∈ front -> child.StandsBefore tag.sign) ∧ tag.band < last.band ∧
        (front = [] -> last.StandsBefore tag.sign) := by
  have fits : (form tag (front ++ [last])).Arranged <->
      ArrangedSiblings tag (front ++ [last]) := by
    rw [Arranged, sequence]
  have before : forall child : Tree, child.StandsBefore tag.sign <->
      tag.band < child.band ∧ (tag ≠ .semicolon -> child.endsOpen = false) :=
    fun child => standsBefore_strict_iff sequence (by decide)
  simp only [fits, ArrangedSiblings, before, List.dropLast_concat, List.mem_append,
    List.mem_singleton]
  constructor
  · rintro ⟨_, tight, closed⟩
    refine ⟨?_, tight last (Or.inr rfl), ?_⟩
    · intro child member
      exact ⟨tight child (Or.inl member), fun different => (closed different).1 child member⟩
    · intro alone
      refine ⟨tight last (Or.inr rfl), fun different => (closed different).2 last ?_⟩
      rw [alone, List.nil_append]
  · rintro ⟨early, tight, alone⟩
    refine ⟨by simp, ?_, ?_⟩
    · rintro child (member | same)
      · exact (early child member).1
      · exact same ▸ tight
    · intro different
      refine ⟨fun child member => (early child member).2 different, ?_⟩
      intro child single
      cases front with
      | nil =>
          cases single
          exact (alone rfl).2 different
      | cons first rest => simp at single

theorem band_pos (tree : Tree) : 0 < tree.band := by
  cases tree with
  | form tag children => exact Tag.band_pos tag
  | ident name => simp [band]
  | int value => simp [band]
  | float value => simp [band]
  | string value => simp [band]

/-- What is no operator may stand behind any tree. -/
theorem standsBefore_of_none {kind : Kind} (tree : Tree) (absent : Operator.ofKind? kind = none) :
    tree.StandsBefore kind := by
  have loosest : kind.power.rank = 0 := by
    rw [Kind.power_eq_loosest absent]
    rfl
  refine standsBefore_of_tighter ?_ fun _ => ?_
  · rw [loosest]
    exact tree.band_pos
  · rw [loosest]
    exact Nat.zero_le _

end Tree
end SignalScript
