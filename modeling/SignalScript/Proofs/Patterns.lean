import SignalScript.Proofs.Unreadable

namespace SignalScript

/-!
Patterns: what lexemes look like, apart from how they are measured.

A pattern describes texts.  Searched for at the front of a longer text it can match in several
ways, and these are tried in a fixed order: a run goes as far as it can before it gives characters
back, and a part that may be missing is tried first.  The first way that leads through the whole
pattern is the match, whether or not it is the longest.

The width of a class is the length of the match of its pattern.  Moreover that match is the longest
one.  Neither follows from the order of the ways alone, so both are shown class by class.
-/

/-- A pattern of characters. -/
inductive Pattern where
  | nothing
  | one (holds : Char -> Bool)
  | many (holds : Char -> Bool)
  | perhaps (part : Pattern)
  | followed (first second : Pattern)

namespace Pattern

/-- The pattern describes the whole of a text. -/
def Describes : Pattern -> List Char -> Prop
  | .nothing, text => text = []
  | .one holds, text => exists c, text = [c] ∧ holds c = true
  | .many holds, text => forall c, c ∈ text -> holds c = true
  | .perhaps part, text => part.Describes text ∨ text = []
  | .followed first second, text =>
      exists front back, text = front ++ back ∧ first.Describes front ∧ second.Describes back

/-- What a run can leave of a text.  At first it takes as much as it can, and then it gives back
one character after another. -/
def leftByRun (holds : Char -> Bool) : List Char -> List (List Char)
  | [] => [[]]
  | c :: rest => if holds c then leftByRun holds rest ++ [c :: rest] else [c :: rest]

/-- What the ways to match a pattern at the front leave of a text, in the order in which they are
tried. -/
def left : Pattern -> List Char -> List (List Char)
  | .nothing, text => [text]
  | .one _, [] => []
  | .one holds, c :: rest => if holds c then [rest] else []
  | .many holds, text => leftByRun holds text
  | .perhaps part, text => part.left text ++ [text]
  | .followed first second, text => (first.left text).flatMap second.left

/-- The length of the match at the front of a text, which is the first of the ways. -/
def length? (pattern : Pattern) (text : List Char) : Option Nat :=
  (pattern.left text).head?.map fun rest => text.length - rest.length

/-- The pattern of a single text. -/
def spelling (text : List Char) : Pattern :=
  text.foldr (fun c rest => .followed (.one (· == c)) rest) .nothing

/-! ## Ways to match -/

theorem mem_leftByRun_iff {holds : Char -> Bool} {text rest : List Char} :
    rest ∈ leftByRun holds text <->
      exists front, text = front ++ rest ∧ forall c, c ∈ front -> holds c = true := by
  induction text with
  | nil =>
      rw [leftByRun, List.mem_singleton]
      constructor
      · rintro rfl
        exact ⟨[], rfl, nofun⟩
      · rintro ⟨front, same, _⟩
        exact (List.append_eq_nil_iff.mp same.symm).2
  | cons c text inductionHypothesis =>
      constructor
      · intro member
        unfold leftByRun at member
        split at member
        next within =>
          rcases List.mem_append.mp member with further | here
          · rcases inductionHypothesis.mp further with ⟨front, rfl, all⟩
            exact ⟨c :: front, rfl, List.forall_mem_cons.mpr ⟨within, all⟩⟩
          · exact ⟨[], (List.mem_singleton.mp here).symm, nofun⟩
        next => exact ⟨[], (List.mem_singleton.mp member).symm, nofun⟩
      · rintro ⟨front, same, all⟩
        unfold leftByRun
        cases front with
        | nil =>
            rw [List.nil_append] at same
            split <;> simp [same]
        | cons d front =>
            cases same
            rcases List.forall_mem_cons.mp all with ⟨within, rest⟩
            rw [if_pos within]
            exact List.mem_append_left _ (inductionHypothesis.mpr ⟨front, rfl, rest⟩)

/-- The ways to match a pattern are the splits of the text whose front it describes. -/
theorem mem_left_iff {pattern : Pattern} {text rest : List Char} :
    rest ∈ pattern.left text <-> exists front, text = front ++ rest ∧ pattern.Describes front := by
  induction pattern generalizing text rest with
  | nothing =>
      rw [left, List.mem_singleton]
      constructor
      · rintro rfl
        exact ⟨[], rfl, rfl⟩
      · rintro ⟨front, rfl, rfl⟩
        rfl
  | one holds =>
      cases text with
      | nil =>
          constructor
          · intro member
            cases member
          · rintro ⟨_, same, c, rfl, _⟩
            cases same
      | cons c text =>
          rw [left]
          constructor
          · intro member
            split at member
            next within => exact ⟨[c], by rw [List.mem_singleton.mp member]; rfl, c, rfl, within⟩
            next => cases member
          · rintro ⟨_, same, d, rfl, within⟩
            cases same
            rw [if_pos within]
            exact List.mem_singleton_self _
  | many holds => exact mem_leftByRun_iff
  | perhaps part inductionHypothesis =>
      rw [left, List.mem_append, inductionHypothesis, List.mem_singleton]
      constructor
      · rintro (⟨front, same, described⟩ | rfl)
        · exact ⟨front, same, Or.inl described⟩
        · exact ⟨[], rfl, Or.inr rfl⟩
      · rintro ⟨front, rfl, described | rfl⟩
        · exact Or.inl ⟨front, rfl, described⟩
        · exact Or.inr rfl
  | followed first second firstHypothesis secondHypothesis =>
      rw [left, List.mem_flatMap]
      constructor
      · rintro ⟨middle, reached, member⟩
        rcases firstHypothesis.mp reached with ⟨front, rfl, described⟩
        rcases secondHypothesis.mp member with ⟨back, rfl, describedToo⟩
        exact ⟨front ++ back, (List.append_assoc _ _ _).symm, front, back, rfl, described,
          describedToo⟩
      · rintro ⟨_, rfl, front, back, rfl, described, describedToo⟩
        exact ⟨back ++ rest, firstHypothesis.mpr ⟨front, List.append_assoc _ _ _, described⟩,
          secondHypothesis.mpr ⟨back, rfl, describedToo⟩⟩

/-- Nothing is found exactly where the pattern describes no front of the text. -/
theorem length?_eq_none_iff {pattern : Pattern} {text : List Char} :
    pattern.length? text = none <->
      forall front rest, text = front ++ rest -> ¬ pattern.Describes front := by
  rw [length?, Option.map_eq_none_iff, List.head?_eq_none_iff, List.eq_nil_iff_forall_not_mem]
  constructor
  · intro absent front rest same described
    exact absent rest (mem_left_iff.mpr ⟨front, same, described⟩)
  · intro none rest member
    rcases mem_left_iff.mp member with ⟨front, same, described⟩
    exact none front rest same described

/-! ## The first way -/

/-- A run first goes as far as it can. -/
theorem head?_leftByRun (holds : Char -> Bool) (text : List Char) :
    (leftByRun holds text).head? = some (text.dropWhile holds) := by
  induction text with
  | nil => rfl
  | cons c text inductionHypothesis =>
      unfold leftByRun
      split
      next within =>
        rw [List.head?_append, inductionHypothesis, List.dropWhile_cons_of_pos within]
        rfl
      next outside =>
        rw [List.dropWhile_cons_of_neg outside]
        rfl

/-- The second part is first tried behind the first way through the first part. -/
theorem head?_followed {first second : Pattern} {text middle rest : List Char}
    (front : (first.left text).head? = some middle)
    (back : (second.left middle).head? = some rest) :
    ((followed first second).left text).head? = some rest := by
  rcases List.head?_eq_some_iff.mp front with ⟨others, ways⟩
  rw [left, ways, List.flatMap_cons, List.head?_append, back]
  rfl

theorem head?_one {holds : Char -> Bool} {c : Char} (within : holds c = true) (rest : List Char) :
    ((one holds).left (c :: rest)).head? = some rest := by
  rw [left, if_pos within]
  rfl

theorem head?_spelling (text rest : List Char) :
    ((spelling text).left (text ++ rest)).head? = some rest := by
  induction text with
  | nil => rfl
  | cons c text inductionHypothesis =>
      exact head?_followed (head?_one (beq_self_eq_true c) _) inductionHypothesis

theorem describes_spelling_iff {text front : List Char} :
    (spelling text).Describes front <-> front = text := by
  induction text generalizing front with
  | nil => exact Iff.rfl
  | cons c text inductionHypothesis =>
      constructor
      · rintro ⟨_, back, rfl, ⟨d, rfl, same⟩, described⟩
        rw [beq_iff_eq.mp same, inductionHypothesis.mp described]
        rfl
      · rintro rfl
        exact ⟨[c], text, rfl, ⟨c, rfl, beq_self_eq_true c⟩, inductionHypothesis.mpr rfl⟩

end Pattern

namespace Lexeme

open Pattern

/-- A run of at least one digit. -/
def digits : Pattern :=
  .followed (.one Char.isDigit) (.many Char.isDigit)

/-- The pattern of a class. -/
def pattern : Lexeme -> Pattern
  | .blanks => .followed (.one Text.isBlank) (.many Text.isBlank)
  | .comment => .followed (spelling ['/', '/']) (.many (· != '\n'))
  | .word => .followed (.one startsWord) (.many continuesWord)
  | .number => .followed digits (.perhaps (.followed (spelling ['.']) digits))
  | .string => .followed (spelling ['\'']) (.followed (.many (· != '\'')) (spelling ['\'']))
  | .fixed kind => spelling kind.symbol.toList

/-! ## No way is longer -/

theorem le_run {holds : Char -> Bool} {front : List Char} (rest : List Char)
    (within : forall c, c ∈ front -> holds c = true) : front.length ≤ run holds (front ++ rest) := by
  rw [run, List.takeWhile_append_of_pos within, List.length_append]
  exact Nat.le_add_right _ _

theorem describes_digits_iff {text : List Char} : digits.Describes text <-> IsDigits text := by
  constructor
  · rintro ⟨_, back, rfl, ⟨c, rfl, first⟩, all⟩
    exact ⟨List.cons_ne_nil _ _, List.forall_mem_cons.mpr ⟨first, all⟩⟩
  · rintro ⟨some, all⟩
    rcases List.exists_cons_of_ne_nil some with ⟨c, back, rfl⟩
    rcases List.forall_mem_cons.mp all with ⟨first, later⟩
    exact ⟨[c], back, rfl, ⟨c, rfl, first⟩, later⟩

theorem symbol_ne_nil (kind : Kind) : kind.symbol.toList ≠ [] := by
  cases kind <;> decide

theorem width_number_of_digits {whole : List Char} (rest : List Char) (isWhole : IsDigits whole) :
    whole.length ≤ number.width (whole ++ rest) := by
  have long := le_run rest isWhole.2
  have some := List.length_pos_iff.mpr isWhole.1
  rw [width, if_neg (by omega)]
  omega

theorem width_number_of_point {whole places : List Char} (rest : List Char)
    (isWhole : IsDigits whole) (isPlaces : IsDigits places) :
    (whole ++ '.' :: places).length ≤ number.width (whole ++ '.' :: places ++ rest) := by
  have exact : run Char.isDigit (whole ++ '.' :: (places ++ rest)) = whole.length := by
    apply run_exact isWhole.2
    rintro c ⟨⟩
    decide
  have some := List.length_pos_iff.mpr isWhole.1
  have more := List.length_pos_iff.mpr isPlaces.1
  have long := le_run rest isPlaces.2
  rw [List.append_assoc, List.cons_append, width, exact, if_neg (by omega), List.drop_left,
    fractionWidth, if_neg (by omega), List.length_append, List.length_cons]
  omega

/-- A class takes at least as much as any front of the text that its pattern describes. -/
theorem le_width_of_describes {lexeme : Lexeme} {front : List Char} (rest : List Char)
    (described : lexeme.pattern.Describes front) :
    0 < front.length ∧ front.length ≤ lexeme.width (front ++ rest) := by
  cases lexeme with
  | blanks =>
      rcases described with ⟨_, back, rfl, ⟨c, rfl, first⟩, all⟩
      exact ⟨Nat.succ_pos _, le_run rest (List.forall_mem_cons.mpr ⟨first, all⟩)⟩
  | comment =>
      rcases described with ⟨slashes, back, rfl, isSlashes, all⟩
      cases describes_spelling_iff.mp isSlashes
      have long := le_run rest all
      refine ⟨Nat.succ_pos _, ?_⟩
      rw [List.cons_append, List.cons_append, List.nil_append, List.cons_append, List.cons_append,
        width, List.length_cons, List.length_cons]
      omega
  | word =>
      rcases described with ⟨_, back, rfl, ⟨c, rfl, first⟩, all⟩
      have long := le_run rest all
      refine ⟨Nat.succ_pos _, ?_⟩
      rw [List.cons_append, List.nil_append, List.cons_append, width, if_pos first,
        List.length_cons]
      omega
  | number =>
      rcases described with ⟨whole, back, rfl, isWhole, fraction⟩
      have isWhole := describes_digits_iff.mp isWhole
      have some := List.length_pos_iff.mpr isWhole.1
      refine ⟨by rw [List.length_append]; omega, ?_⟩
      rcases fraction with ⟨point, places, rfl, isPoint, isPlaces⟩ | rfl
      · cases describes_spelling_iff.mp isPoint
        exact width_number_of_point rest isWhole (describes_digits_iff.mp isPlaces)
      · rw [List.append_nil]
        exact width_number_of_digits rest isWhole
  | string =>
      rcases described with ⟨opening, _, rfl, isOpening, contents, closing, rfl, all, isClosing⟩
      cases describes_spelling_iff.mp isOpening
      cases describes_spelling_iff.mp isClosing
      have exact : run (· != '\'') (contents ++ '\'' :: rest) = contents.length := by
        apply run_exact all
        rintro c ⟨⟩
        decide
      refine ⟨Nat.succ_pos _, ?_⟩
      rw [List.cons_append, List.nil_append, List.cons_append, List.append_assoc, width]
      simp [exact]
  | fixed kind =>
      cases describes_spelling_iff.mp described
      refine ⟨List.length_pos_iff.mpr (symbol_ne_nil kind), ?_⟩
      rw [width, if_pos (List.isPrefixOf_iff_prefix.mpr (List.prefix_append _ _))]

/-! ## The first way is the width -/

theorem head?_digits {text : List Char} (some : run Char.isDigit text ≠ 0) :
    (digits.left text).head? = .some (text.dropWhile Char.isDigit) := by
  cases text with
  | nil => exact absurd rfl some
  | cons c rest =>
      have digit : c.isDigit = true := by
        by_contra other
        exact some (by simp [run, other])
      rw [List.dropWhile_cons_of_pos digit]
      exact head?_followed (head?_one digit rest) (head?_leftByRun _ _)

/-- What a number leaves depends on whether places follow the point. -/
theorem head?_fraction (text : List Char) :
    ((Pattern.perhaps (.followed (spelling ['.']) digits)).left text).head? =
      some (text.drop (fractionWidth text)) := by
  rw [left, List.head?_append]
  by_cases whole : fractionWidth text = 0
  · have none : (Pattern.followed (spelling ['.']) digits).left text = [] := by
      rw [List.eq_nil_iff_forall_not_mem]
      intro rest member
      rcases mem_left_iff.mp member with ⟨_, rfl, point, places, rfl, isPoint, isPlaces⟩
      cases describes_spelling_iff.mp isPoint
      have isPlaces := describes_digits_iff.mp isPlaces
      have long := le_run rest isPlaces.2
      have some := List.length_pos_iff.mpr isPlaces.1
      rw [List.append_assoc, List.cons_append, List.nil_append, fractionWidth,
        if_neg (by omega)] at whole
      omega
    rw [none, whole]
    rfl
  · rcases fractionWidth_eq whole with ⟨places, rfl, more, same⟩
    have found : ((Pattern.followed (spelling ['.']) digits).left ('.' :: places)).head? =
        some (places.dropWhile Char.isDigit) :=
      head?_followed (head?_spelling ['.'] places) (head?_digits more)
    rw [found, same, List.drop_succ_cons, drop_run]
    rfl

/-- Behind a lexeme stands what the match of its pattern leaves. -/
theorem head?_pattern {lexeme : Lexeme} {text : List Char} (positive : 0 < lexeme.width text) :
    (lexeme.pattern.left text).head? = some (text.drop (lexeme.width text)) := by
  cases lexeme with
  | blanks =>
      cases text with
      | nil => cases positive
      | cons c rest =>
          have first := (blanks_pos_iff c rest).mp positive
          rw [width, drop_run, List.dropWhile_cons_of_pos first]
          exact head?_followed (head?_one first rest) (head?_leftByRun _ _)
  | comment =>
      rcases comment_width_eq positive with ⟨rest, rfl, same⟩
      rw [same, List.drop_succ_cons, List.drop_succ_cons, drop_run]
      exact head?_followed (head?_spelling ['/', '/'] rest) (head?_leftByRun _ _)
  | word =>
      cases text with
      | nil => cases positive
      | cons c rest =>
          have first := (word_pos_iff c rest).mp positive
          rw [width, if_pos first, Nat.add_comm, List.drop_succ_cons, drop_run]
          exact head?_followed (head?_one first rest) (head?_leftByRun _ _)
  | number =>
      have some : run Char.isDigit text ≠ 0 := by
        intro none
        simp [width, none] at positive
      rw [width, if_neg some, ← List.drop_drop, drop_run]
      exact head?_followed (head?_digits some) (head?_fraction _)
  | string =>
      rcases take_string positive with ⟨contents, taken⟩
      have unquoted := quote_not_mem_value positive
      have whole := List.take_append_drop (string.width text) text
      generalize text.drop (string.width text) = later at whole ⊢
      rw [taken] at unquoted whole
      have closes : (contents ++ '\'' :: later).dropWhile (· != '\'') = '\'' :: later := by
        rw [List.dropWhile_append_of_pos, List.dropWhile_cons_of_neg (by decide)]
        intro c member
        rw [bne_iff_ne]
        rintro rfl
        exact unquoted (by simpa [value] using member)
      have inner : ((Pattern.many (· != '\'')).left (contents ++ '\'' :: later)).head? =
          some ('\'' :: later) := by
        rw [left, head?_leftByRun, closes]
      rw [← whole, List.append_assoc]
      exact head?_followed (head?_spelling ['\''] _)
        (head?_followed inner (head?_spelling ['\''] later))
  | fixed kind =>
      rcases (fixed_pos_iff kind text).mp positive with ⟨rest, rfl⟩
      rw [width, if_pos (List.isPrefixOf_iff_prefix.mpr (List.prefix_append _ _)), List.drop_left]
      exact head?_spelling _ _

/-- The width of a class is the length of the match of its pattern. -/
theorem length?_pattern (lexeme : Lexeme) (text : List Char) :
    lexeme.pattern.length? text =
      if 0 < lexeme.width text then some (lexeme.width text) else none := by
  split
  next positive =>
    have short := width_le_length lexeme text
    rw [length?, head?_pattern positive, Option.map_some, List.length_drop,
      Nat.sub_sub_self short]
  next absent =>
    rw [Pattern.length?_eq_none_iff]
    rintro front rest rfl described
    have long := le_width_of_describes rest described
    omega

theorem length?_eq_some_iff {lexeme : Lexeme} {text : List Char} {length : Nat} :
    lexeme.pattern.length? text = some length <-> 0 < length ∧ lexeme.width text = length := by
  rw [length?_pattern]
  split
  next positive =>
    rw [Option.some.injEq]
    constructor
    · rintro rfl
      exact ⟨positive, rfl⟩
    · exact And.right
  next absent =>
    constructor
    · intro same
      cases same
    · rintro ⟨positive, rfl⟩
      exact absurd positive absent

theorem length?_eq_none_iff {lexeme : Lexeme} {text : List Char} :
    lexeme.pattern.length? text = none <-> lexeme.width text = 0 := by
  rw [length?_pattern]
  split
  next positive => simp only [reduceCtorEq, Nat.ne_of_gt positive]
  next absent => simp only [Nat.eq_zero_of_not_pos absent]

end Lexeme
end SignalScript
