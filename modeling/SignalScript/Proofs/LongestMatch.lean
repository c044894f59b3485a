import SignalScript.Proofs.Patterns

namespace SignalScript

/-!
The order in which lexemes are tried, and why it cannot cut one short.

The first class in the list whose pattern matches is chosen, and the classes behind it are not
asked.  A tokenizer that looks for the longest match would have to ask all of them.  Here both come
to the same, for two reasons.  Almost every character opens lexemes of one class only.  Where two
classes share a first character, as a comment and the division sign do, the class that takes more
stands in front.
-/

namespace Lexeme

/-- A lexeme of the class can start with this character. -/
def opens : Lexeme -> Char -> Bool
  | .blanks, c => Text.isBlank c
  | .comment, c => c == '/'
  | .word, c => startsWord c
  | .number, c => c.isDigit
  | .string, c => c == '\''
  | .fixed kind, c => kind.symbol.toList.head? == some c

/-- The classes that a character can open, in the order in which they are tried. -/
def openedBy (c : Char) : List Lexeme :=
  order.filter fun lexeme => lexeme.opens c

/-- The classes that share a first character, the one that takes more in front. -/
def rivals : List (Lexeme × Lexeme) :=
  [(.comment, .fixed .slash), (.fixed .plusAssign, .fixed .plus)]

/-! ## First characters -/

theorem order_nodup : order.Nodup := by
  decide

theorem opens_of_pos {lexeme : Lexeme} {c : Char} {rest : List Char}
    (positive : 0 < lexeme.width (c :: rest)) : lexeme.opens c = true := by
  cases lexeme with
  | blanks => exact (blanks_pos_iff c rest).mp positive
  | comment =>
      rcases comment_width_eq positive with ⟨_, same, _⟩
      cases same
      rfl
  | word => exact (word_pos_iff c rest).mp positive
  | number => exact (number_pos_iff c rest).mp positive
  | string => exact beq_iff_eq.mpr ((string_pos_iff c rest).mp positive).1
  | fixed kind =>
      rcases (fixed_pos_iff kind _).mp positive with ⟨later, same⟩
      have first := congrArg List.head? same
      rw [List.head?_append_of_ne_nil _ (symbol_ne_nil kind)] at first
      exact beq_iff_eq.mpr first

/-- Each of the first 128 characters opens one class at most, or two rivals. -/
theorem openedBy_of_lt : forall code, code < 128 ->
    (openedBy (Char.ofNat code)).length ≤ 1 ∨
      exists pair, pair ∈ rivals ∧ openedBy (Char.ofNat code) = [pair.1, pair.2] := by
  decide +kernel

/-- Any other character opens blanks or nothing. -/
theorem eq_blanks_of_opens {lexeme : Lexeme} {c : Char} (wide : 128 ≤ c.toNat)
    (opened : lexeme.opens c = true) : lexeme = .blanks := by
  have narrow : continuesWord c = false := by
    by_contra continues
    have small := Text.toNat_lt_of_continuesWord (Bool.eq_true_of_not_eq_false continues)
    omega
  cases lexeme with
  | blanks => rfl
  | comment =>
      cases beq_iff_eq.mp opened
      exact absurd wide (by decide)
  | word =>
      have starts : startsWord c = true := opened
      rw [Text.continuesWord_of_startsWord starts] at narrow
      cases narrow
  | number =>
      have digit : c.isDigit = true := opened
      rw [continuesWord, Char.isAlphanum, digit, Bool.or_true, Bool.true_or] at narrow
      cases narrow
  | string =>
      cases beq_iff_eq.mp opened
      exact absurd wide (by decide)
  | fixed kind =>
      have first : kind.symbol.toList.head? = some c := beq_iff_eq.mp opened
      cases kind <;> cases first <;> exact absurd wide (by decide)

/-- Two classes that a character opens are the same, or they are rivals. -/
theorem eq_or_rivals_of_opens {first second : Lexeme} {c : Char} (firstListed : first ∈ order)
    (secondListed : second ∈ order) (firstOpens : first.opens c = true)
    (secondOpens : second.opens c = true) :
    first = second ∨ (first, second) ∈ rivals ∨ (second, first) ∈ rivals := by
  by_cases wide : 128 ≤ c.toNat
  · exact Or.inl
      ((eq_blanks_of_opens wide firstOpens).trans (eq_blanks_of_opens wide secondOpens).symm)
  · have firstMember : first ∈ openedBy c := List.mem_filter.mpr ⟨firstListed, firstOpens⟩
    have secondMember : second ∈ openedBy c := List.mem_filter.mpr ⟨secondListed, secondOpens⟩
    have known := openedBy_of_lt c.toNat (Nat.lt_of_not_le wide)
    rw [Char.ofNat_toNat] at known
    rcases known with single | ⟨pair, listed, same⟩
    · have some := List.length_pos_of_mem firstMember
      rcases List.length_eq_one_iff.mp (Nat.le_antisymm single some) with ⟨only, same⟩
      rw [same, List.mem_singleton] at firstMember secondMember
      exact Or.inl (firstMember.trans secondMember.symm)
    · rw [same] at firstMember secondMember
      simp only [List.mem_cons, List.not_mem_nil, or_false] at firstMember secondMember
      rcases firstMember with rfl | rfl <;> rcases secondMember with rfl | rfl
      · exact Or.inl rfl
      · exact Or.inr (Or.inl listed)
      · exact Or.inr (Or.inr listed)
      · exact Or.inl rfl

/-- The first of two rivals is chosen wherever it matches, and it takes more than the second. -/
theorem first?_of_rival {long short : Lexeme} {text : List Char} (listed : (long, short) ∈ rivals)
    (positive : 0 < long.width text) :
    first? text = some long ∧ short.width text < long.width text := by
  simp only [rivals, List.mem_cons, Prod.mk.injEq, List.not_mem_nil, or_false] at listed
  rcases listed with ⟨rfl, rfl⟩ | ⟨rfl, rfl⟩
  · refine ⟨first?_of_comment positive, ?_⟩
    rcases comment_width_eq positive with ⟨rest, rfl, same⟩
    have one : (fixed .slash).width ('/' :: '/' :: rest) = 1 := rfl
    omega
  · rcases (fixed_pos_iff _ _).mp positive with ⟨rest, rfl⟩
    have two : (fixed .plusAssign).width ('+' :: '=' :: rest) = 2 := rfl
    exact ⟨rfl, Nat.lt_of_lt_of_eq (by decide : 1 < 2) two.symm⟩

/-- Every other class takes less than the one that is chosen. -/
theorem width_lt_of_first? {lexeme other : Lexeme} {text : List Char}
    (chosen : first? text = some lexeme) (listed : other ∈ order) (different : other ≠ lexeme) :
    other.width text < lexeme.width text := by
  have positive := width_pos_of_first? chosen
  by_cases some : 0 < other.width text
  · have short := width_le_length lexeme text
    cases text with
    | nil => exact absurd (Nat.lt_of_lt_of_le positive short) (Nat.lt_irrefl 0)
    | cons c rest =>
        rcases eq_or_rivals_of_opens (mem_order_of_first? chosen) listed (opens_of_pos positive)
          (opens_of_pos some) with same | front | behind
        · exact absurd same.symm different
        · exact (first?_of_rival front positive).2
        · cases chosen.symm.trans (first?_of_rival behind some).1
          exact absurd rfl different
  · omega

end Lexeme

/-- The first class in the list whose pattern matches is the one that is chosen.  It takes at least
one character, and every class behind it whose pattern matches takes fewer.  It takes the longest of
all fronts of the text that any pattern describes, and no other class has one as long. -/
theorem first_match_longest {text : List Char} {earlier later : List Lexeme} {lexeme : Lexeme}
    {length : Nat} (table : Lexeme.order = earlier ++ lexeme :: later)
    (absent : forall other, other ∈ earlier -> other.pattern.length? text = none)
    (found : lexeme.pattern.length? text = some length) :
    Lexeme.first? text = some lexeme ∧ lexeme.width text = length ∧ 1 ≤ length ∧
    (forall other shorter, other ∈ later -> other.pattern.length? text = some shorter ->
      shorter < length) ∧
    forall other front behind, other ∈ Lexeme.order -> text = front ++ behind ->
      other.pattern.Describes front ->
        front.length ≤ length ∧ (front.length = length -> other = lexeme) := by
  rcases Lexeme.length?_eq_some_iff.mp found with ⟨positive, rfl⟩
  have chosen : Lexeme.first? text = some lexeme := by
    rw [Lexeme.first?, List.find?_eq_some_iff_append]
    refine ⟨decide_eq_true positive, earlier, later, table, ?_⟩
    intro other member
    rw [Lexeme.length?_eq_none_iff.mp (absent other member)]
    rfl
  refine ⟨chosen, rfl, positive, ?_, ?_⟩
  · intro other shorter member foundToo
    have once : lexeme ∉ later := by
      have distinct : (earlier ++ lexeme :: later).Nodup := table ▸ Lexeme.order_nodup
      exact (List.nodup_cons.mp distinct.of_append_right).1
    have listed : other ∈ Lexeme.order := by simp [table, member]
    rw [← (Lexeme.length?_eq_some_iff.mp foundToo).2]
    exact Lexeme.width_lt_of_first? chosen listed fun same => once (same ▸ member)
  · rintro other front behind listed rfl described
    have within := (Lexeme.le_width_of_describes behind described).2
    by_cases same : other = lexeme
    · exact ⟨same ▸ within, fun _ => same⟩
    · have less := Lexeme.width_lt_of_first? chosen listed same
      exact ⟨by omega, fun equal => by omega⟩

/-- A comment is not cut after its first slash, although the division sign matches there. -/
theorem first_match_longest_comment :
    Lexeme.order = [.blanks] ++ .comment :: Lexeme.order.drop 2 ∧
    (forall other, other ∈ [Lexeme.blanks] ->
      other.pattern.length? "// 'é'\n/".toList = none) ∧
    Lexeme.comment.pattern.length? "// 'é'\n/".toList = some 6 ∧
    Lexeme.first? "// 'é'\n/".toList = some .comment ∧
    exists shorter, (Lexeme.fixed .slash).pattern.length? "// 'é'\n/".toList = some shorter ∧
      shorter < 6 := by
  have table : Lexeme.order = [.blanks] ++ .comment :: Lexeme.order.drop 2 := rfl
  have absent : forall other, other ∈ [Lexeme.blanks] ->
      other.pattern.length? "// 'é'\n/".toList = none := by decide
  have found : Lexeme.comment.pattern.length? "// 'é'\n/".toList = some 6 := by decide
  have rival : (Lexeme.fixed .slash).pattern.length? "// 'é'\n/".toList = some 1 := by decide
  rcases first_match_longest table absent found with ⟨chosen, _, _, shorter, _⟩
  exact ⟨table, absent, found, chosen, 1, rival, shorter _ _ (by decide) rival⟩

end SignalScript
