import SignalScript.Proofs.Enclosure
import SignalScript.Proofs.Joined

namespace SignalScript

/-!
How deep a tree can be.

A level of nesting lets a tree grow in two ways.  A left operand stands on the level of its
form, but it belongs to a tighter band, and there are only nine bands.  A left operand of the
same band is the exception: binary forms of one band are folded into each other from the left,
as many as there are signs.  Such a chain is the only way to a tree whose depth is not bounded
by the limit on nesting, and the longest chain of a tree says by how much.
-/

namespace Tree

/-- The number of binary forms of one band that lie on each other's left, counted from the
root.  Any other tree is a chain of its own. -/
def chain : Tree -> Nat
  | .form tag [left, _] =>
      if tag.role? = some .binary ∧ left.band = tag.band then left.chain + 1 else 1
  | _ => 1

/-- The length of the longest chain in a tree. -/
def longestChain (tree : Tree) : Nat :=
  tree.preorder.foldr (fun node most => max node.chain most) 0

theorem chain_pos (tree : Tree) : 0 < tree.chain := by
  fun_cases chain tree with
  | case1 tag left right folded => exact Nat.succ_pos _
  | case2 tag left right other => exact Nat.one_pos
  | case3 => exact Nat.one_pos

theorem chain_le_longest (tree : Tree) :
    tree.Everywhere fun node => node.chain ≤ tree.longestChain := by
  intro node member
  rw [longestChain]
  generalize tree.preorder = nodes at member
  induction nodes with
  | nil => cases member
  | cons first rest inductionHypothesis =>
      rw [List.foldr_cons]
      rcases List.mem_cons.mp member with rfl | later
      · exact Nat.le_max_left _ _
      · exact Nat.le_trans (inductionHypothesis later) (Nat.le_max_right _ _)

/-- Every form has fitting children, and no chain has more than `width` forms. -/
def Narrow (width : Nat) (tree : Tree) : Prop :=
  tree.Everywhere fun node => node.Arranged ∧ node.chain ≤ width

namespace Narrow

theorem root {width : Nat} {tree : Tree} (narrow : tree.Narrow width) :
    tree.Arranged ∧ tree.chain ≤ width := by
  cases tree with
  | form tag children => exact (everywhere_form_iff.mp narrow).1
  | ident name => exact (everywhere_atom_iff rfl).mp narrow
  | int value => exact (everywhere_atom_iff rfl).mp narrow
  | float value => exact (everywhere_atom_iff rfl).mp narrow
  | string value => exact (everywhere_atom_iff rfl).mp narrow

theorem child {width : Nat} {tag : Tag} {children : List Tree} {child : Tree}
    (narrow : (form tag children).Narrow width) (member : child ∈ children) :
    child.Narrow width :=
  (everywhere_form_iff.mp narrow).2 child member

end Narrow

theorem greatestDepth_le {children : List Tree} {bound : Nat}
    (each : forall child, child ∈ children -> child.depth ≤ bound) :
    greatestDepth children ≤ bound := by
  induction children with
  | nil => exact Nat.zero_le _
  | cons child later inductionHypothesis =>
      rw [greatestDepth]
      refine Nat.max_le.mpr ⟨each child List.mem_cons_self, inductionHypothesis ?_⟩
      intro other member
      exact each other (List.mem_cons_of_mem _ member)

theorem depth_of_isAtom {tree : Tree} (atom : tree.isAtom = true) : tree.depth = 1 := by
  cases tree with
  | form tag children => cases atom
  | ident name => rfl
  | int value => rfl
  | float value => rfl
  | string value => rfl

end Tree

theorem Tag.band_le (tag : Tag) : tag.band ≤ 9 := by
  cases tag <;> decide

/-! ## The room for depth -/

namespace Tree

/-- A tree with chains of at most `width` forms keeps its place among the ten times `width`
nodes that every level has room for: nine bands of forms, and an atom.  The looser its band,
the more of them it may use up, and `extra` is what the chain at its root adds. -/
def Fits (width levels extra band : Nat) (tree : Tree) : Prop :=
  tree.depth + band * width ≤ levels * (10 * width) + extra

section
variable {width levels : Nat} {tag : Tag} {child : Tree}

/-- A child in a tighter band, on the same level. -/
theorem Narrow.fits_of_tighter {deeper : Nat} (narrow : child.Narrow width)
    (fits : child.Fits width levels child.chain child.band) (le : levels ≤ deeper)
    (tighter : tag.band < child.band) : child.Fits width deeper 0 tag.band := by
  have short := narrow.root.2
  have room : levels * (10 * width) ≤ deeper * (10 * width) := Nat.mul_le_mul_right _ le
  have step : (tag.band + 1) * width ≤ child.band * width := Nat.mul_le_mul_right _ tighter
  rw [Nat.succ_mul] at step
  unfold Fits at *
  omega

/-- A child in any band, one level below. -/
theorem Narrow.fits_of_below {deeper : Nat} (narrow : child.Narrow width)
    (fits : child.Fits width levels child.chain child.band) (lt : levels < deeper) :
    child.Fits width deeper 0 tag.band := by
  have short := narrow.root.2
  have room : (levels + 1) * (10 * width) ≤ deeper * (10 * width) := Nat.mul_le_mul_right _ lt
  have step : 1 * width ≤ child.band * width := Nat.mul_le_mul_right _ child.band_pos
  have loose : tag.band * width ≤ 9 * width := Nat.mul_le_mul_right _ tag.band_le
  rw [Nat.succ_mul] at room
  unfold Fits at *
  omega

theorem Fits.mono {deeper extra more band : Nat} (fits : child.Fits width levels extra band)
    (le : levels ≤ deeper) (fewer : extra ≤ more) : child.Fits width deeper more band := by
  have room : levels * (10 * width) ≤ deeper * (10 * width) := Nat.mul_le_mul_right _ le
  unfold Fits at *
  omega

/-- A form has one node more than its children. -/
theorem fits_form {children : List Tree} {extra more : Nat} (positive : 0 < levels)
    (fewer : extra < more)
    (each : forall child, child ∈ children -> child.Fits width levels extra tag.band) :
    (form tag children).Fits width levels more tag.band := by
  have room : 1 * (10 * width) ≤ levels * (10 * width) := Nat.mul_le_mul_right _ positive
  have loose : tag.band * width ≤ 9 * width := Nat.mul_le_mul_right _ tag.band_le
  have below : greatestDepth children ≤
      levels * (10 * width) + extra - tag.band * width := by
    apply greatestDepth_le
    intro child member
    have fits := each child member
    unfold Fits at fits
    omega
  rw [Fits, depth]
  omega

theorem fits_single (positive : 0 < levels) (fits : child.Fits width levels 0 tag.band) :
    (form tag [child]).Fits width levels (form tag [child]).chain tag.band := by
  refine fits_form positive (chain_pos _) ?_
  intro other member
  rw [List.mem_singleton.mp member]
  exact fits

/-- An atom is one node, which a level has room for beside nine bands. -/
theorem fits_atom {extra band : Nat} (atom : child.isAtom = true) (positive : 0 < levels)
    (loose : band ≤ 9) (room : 0 < width + extra) : child.Fits width levels extra band := by
  have most : 1 * (10 * width) ≤ levels * (10 * width) := Nat.mul_le_mul_right _ positive
  have bands : band * width ≤ 9 * width := Nat.mul_le_mul_right _ loose
  rw [Fits, depth_of_isAtom atom]
  omega

end
end Tree

theorem Sibling.levels_lt_deepest (first : Nat) {siblings : List Sibling} {sibling : Sibling}
    (member : sibling ∈ siblings) : sibling.levels < deepest first siblings := by
  induction siblings with
  | nil => cases member
  | cons other later inductionHypothesis =>
      rcases List.mem_cons.mp member with rfl | listed
      · exact Nat.le_max_left _ _
      · exact Nat.lt_of_lt_of_le (inductionHypothesis listed) (Nat.le_max_right _ _)

namespace Spells

/-- What a tree of short chains is spelled with has the levels for its depth.  The induction is
on the spelling, and every child either is tighter or stands on a level below, unless it
continues the chain of its form. -/
theorem fits {width : Nat} {tree : Tree} {levels : Nat} {tokens : List Token}
    (spelled : Spells tree levels tokens) (narrow : tree.Narrow width) :
    tree.Fits width levels tree.chain tree.band := by
  have wide : 0 < width := Nat.lt_of_lt_of_le tree.chain_pos narrow.root.2
  have atoms {tag : Tag} {levels : Nat} {child : Tree} (atom : child.isAtom = true)
      (positive : 0 < levels) : child.Fits width levels 0 tag.band :=
    Tree.fits_atom atom positive tag.band_le wide
  induction spelled with
  | name token => exact Tree.fits_atom rfl Nat.one_pos (Nat.le_refl 9) (Nat.succ_pos _)
  | int token => exact Tree.fits_atom rfl Nat.one_pos (Nat.le_refl 9) (Nat.succ_pos _)
  | float token => exact Tree.fits_atom rfl Nat.one_pos (Nat.le_refl 9) (Nat.succ_pos _)
  | string token => exact Tree.fits_atom rfl Nat.one_pos (Nat.le_refl 9) (Nat.succ_pos _)
  | importing marker path => exact Tree.fits_single Nat.one_pos (atoms rfl Nat.one_pos)
  | declaring marker name => exact Tree.fits_single Nat.one_pos (atoms rfl Nat.one_pos)
  | group opened closed isOpened isClosed _ inductionHypothesis =>
      have inner := narrow.child List.mem_cons_self
      exact Tree.fits_single (Nat.succ_pos _)
        (inner.fits_of_below (inductionHypothesis inner) (Nat.lt_succ_self _))
  | emptyCall name opened closed => exact Tree.fits_single Nat.one_pos (atoms rfl Nat.one_pos)
  | call name opened closed isName isOpened isClosed adjacent _ inductionHypothesis =>
      have inner := narrow.child (List.mem_cons_of_mem _ List.mem_cons_self)
      refine Tree.fits_form (Nat.succ_pos _) (Tree.chain_pos _) ?_
      rintro child (_ | ⟨_, _ | ⟨_, ⟨⟩⟩⟩)
      · exact atoms rfl (Nat.succ_pos _)
      · exact inner.fits_of_below (inductionHypothesis inner) (Nat.lt_succ_self _)
  | emptyBracket opened closed => exact Tree.fits_form Nat.one_pos (Tree.chain_pos _) nofun
  | bracket opened closed isOpened isClosed _ inductionHypothesis =>
      have inner := narrow.child List.mem_cons_self
      exact Tree.fits_single (Nat.succ_pos _)
        (inner.fits_of_below (inductionHypothesis inner) (Nat.lt_succ_self _))
  | @pair tag role left right leftLevels rightLevels _ _ sign joins pairs isSign _ _
      leftFits rightFits =>
      have onLeft := narrow.child List.mem_cons_self
      have onRight := narrow.child (List.mem_cons_of_mem _ List.mem_cons_self)
      have rightRoom : right.Fits width (max leftLevels (rightLevels + 1)) 0 tag.band :=
        onRight.fits_of_below (rightFits onRight) (Nat.le_max_right _ _)
      have before := ((Tree.arranged_pair_iff joins pairs).mp narrow.root.1).1
      have positive : 0 < max leftLevels (rightLevels + 1) := by omega
      have loose : tag.band ≤ left.band := Tag.power_sign joins ▸ before.loose
      by_cases same : left.band = tag.band
      · have chained : (Tree.form tag [left, right]).chain = left.chain + 1 := by
          have binary := before.tie ((Tag.power_sign joins).trans same.symm)
          rw [Tree.role?_of_tie joins same.symm] at binary
          rw [Tree.chain, if_pos ⟨joins.trans binary, same⟩]
        refine Tree.fits_form positive (Nat.lt_of_succ_le (Nat.le_of_eq chained.symm)) ?_
        rintro child (_ | ⟨_, _ | ⟨_, ⟨⟩⟩⟩)
        · exact (same ▸ leftFits onLeft).mono (Nat.le_max_left _ _) (Nat.le_refl _)
        · exact rightRoom.mono (Nat.le_refl _) (Nat.zero_le _)
      · refine Tree.fits_form positive (Tree.chain_pos _) ?_
        rintro child (_ | ⟨_, _ | ⟨_, ⟨⟩⟩⟩)
        · exact onLeft.fits_of_tighter (leftFits onLeft) (Nat.le_max_left _ _)
            (Nat.lt_of_le_of_ne loose (Ne.symm same))
        · exact rightRoom
  | @siblings tag first levels _ later trailing sequence spelled _ _ _ _ firstFits laterFits =>
      have most := Sibling.le_deepest levels later
      have fitting : Tree.ArrangedSiblings tag (first :: later.map Sibling.tree) := by
        have arranged := narrow.root.1
        rw [Tree.Arranged, sequence] at arranged
        exact arranged
      refine Tree.fits_form (Nat.lt_of_lt_of_le spelled.levels_pos most) (Tree.chain_pos _) ?_
      intro child member
      have inner := narrow.child member
      rcases List.mem_cons.mp member with rfl | below
      · exact inner.fits_of_tighter (firstFits inner) most (fitting.2.1 child member)
      · rcases List.mem_map.mp below with ⟨sibling, listed, rfl⟩
        exact inner.fits_of_below (laterFits sibling listed inner)
          (Sibling.levels_lt_deepest levels listed)

end Spells

/-! ## Accepted programs -/

/-- The depth of a program that a limit accepts is bounded by the limit and its longest chain
alone. -/
theorem depth_le_of_parseWithin {limit : Nat} {file source : String} {tree : Tree}
    (accepted : parseWithin (some limit) file source = .ok tree) :
    tree.depth ≤ 10 * limit * tree.longestChain := by
  rcases spelled_of_parseWithin accepted with ⟨shaped, levels, tokens, last, listed, _, spelled⟩
  have arranged := (Tree.shaped_iff.mp shaped).1
  have room : levels ≤ limit := (parseWithin_iff_levels listed spelled arranged).mp accepted
  have narrow : tree.Narrow tree.longestChain := fun node member =>
    ⟨arranged node member, tree.chain_le_longest node member⟩
  have fits := spelled.fits narrow
  have short := narrow.root.2
  have loose : 1 * tree.longestChain ≤ tree.band * tree.longestChain :=
    Nat.mul_le_mul_right _ tree.band_pos
  calc
    tree.depth ≤ levels * (10 * tree.longestChain) := by
      unfold Tree.Fits at fits
      omega
    _ ≤ limit * (10 * tree.longestChain) := Nat.mul_le_mul_right _ room
    _ = 10 * limit * tree.longestChain := by rw [Nat.mul_left_comm, Nat.mul_assoc]

/-- An accepted program is at most ten times as deep as programs may be nested, for every form
of its longest chain. -/
theorem depth_le_nestingLimit {file source : String} {tree : Tree}
    (accepted : parse file source = .ok tree) :
    tree.depth ≤ 10 * Parser.nestingLimit * tree.longestChain :=
  depth_le_of_parseWithin accepted

theorem depth_le_nestingLimit_difference :
    parse "shell" "(a - b - c) * d" =
      .ok (.form .multiply [.form .paren [.form .subtract
        [.form .subtract [.ident "a", .ident "b"], .ident "c"]], .ident "d"]) ∧
    Tree.depth (.form .multiply [.form .paren [.form .subtract
      [.form .subtract [.ident "a", .ident "b"], .ident "c"]], .ident "d"]) ≤
        10 * Parser.nestingLimit * 2 := by
  have accepted : parse "shell" "(a - b - c) * d" =
      .ok (.form .multiply [.form .paren [.form .subtract
        [.form .subtract [.ident "a", .ident "b"], .ident "c"]], .ident "d"]) := by
    cbv
  exact ⟨accepted, depth_le_nestingLimit accepted⟩

/-! ## Chains of any length -/

/-- Sums of names, one sign a line. -/
def sums : Nat -> String
  | 0 => "a"
  | count + 1 => sums count ++ "\n+a"

/-- A sum takes two levels, however many signs it has. -/
theorem sums_spelled (file : String) (count : Nat) :
    exists tokens last tree levels, tokenize file (sums count) = .ok (tokens ++ [last]) ∧
      Spells tree levels tokens ∧ levels ≤ 2 ∧ tree.Everywhere Tree.Arranged ∧
        tree.StandsBefore Kind.plus ∧ tree.depth = count + 1 := by
  induction count with
  | zero =>
      let name : Token := ⟨.identifier, "a", Span.ofOffset 0 1⟩
      have readName : (Scanner.ofSource file "a").next = .done name ⟨file, 1, []⟩ := by cbv
      have listed : tokenize file (sums 0) = .ok ([name] ++ [Token.endOfInput 1]) :=
        tokenize_eq_ok_iff_scans.mpr
          ⟨_, _, .onward readName (by decide) (.stay _), Scanner.next_of_nil rfl, rfl⟩
      refine ⟨_, _, _, _, listed, .name name rfl, by decide, Tree.arranged_of_isAtom rfl,
        Tree.standsBefore_of_primary _ rfl, rfl⟩
  | succ count inductionHypothesis =>
      rcases inductionHypothesis with
        ⟨tokens, last, tree, levels, listed, spelled, few, arranged, before, deep⟩
      let sign : Token := ⟨.plus, "+", Span.ofOffset 0 1⟩
      let name : Token := ⟨.identifier, "a", Span.ofOffset 1 1⟩
      have readSign : (Scanner.ofSource file "+a").next = .done sign ⟨file, 1, ['a']⟩ := by cbv
      have readName : (Scanner.mk file 1 ['a']).next = .done name ⟨file, 2, []⟩ := by cbv
      have listedLine : tokenize file "+a" = .ok ([sign, name] ++ [Token.endOfInput 2]) :=
        tokenize_eq_ok_iff_scans.mpr
          ⟨_, _, .onward readSign (by decide) (.onward readName (by decide) (.stay _)),
            Scanner.next_of_nil rfl, rfl⟩
      have written : (sums (count + 1)).toList = (sums count).toList ++ '\n' :: "+a".toList := by
        rw [sums, String.toList_append]
        rfl
      have listedAll := tokenize_line listed listedLine written
      generalize (sums count).utf8ByteSize + 1 = distance at listedAll
      have joins : Tag.add.role? = some .binary := rfl
      have pairs : Role.binary ≠ .sequence := by decide
      have named : Spells (Tree.ofName "a") 1 [name.moved distance] :=
        .name (name.moved distance) rfl
      refine ⟨_, _, _, _, listedAll, .pair (sign.moved distance) joins pairs rfl spelled named,
        ?_, ?_, ?_, ?_⟩
      · omega
      · refine Tree.everywhere_pair ?_ arranged (Tree.arranged_of_isAtom rfl)
        exact (Tree.arranged_pair_iff joins pairs).mpr ⟨before, by decide⟩
      · exact (Tree.standsBefore_pair_iff joins pairs).mpr ⟨by decide, by decide⟩
      · simp only [Tree.depth, Tree.greatestDepth, Tree.ofName, deep]
        omega

/-- No bound holds for the depth of every accepted program. -/
theorem depth_unbounded :
    ¬ exists bound : Nat, forall (file source : String) (tree : Tree),
      parse file source = .ok tree -> tree.depth ≤ bound := by
  rintro ⟨bound, bounded⟩
  rcases sums_spelled "shell" bound with
    ⟨tokens, last, tree, levels, listed, spelled, few, arranged, _, deep⟩
  have accepted : parse "shell" (sums bound) = .ok tree := by
    refine (parseWithin_iff_levels listed spelled arranged).mpr (Nat.le_trans few ?_)
    decide
  have shallow := bounded "shell" (sums bound) tree accepted
  omega

end SignalScript
