import SignalScript.Proofs.Replies

namespace SignalScript

/-!
Levels of nesting under a limit.

A reading that starts at some depth takes a number of levels below it.  Either
the limit leaves room for all of them, or the reading fails because of the limit
and for no other reason.  A reply that behaves so is said to settle, and the laws
here say how many levels are taken by readings one after another and one below
another.
-/

namespace Parser

/-- The limit leaves room for some more levels at a depth. -/
def Allows (limit : Option Nat) (depth levels : Nat) : Prop :=
  forall bound, limit = some bound -> depth + levels ≤ bound

/-- The reading has failed because of the limit on nesting. -/
def Overruns (limit : Option Nat) (reply : Reply Parser Tree) : Prop :=
  exists bound position last,
    limit = some bound ∧ reply = .failed ⟨.tooDeep bound, position⟩ last

/-- The reply is the expected one if the limit leaves room for the levels, and
otherwise it fails because of the limit. -/
structure Settles (limit : Option Nat) (depth levels : Nat)
    (reply expected : Reply Parser Tree) : Prop where
  enough : Allows limit depth levels -> reply = expected
  beyond : ¬ Allows limit depth levels -> Overruns limit reply

section
variable {limit : Option Nat} {depth : Nat}

theorem allows_none {levels : Nat} : Allows none depth levels := by
  intro bound same
  cases same

theorem allows_some_iff {bound levels : Nat} :
    Allows (some bound) depth levels <-> depth + levels ≤ bound := by
  constructor
  · intro allowed
    exact allowed bound rfl
  · intro room other same
    cases same
    exact room

theorem Allows.mono {fewer more : Nat} (allowed : Allows limit depth more)
    (le : fewer ≤ more) : Allows limit depth fewer := by
  intro bound same
  have room := allowed bound same
  omega

theorem allows_max_iff {first second : Nat} :
    Allows limit depth (max first second) <->
      Allows limit depth first ∧ Allows limit depth second := by
  constructor
  · intro allowed
    exact ⟨allowed.mono (Nat.le_max_left _ _), allowed.mono (Nat.le_max_right _ _)⟩
  · rintro ⟨allowsFirst, allowsSecond⟩ bound same
    have room := allowsFirst bound same
    have roomToo := allowsSecond bound same
    omega

/-- A level below counts as one more level above. -/
theorem allows_succ_iff {levels : Nat} :
    Allows limit (depth + 1) levels <-> Allows limit depth (levels + 1) := by
  unfold Allows
  constructor
  · intro allowed bound same
    have room := allowed bound same
    omega
  · intro allowed bound same
    have room := allowed bound same
    omega

/-- The level that an expression enters is allowed or it is the reason to
fail. -/
theorem allows_of_tooDeep?_none {parser : Parser} (allowed : parser.tooDeep? limit = none) :
    Allows limit parser.depth 1 := by
  intro bound same
  rw [same, tooDeep?] at allowed
  split at allowed
  next => cases allowed
  next room => omega

theorem tooDeep?_eq_some {parser : Parser} {fault : Fault}
    (deep : parser.tooDeep? limit = some fault) :
    exists bound, limit = some bound ∧ bound ≤ parser.depth ∧
      fault = ⟨.tooDeep bound, parser.position⟩ := by
  cases limit with
  | none => cases deep
  | some bound =>
      rw [tooDeep?] at deep
      split at deep
      next full =>
        cases deep
        exact ⟨bound, rfl, full, rfl⟩
      next => cases deep

namespace Settles

theorem of_eq {levels : Nat} {reply expected : Reply Parser Tree}
    (allowed : Allows limit depth levels) (same : reply = expected) :
    Settles limit depth levels reply expected where
  enough := fun _ => same
  beyond := fun denied => absurd allowed denied

/-- Go on with what the first reading comes down to. -/
theorem chain {first levels : Nat} {reply middle expected : Reply Parser Tree}
    (front : Settles limit depth first reply middle)
    (back : Allows limit depth first -> Settles limit depth levels middle expected)
    (le : first ≤ levels) : Settles limit depth levels reply expected where
  enough := by
    intro allowed
    have room := allowed.mono le
    rw [front.enough room]
    exact (back room).enough allowed
  beyond := by
    intro denied
    by_cases room : Allows limit depth first
    · rw [front.enough room]
      exact (back room).beyond denied
    · exact front.beyond room

/-- Two readings one after the other need the levels of both. -/
theorem trans {first second : Nat} {reply middle expected : Reply Parser Tree}
    (front : Settles limit depth first reply middle)
    (back : Settles limit depth second middle expected) :
    Settles limit depth (max first second) reply expected := by
  refine front.chain ?_ (Nat.le_max_left _ _)
  intro room
  constructor
  · intro allowed
    exact back.enough (allows_max_iff.mp allowed).2
  · intro denied
    apply back.beyond
    intro roomToo
    exact denied (allows_max_iff.mpr ⟨room, roomToo⟩)

theorem andThen {levels : Nat} {reply : Reply Parser Tree} {tree : Tree} {last : Parser}
    (settled : Settles limit depth levels reply (.done tree last))
    (resume : Tree -> Parser -> Reply Parser Tree) :
    Settles limit depth levels (reply.andThen resume) (resume tree last) where
  enough := by
    intro allowed
    rw [settled.enough allowed, Reply.done_andThen]
  beyond := by
    intro denied
    rcases settled.beyond denied with ⟨bound, position, after, same, failed⟩
    exact ⟨bound, position, after, same, by rw [failed, Reply.failed_andThen]⟩

theorem up {levels : Nat} {reply expected : Reply Parser Tree}
    (settled : Settles limit (depth + 1) levels reply expected) :
    Settles limit depth (levels + 1) reply expected where
  enough := fun allowed => settled.enough (allows_succ_iff.mpr allowed)
  beyond := fun denied => settled.beyond fun allowed => denied (allows_succ_iff.mp allowed)

end Settles
end
end Parser

end SignalScript
