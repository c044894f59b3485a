import SignalScript.Parser.State

namespace SignalScript
namespace Parser

/-!
Steps: replies that cannot grow the work left to do.

A step is a reply of the parser together with the evidence that its success
leaves a state of bounded weight.  The evidence lets the expression parser
recurse on the weight of its state without any counter of its own.
-/

/-- A reply whose success leaves a state of weight at most `bound`. -/
structure Step (bound : Nat) (Value : Type) where
  reply : Reply Parser Value
  settles : forall {value : Value} {next : Parser},
    reply = .done value next -> next.weight ≤ bound

namespace Step

/-- Succeed with a value and a state. -/
@[inline] def done {bound : Nat} {Value : Type} (value : Value) (next : Parser)
    (within : next.weight ≤ bound) : Step bound Value where
  reply := .done value next
  settles := by
    intro value' next' same
    cases same
    exact within

/-- Fail, leaving any state behind. -/
@[inline] def failed {bound : Nat} {Value : Type} (fault : Fault) (next : Parser) :
    Step bound Value where
  reply := .failed fault next
  settles := by
    intro value next same
    cases same

/-- Continue a success.  A failure stays what it is. -/
@[inline] def andThen {bound wider : Nat} {Value Other : Type} (step : Step bound Value)
    (resume : (value : Value) -> (next : Parser) -> next.weight ≤ bound -> Step wider Other) :
    Step wider Other :=
  match reply : step.reply with
  | .done value next => resume value next (step.settles reply)
  | .failed fault next => failed fault next

/-- Allow a greater weight. -/
@[inline] def relax {bound wider : Nat} {Value : Type} (step : Step bound Value)
    (le : bound ≤ wider) : Step wider Value where
  reply := step.reply
  settles := fun reply => Nat.le_trans (step.settles reply) le

theorem andThen_done_iff {bound wider : Nat} {Value Other : Type} {step : Step bound Value}
    {resume : (value : Value) -> (next : Parser) -> next.weight ≤ bound -> Step wider Other}
    {result : Other} {last : Parser} :
    (step.andThen resume).reply = .done result last <->
      exists (value : Value) (next : Parser) (done : step.reply = .done value next),
        (resume value next (step.settles done)).reply = .done result last := by
  unfold andThen
  split
  next value next reply =>
    constructor
    · intro same
      exact ⟨value, next, reply, same⟩
    · rintro ⟨value', next', reply', same⟩
      cases reply.symm.trans reply'
      exact same
  next fault next reply =>
    constructor
    · intro same
      cases same
    · rintro ⟨value, next', reply', _⟩
      cases reply.symm.trans reply'

@[simp] theorem reply_done {bound : Nat} {Value : Type} (value : Value) (next : Parser)
    (within : next.weight ≤ bound) : (done value next within).reply = .done value next := rfl

@[simp] theorem reply_failed {bound : Nat} {Value : Type} (fault : Fault) (next : Parser) :
    (failed fault next : Step bound Value).reply = .failed fault next := rfl

@[simp] theorem reply_relax {bound wider : Nat} {Value : Type} (step : Step bound Value)
    (le : bound ≤ wider) : (step.relax le).reply = step.reply := rfl

end Step

/-- A state within the unread characters of another is within its bound. -/
theorem within_of_unread {first second : Parser} {bound : Nat}
    (small : second.weight ≤ first.unread) (within : first.weight ≤ bound) :
    second.weight ≤ bound :=
  Nat.le_trans small (Nat.le_trans first.unread_le_weight within)

/-- Take the held token. -/
def take (parser : Parser) : Step parser.unread Token where
  reply := parser.advance
  settles := fun taken => weight_of_advance taken

/-- Take the held token if it has the wanted kind, and fail in the given way
otherwise. -/
def demand (kind : Kind) (otherwise : Fault) (parser : Parser) : Step parser.unread Token :=
  if parser.ahead.kind = kind then parser.take else .failed otherwise parser

/-- The fault of a held token that does not fit. -/
def mismatch (parser : Parser) : Fault :=
  parser.faultAt parser.ahead
    (if parser.ahead.kind = .endOfInput then .unexpectedEnd else .unexpected parser.ahead.value)

/-- Take the held token if it has the wanted kind. -/
def expect (kind : Kind) (parser : Parser) : Step parser.unread Token :=
  parser.demand kind parser.mismatch

end Parser
end SignalScript
