import SignalScript.Fault

namespace SignalScript

/-!
Replies: the answers of steps that read input.

A failed step also leaves a state behind.  A reader can be asked again after a
failure, so that state is part of the answer.
-/

/-- A value or a fault, and in both cases the state that the step leaves
behind. -/
inductive Reply (State Value : Type) where
  | done (value : Value) (next : State)
  | failed (fault : Fault) (next : State)

end SignalScript
