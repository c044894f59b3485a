namespace SignalScript
namespace Text

/-!
Sizes and cuts of texts, counted in the bytes of their UTF-8 encoding.

All offsets that a user of the front end sees are such byte counts, while the
functions themselves work on characters.  An offset that falls inside a
character has no text after it.
-/

/-- The number of bytes that encode a text. -/
def size (text : List Char) : Nat :=
  text.foldr (fun c bytes => c.utf8Size + bytes) 0

/-- The text that follows the first `bytes` bytes.  There is none when the
text is shorter or the cut would split a character. -/
def dropBytes? : Nat -> List Char -> Option (List Char)
  | 0, text => some text
  | _ + 1, [] => none
  | bytes + 1, c :: rest =>
      if c.utf8Size ≤ bytes + 1 then dropBytes? (bytes + 1 - c.utf8Size) rest else none

@[simp] theorem size_nil : size [] = 0 := rfl

@[simp] theorem size_cons (c : Char) (text : List Char) :
    size (c :: text) = c.utf8Size + size text := rfl

@[simp] theorem size_append (first second : List Char) :
    size (first ++ second) = size first + size second := by
  induction first with
  | nil => simp
  | cons c first inductionHypothesis =>
      rw [List.cons_append, size_cons, size_cons, inductionHypothesis, Nat.add_assoc]

end Text
end SignalScript
