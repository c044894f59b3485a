import SignalScript.Scanner

namespace SignalScript

/-!
A cursor into a source, which may be put at any byte.

A cursor holds the whole source and a 64-bit offset that wraps around.  Moved
by hand, it can come to stand inside a character or beyond the end.  Nothing
can be read there, except that the end of the input is also found beyond the
end.
-/

/-- A source and an offset into it. -/
structure Cursor where
  file : String
  source : List Char
  offset : UInt64

namespace Cursor

/-- A cursor at the start of a source. -/
def ofSource (file source : String) : Cursor where
  file := file
  source := source.toList
  offset := 0

/-- Move on by some bytes. -/
def advance (cursor : Cursor) (bytes : Nat) : Cursor :=
  { cursor with offset := cursor.offset + UInt64.ofNat bytes }

/-- No byte follows. -/
def atEnd (cursor : Cursor) : Bool :=
  decide (Text.size cursor.source ≤ cursor.offset.toNat)

/-- The text that follows, if the cursor stands between two characters. -/
def rest? (cursor : Cursor) : Option (List Char) :=
  Text.dropBytes? cursor.offset.toNat cursor.source

/-- The character that follows, and a null character at the end. -/
def character? (cursor : Cursor) : Option Char :=
  cursor.rest?.map fun rest => rest.head?.getD '\x00'

/-- The place of the next `bytes` bytes: where they start and where they
end. -/
def place (cursor : Cursor) (bytes : Nat) : Position × Position :=
  let span := Span.ofOffset cursor.offset.toNat bytes
  (⟨span.start, cursor.file⟩, ⟨span.stop, cursor.file⟩)

/-- The place of the next byte. -/
def position (cursor : Cursor) : Position :=
  (cursor.place 0).1

/-- Move to where a scanner stands. -/
def follow (cursor : Cursor) (scanner : Scanner) : Cursor :=
  { cursor with offset := UInt64.ofNat scanner.offset }

/-- Read the next token, if the cursor stands where one can be read. -/
def next? (cursor : Cursor) : Option (Reply Cursor Token) :=
  if cursor.atEnd then
    some (.done (Token.endOfInput cursor.offset.toNat) cursor)
  else
    cursor.rest?.map fun rest =>
      match (Scanner.mk cursor.file cursor.offset.toNat rest).next with
      | .done token scanner => .done token (cursor.follow scanner)
      | .failed fault scanner => .failed fault (cursor.follow scanner)

end Cursor
end SignalScript
