import SignalScript.Lexeme
import SignalScript.Reply
import SignalScript.Text.Size

namespace SignalScript

/-!
The scanner: the unread part of a source, and the tokens read from it.

A scanner knows the name of its file, the text still unread and the offset of
that text.  Reading a token skips blanks and comments first.  Where no lexeme
fits, the reading fails and the scanner stands at the offending character.
-/

/-- A source from some offset on. -/
structure Scanner where
  file : String
  offset : Nat
  rest : List Char

namespace Scanner

/-- The name that is used for a source without a file. -/
def defaultFile : String :=
  "shell"

/-- The name that faults in a source carry. -/
def nameOf (file? : Option String) : String :=
  match file? with
  | some file => file
  | none => defaultFile

/-- A scanner at the start of a source. -/
def ofSource (file : String) (source : String) : Scanner where
  file := file
  offset := 0
  rest := source.toList

/-- The position of the next unread character. -/
def position (scanner : Scanner) : Position where
  offset := UInt32.ofNat scanner.offset
  file := scanner.file

/-- Pass over the next `count` characters. -/
def skip (scanner : Scanner) (count : Nat) : Scanner where
  file := scanner.file
  offset := scanner.offset + Text.size (scanner.rest.take count)
  rest := scanner.rest.drop count

/-- The fault of a character with which no lexeme starts.  A quotation mark can
only get here when its partner is missing. -/
def faultAt (scanner : Scanner) (c : Char) : Fault where
  cause := if c = '\'' then .unterminatedText else .unrecognised (String.singleton c)
  position := scanner.position

/-- The token that a lexeme of `count` characters yields, if it yields one. -/
def token? (scanner : Scanner) (lexeme : Lexeme) (count : Nat) : Option Token :=
  let taken := scanner.rest.take count
  (lexeme.kind? taken).map fun kind =>
    { kind := kind
      value := String.ofList (lexeme.value taken)
      span := Span.ofOffset scanner.offset (Text.size taken) }

/-- Read the next token.  Past the last one, the end of the input is read again
and again. -/
def next (scanner : Scanner) : Reply Scanner Token :=
  match _unread : scanner.rest with
  | [] => .done (Token.endOfInput scanner.offset) scanner
  | c :: _ =>
      match _found : Lexeme.first? scanner.rest with
      | none => .failed (scanner.faultAt c) scanner
      | some lexeme =>
          let count := lexeme.width scanner.rest
          match scanner.token? lexeme count with
          | some token => .done token (scanner.skip count)
          | none => next (scanner.skip count)
termination_by scanner.rest.length
decreasing_by
  have positive := Lexeme.width_pos_of_first? _found
  simp only [skip, List.length_drop, _unread, List.length_cons] at positive ⊢
  omega

/-- Reading a token shortens the unread text, except that nothing is left to
shorten at the end of the input. -/
theorem next_shortens (scanner : Scanner) {token : Token} {after : Scanner}
    (read : scanner.next = .done token after) :
    after.rest.length + token.weight ≤ scanner.rest.length := by
  fun_induction next scanner with
  | case1 scanner unread =>
      cases read
      simp [Token.weight, Token.endOfInput]
  | case2 => cases read
  | case3 scanner c rest unread lexeme found count _ isToken =>
      cases read
      have positive := Lexeme.width_pos_of_first? found
      have light := token.weight_le_one
      simp only [skip, List.length_drop, count]
      simp only [unread, List.length_cons] at positive ⊢
      omega
  | case4 scanner c rest unread lexeme found count noToken inductionHypothesis =>
      have shorter := inductionHypothesis read
      simp only [skip, List.length_drop] at shorter
      omega

/-- Read all tokens, the end of the input included, in front of which stand
the tokens already read in reverse. -/
def tokensAfter (read : List Token) (scanner : Scanner) : Except Fault (List Token) :=
  match _reply : scanner.next with
  | .failed fault _ => .error fault
  | .done token after =>
      if _last : token.kind = .endOfInput then
        .ok (token :: read).reverse
      else
        tokensAfter (token :: read) after
termination_by scanner.rest.length
decreasing_by
  have shorter := scanner.next_shortens _reply
  rw [Token.weight_eq_one _last] at shorter
  omega

end Scanner

/-- Split a whole source into tokens, the last of which is the end of the
input. -/
def tokenize (file source : String) : Except Fault (List Token) :=
  (Scanner.ofSource file source).tokensAfter []

/-- Split a source that may come from a file into tokens. -/
def tokenizeFrom (file? : Option String) (source : String) : Except Fault (List Token) :=
  tokenize (Scanner.nameOf file?) source

end SignalScript
