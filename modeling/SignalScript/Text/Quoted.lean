import SignalScript.Text.Unprintable
import SignalScript.Text.Extending

namespace SignalScript
namespace Text

/-!
Texts quoted inside a message.

The quoted form stands between double quotation marks, which are escaped
inside it, as are the backslash and the usual control characters.  Any other
character that would not show up by itself is named by its code point in
hexadecimal.  A single quotation mark is left alone.
-/

/-- Name a character by its code point, as in `\u{301}`. -/
def codePointName (c : Char) : List Char :=
  ['\\', 'u', '\x7b'] ++ Nat.toDigits 16 c.toNat ++ ['\x7d']

/-- How one character is written between quotation marks. -/
def escaped (c : Char) : List Char :=
  if c = '\x00' then ['\\', '0']
  else if c = '\t' then ['\\', 't']
  else if c = '\n' then ['\\', 'n']
  else if c = '\r' then ['\\', 'r']
  else if c = '\\' then ['\\', '\\']
  else if c = '"' then ['\\', '"']
  else if isExtending c || !isPrintable c then codePointName c
  else [c]

/-- A text between quotation marks, with every character written so that it
shows up. -/
def quoted (text : String) : String :=
  String.ofList ('"' :: text.toList.flatMap escaped ++ ['"'])

end Text
end SignalScript
