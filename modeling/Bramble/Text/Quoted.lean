import Bramble.Text.DefaultIgnorable
import Bramble.Text.ExtendingMark
import Bramble.Text.Unprintable

/-!
# Quoted text

Text as it is shown inside a description of a value: between quotation marks, on one line, and
with every character that could not be seen or would merge with its neighbour named by its
number.
-/

set_option autoImplicit false

namespace Bramble
namespace Text

/-- A character named by its code point, in hexadecimal digits of lower case without padding. -/
def numbered (c : Char) : List Char :=
  ['\\', 'u', '\x7b'] ++ Nat.toDigits 16 c.toNat ++ ['\x7d']

/-- Whether a character cannot be told from the drawn text: it has no visible form, it is not
drawn, or it is drawn on the character before it. -/
def isObscure (c : Char) : Bool := isExtendingMark c || isDefaultIgnorable c || isUnprintable c

/-- How a character is written between quotation marks. -/
def escaped (c : Char) : List Char :=
  if c = '"' then ['\\', '"']
  else if c = '\\' then ['\\', '\\']
  else if c = '\t' then ['\\', 't']
  else if c = '\r' then ['\\', 'r']
  else if c = '\n' then ['\\', 'n']
  else if c = '\x00' then ['\\', '0']
  else if isObscure c then numbered c
  else [c]

/-- A text between quotation marks. -/
def quoted (s : String) : String :=
  "\"" ++ String.ofList (s.toList.flatMap escaped) ++ "\""

/-- A list of texts, each quoted, between square brackets. -/
def quotedList (texts : List String) : String :=
  "[" ++ String.intercalate ", " (texts.map quoted) ++ "]"

end Text
end Bramble
