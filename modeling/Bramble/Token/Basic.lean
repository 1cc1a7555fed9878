import Bramble.Source.Position
import Bramble.Token.Kind

/-!
# Tokens

A token is a piece of a text: its kind, its spelling and where it stands.
-/

set_option autoImplicit false

namespace Bramble

/-- A piece of a text with its kind and its place. -/
structure Token where
  kind : Token.Kind
  lexeme : String
  span : Span
deriving DecidableEq, Repr, Inhabited

namespace Token

/-- The end of the input at an offset. -/
def endAt (offset : Nat) : Token := ⟨.eof, "", ⟨offset, offset⟩⟩

end Token

end Bramble
