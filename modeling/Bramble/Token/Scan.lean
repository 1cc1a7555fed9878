import Bramble.Source.Basic
import Bramble.Text.Offset
import Bramble.Token.Basic

/-!
# Scanning

A text is cut from left to right into pieces. The first character of a piece decides its class,
and the piece is the longest one of that class. Spaces and comments are dropped, every other
piece becomes a token, and a token for the end of the input comes last.

Text of no class is not lost. A character that begins nothing is a token of the kind `unknown`,
and so is a string without its closing quotation mark, which reaches to the end of the input.
Such tokens are the faults of the text.
-/

set_option autoImplicit false

namespace Bramble
namespace Token

/-! ## Classes of characters -/

/-- The characters that separate tokens. -/
def isSpace (c : Char) : Bool :=
  c == ' ' || c == '\t' || c == '\n' || c == '\r' || c == '\x0c'

/-- The characters that begin a word: the ASCII letters and the underscore. -/
def isWordStart (c : Char) : Bool := c.isAlpha || c == '_'

/-- The characters that continue a word. -/
def isWordPart (c : Char) : Bool := c.isAlphanum || c == '_'

/-! ## Pieces -/

/-- A piece of text that begins at a known character: its kind, which is missing where the piece
is dropped, and the number of characters after the first one. -/
structure Piece where
  kind? : Option Kind
  more : Nat
deriving DecidableEq, Repr

/-- The piece that begins with a character of no larger class: a symbol, of two characters where
the second one fits, or an unknown character. -/
def symbol (c : Char) (next : Option Char) : Piece :=
  let pair (long short : Kind) : Piece :=
    if next = some '=' then ⟨some long, 1⟩ else ⟨some short, 0⟩
  match c with
  | '!' => pair .notEquals .bang
  | '=' => pair .equalsEquals .equals
  | '>' => pair .greaterEquals .greater
  | '<' => pair .lessEquals .less
  | '+' => ⟨some .plus, 0⟩
  | '-' => ⟨some .minus, 0⟩
  | '*' => ⟨some .asterisk, 0⟩
  | '/' => ⟨some .slash, 0⟩
  | '(' => ⟨some .openParen, 0⟩
  | ')' => ⟨some .closeParen, 0⟩
  | '\x7b' => ⟨some .openBrace, 0⟩
  | '\x7d' => ⟨some .closeBrace, 0⟩
  | ',' => ⟨some .comma, 0⟩
  | ';' => ⟨some .semi, 0⟩
  | _ => ⟨some .unknown, 0⟩

/-- The piece that begins with a quotation mark, given what follows the mark. -/
def stringPiece (rest : List Char) : Piece :=
  match rest.dropWhile (· ≠ '"') with
  | [] => ⟨some .unknown, rest.length⟩
  | _ :: _ => ⟨some .stringLit, (rest.takeWhile (· ≠ '"')).length + 1⟩

/-- The piece that begins with `c`, given what follows it. -/
def piece (c : Char) (rest : List Char) : Piece :=
  if isSpace c then ⟨none, (rest.takeWhile isSpace).length⟩
  else if c.isDigit then ⟨some .intLit, (rest.takeWhile Char.isDigit).length⟩
  else if isWordStart c then
    let word := rest.takeWhile isWordPart
    ⟨some (Kind.ofWord (String.ofList (c :: word))), word.length⟩
  else if c = '"' then stringPiece rest
  else if c = '/' ∧ rest.head? = some '/' then ⟨none, (rest.takeWhile (· ≠ '\n')).length⟩
  else symbol c rest.head?

/-! ## The tokens of a text -/

/-- The tokens of the characters that stand at an offset. -/
def scanFrom (offset : Nat) : List Char → List Token
  | [] => [endAt offset]
  | c :: rest =>
      let p := piece c rest
      let lexeme := c :: rest.take p.more
      let stop := offset + Text.byteLength lexeme
      let tokens := scanFrom stop (rest.drop p.more)
      match p.kind? with
      | none => tokens
      | some kind => ⟨kind, String.ofList lexeme, ⟨offset, stop⟩⟩ :: tokens
termination_by cs => cs.length
decreasing_by
  rw [List.length_drop, List.length_cons]
  omega

/-- The tokens of a text. The last one is the end of the input. -/
def scan (text : String) : List Token := scanFrom 0 text.toList

/-! ## Faults -/

/-- What is wrong with a token, if it is of no known class. -/
def fault? (token : Token) : Option Diagnostic :=
  if token.kind = .unknown then
    some ⟨"Unrecognized character `" ++ token.lexeme ++ "`", token.span⟩
  else none

/-- The faults among tokens, in their order. -/
def faults (tokens : List Token) : List Diagnostic := tokens.filterMap fault?

end Token

namespace Source

/-- The tokens of a source, and the source with the faults found among them. -/
def scan (source : Source) : List Token × Source :=
  let tokens := Token.scan source.text
  (tokens, source.report (Token.faults tokens))

end Source

end Bramble
