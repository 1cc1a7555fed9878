/-!
# Kinds of tokens

Most kinds have one spelling: the symbols and the reserved words. The others are classes of
spellings. A kind describes itself in error messages by its spelling between backticks, or by
the name of its class.
-/

set_option autoImplicit false

namespace Bramble
namespace Token

/-- The kinds of tokens. `unknown` is text that belongs to no other kind, and `eof` is the end
of the input. -/
inductive Kind where
  | intLit
  | stringLit
  | trueWord
  | falseWord
  | identifier
  | bang
  | plus
  | minus
  | asterisk
  | slash
  | equals
  | equalsEquals
  | notEquals
  | greater
  | greaterEquals
  | less
  | lessEquals
  | openParen
  | closeParen
  | openBrace
  | closeBrace
  | comma
  | semi
  | funWord
  | letWord
  | returnWord
  | ifWord
  | elseWord
  | unknown
  | eof
deriving DecidableEq, Repr, Inhabited

namespace Kind

/-- The spelling of a kind that has only one. -/
def spelling? : Kind → Option String
  | .trueWord => some "true"
  | .falseWord => some "false"
  | .bang => some "!"
  | .plus => some "+"
  | .minus => some "-"
  | .asterisk => some "*"
  | .slash => some "/"
  | .equals => some "="
  | .equalsEquals => some "=="
  | .notEquals => some "!="
  | .greater => some ">"
  | .greaterEquals => some ">="
  | .less => some "<"
  | .lessEquals => some "<="
  | .openParen => some "("
  | .closeParen => some ")"
  | .openBrace => some "\x7b"
  | .closeBrace => some "\x7d"
  | .comma => some ","
  | .semi => some ";"
  | .funWord => some "fun"
  | .letWord => some "let"
  | .returnWord => some "return"
  | .ifWord => some "if"
  | .elseWord => some "else"
  | .intLit | .stringLit | .identifier | .unknown | .eof => none

/-- The name of a class of spellings. -/
def className : Kind → String
  | .intLit => "integer literal"
  | .stringLit => "string literal"
  | .identifier => "identifier"
  | .unknown => "unrecognized input"
  | _ => "end of input"

/-- What a kind is called in a message. -/
def describe (kind : Kind) : String :=
  match kind.spelling? with
  | some spelling => "`" ++ spelling ++ "`"
  | none => kind.className

/-- The kinds that are spelled like names. -/
def words : List Kind :=
  [.trueWord, .falseWord, .funWord, .letWord, .returnWord, .ifWord, .elseWord]

/-- The kind of a word: a reserved word if it is spelled like one, otherwise an identifier. -/
def ofWord (word : String) : Kind :=
  (words.find? fun kind => kind.spelling? == some word).getD .identifier

end Kind
end Token
end Bramble
