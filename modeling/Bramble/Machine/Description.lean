import Bramble.Machine.Basic
import Bramble.Text.Order
import Bramble.Text.Quoted

/-!
# Descriptions

Values, functions and scopes in words. A value has two texts: the one that a program prints, in
which a string is just its characters, and one for messages, in which the kind of a value can be
told from its text.
-/

set_option autoImplicit false

namespace Bramble

/-- A function as its value is shown. -/
def Callable.display : Callable → String
  | .closure c => "<fn " ++ c.name ++ ">"
  | .builtin b => "<native fn " ++ b.name ++ ">"

/-- A function object in full: a closure with its parameters. -/
def Callable.inspect : Callable → String
  | .closure c =>
      "Function \x7b ident: " ++ Text.quoted c.name ++ ", params: "
        ++ Text.quotedList c.params ++ " \x7d"
  | .builtin b => "<native fn " ++ b.name ++ ">"

namespace Machine

/-- The text that a program prints for a value. -/
def display (m : Machine) : Value → String
  | .int n => toString n.toInt
  | .str s => s
  | .bool b => if b then "true" else "false"
  | .void => "void"
  | .function id => (m.functions[id]?.map Callable.display).getD "<fn>"

/-- The text of a value in messages. -/
def inspect (m : Machine) : Value → String
  | .int n => "Int(" ++ m.display (.int n) ++ ")"
  | .str s => "Str(" ++ Text.quoted s ++ ")"
  | .bool b => "Bool(" ++ m.display (.bool b) ++ ")"
  | .void => m.display .void
  | .function id => m.display (.function id)

/-- A scope in words: how deep it lies and, in order, which names its own frame binds. -/
def inspectScope (m : Machine) (scope : Scope) : String :=
  "Scope \x7b depth: " ++ toString (m.depth scope) ++ ", bindings: "
    ++ Text.quotedList (Text.sorted (m.namesIn scope)) ++ " \x7d"

end Machine

end Bramble
