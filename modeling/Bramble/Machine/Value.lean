import Bramble.Program.Basic

/-!
# Values

The values of the language, and what functions and scopes are made of. Frames and functions are
objects with an identity: a value or a scope holds the number of such an object, and the machine
holds the object itself. Two functions are the same only if they are the same object, so equality
of values needs no look at the machine.
-/

set_option autoImplicit false

namespace Bramble

/-- The number of a frame in a machine. -/
abbrev FrameId := Nat

/-- A scope is known by its own frame. The machine knows which frames stand around it. -/
abbrev Scope := FrameId

/-- The number of a function in a machine. -/
abbrev FunctionId := Nat

/-- The values of the language. -/
inductive Value where
  | int (n : Int64)
  | str (s : String)
  | bool (b : Bool)
  | void
  | function (id : FunctionId)
deriving DecidableEq, Repr, Inhabited

namespace Value

/-- The kinds of values. -/
inductive Kind where
  | int
  | str
  | bool
  | void
  | function
deriving DecidableEq, Repr

/-- What a kind of values is called. -/
def Kind.name : Kind → String
  | .int => "Int"
  | .str => "Str"
  | .bool => "Bool"
  | .void => "Void"
  | .function => "Function"

/-- The kind of a value. -/
def kind : Value → Kind
  | .int _ => .int
  | .str _ => .str
  | .bool _ => .bool
  | .void => .void
  | .function _ => .function

/-- The value of a literal. -/
def ofLiteral : Literal → Value
  | .int n => .int n
  | .str s => .str s
  | .bool b => .bool b

/-- The truth value, of a value that is one. -/
def toBool? : Value → Option Bool
  | .bool b => some b
  | _ => none

end Value

/-- A function of a program, with the scope in which it was declared. -/
structure Closure where
  name : String
  params : List String
  body : List Stmt
  scope : Scope

/-- The functions that every program can use. -/
inductive Builtin where
  | print
  | println
  | assertEq
  | assert
deriving DecidableEq, Repr

namespace Builtin

/-- All functions of the prelude. -/
def all : List Builtin := [.print, .println, .assertEq, .assert]

/-- The name of a function of the prelude. -/
def name : Builtin → String
  | .print => "print"
  | .println => "println"
  | .assertEq => "assert_eq"
  | .assert => "assert"

/-- How many arguments a function of the prelude takes. -/
def arity : Builtin → Nat
  | .assertEq => 2
  | _ => 1

end Builtin

/-- A function object. -/
inductive Callable where
  | closure (c : Closure)
  | builtin (b : Builtin)

namespace Callable

/-- How many arguments a function takes. -/
def arity : Callable → Nat
  | .closure c => c.params.length
  | .builtin b => b.arity

/-- The name of a function. -/
def name : Callable → String
  | .closure c => c.name
  | .builtin b => b.name

end Callable

end Bramble
