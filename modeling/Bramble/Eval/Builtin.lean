import Bramble.Eval.Basic
import Bramble.Machine.Description

/-!
# The prelude

What the functions of the prelude do. Each reads as many arguments as it takes and ignores
further ones.
-/

set_option autoImplicit false

namespace Bramble
namespace Builtin

/-- Runs a function of the prelude. -/
def run (b : Builtin) (args : List Value) : Eval Value :=
  match b, args with
  | .print, v :: _ => do
      Eval.print ((← get).display v)
      return .void
  | .println, v :: _ => do
      Eval.print ((← get).display v ++ "\n")
      return .void
  | .assertEq, v :: w :: _ => do
      if v = w then
        return .void
      else
        let m ← get
        throw (.assertedUnequal (m.inspect v) (m.inspect w))
  | .assert, v :: _ =>
      match v.toBool? with
      | some true => return .void
      | some false => throw .assertedFalse
      | none => throw (.typeMismatch .assertion [v.kind])
  | _, _ => throw (.missingArgument b)

end Builtin
end Bramble
