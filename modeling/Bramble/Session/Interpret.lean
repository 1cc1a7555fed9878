import Bramble.Eval.Call
import Bramble.Grammar.Parser
import Bramble.Token.Scan

/-!
# Interpretation of texts

From a text to the value of the program that it holds. A text with a lexical fault is not parsed,
and a text that is no program is not evaluated.
-/

set_option autoImplicit false

namespace Bramble

/-- Why a text has no value. -/
inductive Failure where
  | lexical (fault : Diagnostic)
  | grammar (e : ParseError)
  | evaluation (e : EvalError)
deriving DecidableEq, Repr

namespace Failure

/-- The text of a failure. -/
def message : Failure → String
  | .lexical fault => fault.message
  | .grammar e => e.message
  | .evaluation e => e.message

/-- Where in the text a failure is reported. Evaluation knows no places. -/
def span? : Failure → Option Span
  | .lexical fault => some fault.span
  | .grammar e => some e.span
  | .evaluation _ => none

/-- The line that tells of a failure in a text. -/
def report (text : String) (failure : Failure) : String :=
  errorLine failure.message (failure.span?.bind fun span => Position.of? text span.start)

end Failure

/-- Reads a text as a program. Of several lexical faults the first one counts. -/
def Program.ofText (text : String) : Except Failure Program :=
  let tokens := Token.scan text
  match Token.faults tokens with
  | fault :: _ => .error (.lexical fault)
  | [] => (Program.ofTokens tokens).mapError .grammar

/-- The value of a text in a scope. -/
def interpret (limit : Nat) (scope : Scope) (text : String) : EStateM Failure Machine Value :=
  match Program.ofText text with
  | .error failure => throw failure
  | .ok program => EStateM.adaptExcept .evaluation (program.eval limit scope)

end Bramble
