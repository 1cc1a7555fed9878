import Bramble.Eval.Call
import Bramble.Text.Blank
import Bramble.Text.Decimal

/-!
# Settings

How the interpreter is started: which script to run, if any, and how deeply calls may be nested.
-/

set_option autoImplicit false

namespace Bramble

/-- The settings of the interpreter. -/
structure Config where
  script : Option String := none
  callLimit : Nat := defaultCallLimit
deriving DecidableEq, Repr

namespace Config

/-- Reads a limit: a positive number of 64 bits, perhaps between blanks. -/
def limit? (text : String) : Option Nat :=
  (Text.unsigned? (Text.trim text.toList)).filter fun n => 0 < n ∧ n < UInt64.size

/-- The settings for the words of a command line and for the text of the limit. The first word
is the script; a limit that cannot be read is the default one. -/
def ofWords (words : List String) (limit : Option String) : Config where
  script := words.head?
  callLimit := (limit.bind limit?).getD defaultCallLimit

/-- Whether nothing was set. -/
def isDefault (config : Config) : Bool := config = {}

end Config

end Bramble
