import Bramble.Source.Position

/-!
# Sources and their diagnostics

A source is a text together with the faults found in it so far, in the order in which they were
found. A report gives each fault a line with the position where it begins.
-/

set_option autoImplicit false

namespace Bramble

/-- A fault in a text: what is wrong, and where. -/
structure Diagnostic where
  message : String
  span : Span
deriving DecidableEq, Repr

/-- The line that tells of an error, with its position where it has one. -/
def errorLine (message : String) : Option Position → String
  | some p => "ERROR: " ++ message ++ " at " ++ p.display ++ "\n"
  | none => "ERROR: " ++ message ++ "\n"

/-- A text and the faults found in it. -/
structure Source where
  text : String
  faults : List Diagnostic := []
deriving DecidableEq, Repr

namespace Source

/-- Adds faults after those already known. -/
def report (source : Source) (found : List Diagnostic) : Source :=
  { source with faults := source.faults ++ found }

/-- Whether no fault is known. -/
def isClean (source : Source) : Bool := source.faults.isEmpty

/-- The line for one fault. There is none if the fault begins inside a character. -/
def faultLine? (source : Source) (fault : Diagnostic) : Option String :=
  (Position.of? source.text fault.span.start).map fun p => errorLine fault.message (some p)

/-- The lines for all faults. There is no report if a fault begins inside a character. -/
def diagnostics? (source : Source) : Option String :=
  (source.faults.mapM source.faultLine?).map String.join

end Source

end Bramble
