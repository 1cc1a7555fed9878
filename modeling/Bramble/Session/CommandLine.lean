import Bramble.Session.Config
import Bramble.Session.Interpret
import Bramble.Text.Blank
import Bramble.Text.Line

/-!
# Scripts and dialogues

A session is a scope with its machine, to which texts are given one after the other. A script is
a session of one text. A dialogue reads a line at a time: it prompts before each line, skips
blank ones, and ends the last prompt's line when the input ends.
-/

set_option autoImplicit false

namespace Bramble

/-! ## Sessions -/

/-- A scope that texts are interpreted in, one after the other. -/
structure Session where
  limit : Nat
  scope : Scope
  machine : Machine

/-- What is written in answer to a text: to the standard output, and to the error output. -/
structure Reply where
  out : String := ""
  err : String := ""
  failed : Bool := false
deriving DecidableEq, Repr

namespace Session

/-- A session with nothing in it but the prelude. -/
def start (limit : Nat) : Session :=
  let (scope, machine) := ({} : Machine).programScope
  { limit, scope, machine }

/-- The line that shows a value. There is none for the value of a program without one. -/
def valueLine (m : Machine) (v : Value) : String :=
  if v = .void then "" else m.display v ++ "\n"

/-- Interprets a text: what it prints, then its value or the report of its failure. -/
def enter (session : Session) (text : String) : Reply × Session :=
  match interpret session.limit session.scope text { session.machine with output := "" } with
  | .ok v m => ({ out := m.output ++ valueLine m v }, { session with machine := m })
  | .error failure m =>
      ({ out := m.output, err := failure.report text, failed := true },
        { session with machine := m })

/-- Interprets a line of a dialogue. Nothing is done for a blank one. -/
def enterLine (session : Session) (line : String) : Reply × Session :=
  if line.toList.all Text.isBlank then ({}, session) else session.enter line

end Session

/-! ## Transcripts -/

/-- All that a run writes, and its exit status. -/
structure Transcript where
  out : String := ""
  err : String := ""
  exit : UInt32 := 0
deriving DecidableEq, Repr

/-- Why a file cannot be read. -/
inductive FileError where
  | notFound
  | isDirectory
deriving DecidableEq, Repr

/-- The line that tells of a file that cannot be read. -/
def FileError.report : FileError → String
  | .notFound =>
      "Error: Os \x7b code: 2, kind: NotFound, message: \"No such file or directory\" \x7d\n"
  | .isDirectory =>
      "Error: Os \x7b code: 21, kind: IsADirectory, message: \"Is a directory\" \x7d\n"

namespace Transcript

/-- What is written before each line of a dialogue. -/
def prompt : String := "> "

/-- The run of a script. -/
def ofScript (limit : Nat) : Except FileError String → Transcript
  | .error e => { err := e.report, exit := 1 }
  | .ok text =>
      let (reply, _) := (Session.start limit).enter text
      { out := reply.out, err := reply.err, exit := if reply.failed then 1 else 0 }

/-- The rest of a dialogue. -/
def ofLines (session : Session) : List String → Transcript
  | [] => { out := prompt ++ "\n" }
  | line :: lines =>
      let (reply, session) := session.enterLine line
      let rest := ofLines session lines
      { out := prompt ++ reply.out ++ rest.out, err := reply.err ++ rest.err, exit := rest.exit }

/-- A run of the interpreter, given how files are read and what stands in its input. -/
def ofRun (config : Config) (read : String → Except FileError String) (input : String) :
    Transcript :=
  match config.script with
  | some path => ofScript config.callLimit (read path)
  | none =>
      ofLines (Session.start config.callLimit) ((Text.lines input.toList).map String.ofList)

end Transcript

end Bramble
