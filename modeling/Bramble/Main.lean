import Bramble.Session.CommandLine

/-!
# The command line

`bramble SCRIPT` runs a script, and without a script the interpreter holds a dialogue on its
standard input.
-/

set_option autoImplicit false

namespace Bramble

/-- The variable of the environment that sets the limit on nested calls. -/
def limitVariable : String := "BOGUS_MAX_CALL_DEPTH"

/-- Reads a script. -/
def readScript (path : String) : IO (Except FileError String) := do
  try
    return .ok (← IO.FS.readFile path)
  catch
    | .noFileOrDirectory .. => return .error .notFound
    | .inappropriateType .. => return .error .isDirectory
    | e => throw e

/-- Answers lines of the input until it ends. -/
partial def dialogue (session : Session) : IO Unit := do
  let stdout ← IO.getStdout
  stdout.putStr Transcript.prompt
  stdout.flush
  let line ← (← IO.getStdin).getLine
  if line.isEmpty then
    stdout.putStr "\n"
  else
    let (reply, session) := session.enterLine line
    stdout.putStr reply.out
    IO.eprint reply.err
    dialogue session

end Bramble

/-- Runs the interpreter on the words of a command line. -/
def main (args : List String) : IO UInt32 := do
  let config := Bramble.Config.ofWords args (← IO.getEnv Bramble.limitVariable)
  match config.script with
  | some path =>
      let transcript := Bramble.Transcript.ofScript config.callLimit (← Bramble.readScript path)
      IO.print transcript.out
      IO.eprint transcript.err
      return transcript.exit
  | none =>
      Bramble.dialogue (Bramble.Session.start config.callLimit)
      return 0
