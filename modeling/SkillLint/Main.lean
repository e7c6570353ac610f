import SkillLint.Archive
import SkillLint.CommandLine.Execute

/-!
# The program

The program reads its words, its environment, and the project as an archive on standard
input, and writes what `Request.execute` answers:

    tar --format=ustar -cf - . | skillcheck validate
-/

namespace SkillLint

/-- Reads a stream to its end. -/
partial def readAll (stream : IO.FS.Stream) (soFar : ByteArray) : IO ByteArray := do
  let chunk ← stream.read 65536
  if chunk.isEmpty then return soFar
  readAll stream (soFar ++ chunk)

/-- The variables that matter, as far as they are set. -/
def readVariables : IO Environment :=
  Config.variableNames.filterMapM fun name => do
    return (← IO.getEnv name).map fun value => (name, value)

/-- Writes an outcome. -/
def CommandLine.Outcome.write (outcome : CommandLine.Outcome) : IO UInt32 := do
  (← IO.getStdout).putStr outcome.output
  (← IO.getStderr).putStr outcome.errors
  return outcome.exitCode.toUInt32

end SkillLint

open SkillLint in
/-- Answers the command line. -/
def main (words : List String) : IO UInt32 := do
  match CommandLine.Request.ofWords words with
  | .error refusal => refusal.outcome.write
  | .ok request =>
    match Archive.tree? ["project"] (← readAll (← IO.getStdin) .empty) with
    | some tree => (request.execute tree (← readVariables)).write
    | none =>
      (CommandLine.Outcome.ofError request.wantsJson (.io "the archive is malformed")).write
