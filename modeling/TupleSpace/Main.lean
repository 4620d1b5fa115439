import Std.Time.DateTime.Timestamp
import TupleSpace.CommandLine.Response

/-!
# The program

Reads the files that the arguments name and the clock on the wall, prints the answer, and ends with
its code.
-/

namespace TupleSpace

/-- The instant so many nanoseconds after the first of January 1970. -/
def Moment.ofUnixNanos (n : Nat) : Moment := Moment.after ⟨0, 0, 0⟩ n

/-- The reading of the clock on the wall. -/
def readWall : IO Moment := do
  let now ← Std.Time.Timestamp.now
  return .ofUnixNanos now.toNanosecondsSinceUnixEpoch.val.toNat

/-- Adds what stands at a path; something that is no readable file stands there as a directory. -/
def readPath (files : Files) (path : String) : IO Files := do
  match ← (IO.FS.readFile path).toBaseIO with
  | .ok text => return files.set (Files.parts path) (.file text)
  | .error (.noFileOrDirectory ..) => return files
  | .error _ => return files.set (Files.parts path) .directory

/-- Answers arguments: prints the lines of the answer and returns its code. -/
def answerArguments (args : List String) : IO Nat := do
  let files ← (Response.pathsOf args).foldlM readPath {}
  let wall ← readWall
  let start ← IO.monoNanosNow
  let response := Response.ofArguments args files wall
  let code := response.code
  let stop ← IO.monoNanosNow
  for line in response.output (stop - start) do
    IO.println line
  for line in response.errors do
    IO.eprintln line
  return code

end TupleSpace

/-- Answers the arguments. -/
def main (args : List String) : IO UInt32 := do
  return (← TupleSpace.answerArguments args).toUInt32
