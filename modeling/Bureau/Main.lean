import Bureau.Command.Basic
import Bureau.Hash.Sha256
import Std.Time.DateTime.Timestamp

/-!
# The program

The outer layer of the command: it looks at the clock, the environment and the scenario file, draws
a seed for random bits, and prints what the command answers.
-/

namespace Bureau.Command

/-- The random bits of a seed: the first half of the hash of the seed and a number. -/
def randomOf (seed : Bytes) (n : Nat) : BitVec 128 :=
  BitVec.ofNat 128 (Bytes.toNat ((Sha256.hash (seed ++ Bytes.ofNat 8 n)).take 16))

/-- The present moment. -/
def present : IO Instant := do
  let t ← Std.Time.Timestamp.now
  let nanos := t.toNanosecondsSinceUnixEpoch.val
  return ⟨nanos / 1000000000, (nanos % 1000000000).toNat⟩

/-- The values of the variables that the settings look at. -/
def environment : IO (List (String × String)) :=
  Settings.variableNames.filterMapM fun name => do
    return (← IO.getEnv name).map (name, ·)

/-- The content of a file, or why it cannot be read. -/
def content (file : String) : IO (Except String String) := do
  try return .ok (← IO.FS.readFile file)
  catch
    | .noFileOrDirectory .. => return .error "No such file or directory (os error 2)"
    | .permissionDenied .. => return .error "Permission denied (os error 13)"
    | e => return .error (toString e)

/-- What the command finds around it when it has these arguments. -/
def surroundings (arguments : List String) : IO Surroundings := do
  let values ← environment
  let read ← match Request.ofArguments? arguments with
    | some (.simulate { scenarioFile := some file, .. }) => content file
    | _ => pure (.error "not read")
  let seed := (← IO.getRandomBytes 32).toList
  return {
    environment := (values.lookup ·)
    file := fun _ => read
    random := randomOf seed
    now := ← present }

end Bureau.Command

/-- Does what the arguments ask for and prints the outcome. -/
def main (arguments : List String) : IO UInt32 := do
  let outcome := Bureau.Command.run (← Bureau.Command.surroundings arguments) arguments
  IO.print outcome.output
  IO.eprint outcome.complaint
  return outcome.exitCode.toUInt32
