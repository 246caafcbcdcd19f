import Bureau.Command.Options
import Bureau.Simulation.Basic
import Bureau.Wire.Scenario

/-!
# The command

The command sets up a desk from the environment, brings clients in, lets them act out a scenario
and prints the counters of the desk. It fails with the chain of what went wrong, crashes when an
operation does, and refuses arguments that it does not understand.
-/

namespace Bureau.Command

/-- What the command finds around it. -/
structure Surroundings where
  /-- The environment's variables. -/
  environment : String → Option String
  /-- The contents of files, or why they cannot be read. -/
  file : String → Except String String
  /-- The source of random bits. -/
  random : Nat → BitVec 128
  /-- The time of day. -/
  now : Instant

/-- How the command ends. -/
structure Outcome where
  exitCode : Nat
  output : String := ""
  /-- What is written for the error or the crash. -/
  complaint : String := ""

/-- What keeps the command from its end. -/
inductive Failure where
  | error (chain : List String)
  | crash (overflow : SumOverflow)

/-! ### Complaints -/

/-- A cause below an error: its lines are indented, and it has a number if there are others. -/
def indented (number : Option Nat) (cause : String) : String :=
  let first := (number.map fun n =>
    String.ofList (List.replicate (5 - (Nat.repr n).length) ' ') ++ Nat.repr n ++ ": ").getD "    "
  let others := if number.isSome then "\n       " else "\n    "
  first ++ others.intercalate (cause.splitOn "\n")

/-- An error and its causes as they are written for people. -/
def complaint : List String → String
  | [] => ""
  | [error] => "Error: " ++ error ++ "\n"
  | [error, cause] => "Error: " ++ error ++ "\n\nCaused by:\n" ++ indented none cause ++ "\n"
  | error :: causes =>
    let listed := causes.zipIdx.map fun (cause, n) => indented (some n) cause ++ "\n"
    "Error: " ++ error ++ "\n\nCaused by:\n" ++ String.join listed

/-! ### Steps of the command -/

/-- The settings that the environment and the options choose. -/
def settings (s : Surroundings) (o : Options) : Settings :=
  let chosen := Settings.ofVariables s.environment
  { chosen with
    secret := if chosen.secret.isEmpty then "exchequer-simulator" else chosen.secret
    fiatLifetime := 1000 * o.offerLifetime
    cryptoLifetime := 1000 * o.offerLifetime }

/-- What is said when no database answers. -/
def noDatabase : SetupError :=
  .ledger (.database "pool timed out while waiting for an open connection")

/-- The desk at which the clients will be. A database is never at hand. -/
def setUp (s : Surroundings) (o : Options) : Except (List String) Desk :=
  let desk := Desk.ofSettings (settings s o)
  if o.postgres then
    (desk.bind fun _ => .error noDatabase).mapError fun e =>
      ["connecting to the PostgreSQL ledger", e.message]
  else desk.mapError fun e => [e.message]

/-- The scenario of a text. -/
def readScenario (file : String) (content : Except String String) :
    Except (List String) Scenario :=
  match content with
  | .error reason => .error ["reading scenario file " ++ file, reason]
  | .ok text =>
    (Json.decode Wire.decode text).mapError fun fault =>
      ["parsing scenario file " ++ file, fault.message]

/-- The scenario to act out, if there is one. -/
def scenarioOf (s : Surroundings) (o : Options) : Except (List String) (Option Scenario) :=
  match o.scenario, o.scenarioFile with
  | some name, _ => ((Scenario.named name).map some).mapError (·.chain)
  | none, some file => (readScenario file (s.file file)).map some
  | none, none => .ok none

/-- The simulation and its world before anything has happened. -/
def opening (s : Surroundings) (o : Options) (desk : Desk) : Simulation × World :=
  ({ desk, speed := o.speed, choices := mkStdGen (o.seed.getD (s.random 0).toNat) },
    { now := s.now
      random := s.random
      rates := { name := "simulated-rates" }
      lockWait := Desk.ms desk.settings.lockWait })

/-- Plays a part of the simulation, or tells what broke it off. -/
def playOn (x : Simulation.Play Unit) (state : Simulation × World) :
    Except Failure (Simulation × World) :=
  match Simulation.play x state.1 state.2 with
  | (.ok (), simulation, world) => .ok (simulation, world)
  | (.error (.crashed overflow), _) => .error (.crash overflow)
  | (.error e, _) => .error (.error e.chain)

/-- Everything that happens at the desk, and the counters at its end. -/
def happen (s : Surroundings) (o : Options) (desk : Desk) : Except Failure Counters := do
  let state ← playOn (Simulation.populate o.clients) (opening s o desk)
  let part := match ← (scenarioOf s o).mapError .error with
    | some scenario => Simulation.perform scenario
    | none => Simulation.trade (1000 * o.duration)
  let (_, world) ← playOn part state
  return world.counters

/-- Runs the command with some arguments. -/
def run (s : Surroundings) (arguments : List String) : Outcome :=
  match Request.ofArguments? arguments with
  | none => { exitCode := 2 }
  | some .help => { exitCode := 0, output := help }
  | some (.simulate o) =>
    match ((setUp s o).mapError .error).bind (happen s o) with
    | .ok counters => { exitCode := 0, output := counters.report ++ "\n" }
    | .error (.error chain) => { exitCode := 1, complaint := complaint chain }
    | .error (.crash overflow) => { exitCode := 101, complaint := overflow.message ++ "\n" }

end Bureau.Command
