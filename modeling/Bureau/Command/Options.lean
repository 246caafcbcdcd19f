import Bureau.Words
import Bureau.Text.Double

/-!
# Options of the command

Options are given by a long name, some also by a letter, and none more than once. A value follows
its option as the next argument, unless that looks like an option itself, or is attached to it.
-/

namespace Bureau.Command

/-- What the command has been asked to do. -/
structure Options where
  /-- Number of clients. -/
  clients : Nat := 3
  /-- Name of the scenario to act out. -/
  scenario : Option String := none
  /-- File of the scenario to act out. -/
  scenarioFile : Option String := none
  speed : Float := 1.0
  /-- Where random choices start. -/
  seed : Option Nat := none
  /-- Seconds of random exchanges when there is no scenario. -/
  duration : Nat := 0
  /-- Lifetime of offers in seconds. -/
  offerLifetime : Nat := 5
  /-- Whether to post to a database. -/
  postgres : Bool := false
  /-- Whether messages are written as JSON. -/
  json : Bool := false

/-- What the arguments ask for. -/
inductive Request where
  | help
  | simulate (options : Options)

/-- A natural number of 64 bits. -/
def word? (text : String) : Option Nat := Text.naturalBelow? (twoTo 64) text

/-- The options with a value, under their long names; each takes its value if it is of its kind. -/
def valued : List (String × (Options → String → Option Options)) := [
  ("clients", fun o text => (word? text).map fun clients => { o with clients }),
  ("scenario", fun o text => some { o with scenario := some text }),
  ("scenario-file", fun o text =>
    if text.isEmpty then none else some { o with scenarioFile := some text }),
  ("speed", fun o text => (Text.double? text).map fun speed => { o with speed }),
  ("seed", fun o text => (word? text).map fun seed => { o with seed := some seed }),
  ("duration", fun o text => (word? text).map fun duration => { o with duration }),
  ("offer-ttl-secs", fun o text =>
    (word? text).map fun offerLifetime => { o with offerLifetime })]

/-- The options without a value. -/
def switches : List (String × (Options → Options)) := [
  ("postgres", fun o => { o with postgres := true }),
  ("json", fun o => { o with json := true })]

/-- The long names of letters. -/
def letters : List (Char × String) := [('c', "clients"), ('s', "scenario")]

/-- An argument. -/
inductive Argument where
  /-- A long name, and the value that is attached to it. -/
  | long (name : String) (value : Option String)
  /-- A letter, and what is attached to it. -/
  | letter (letter : Char) (attached : List Char)
  /-- The end of all options. -/
  | last
  | plain (text : String)

/-- The text behind an equals sign. -/
def behindSign : List Char → Option String
  | '=' :: value => some (String.ofList value)
  | _ => none

/-- Tells by its leading hyphens what kind of argument a word is. -/
def Argument.ofString (text : String) : Argument :=
  match text.toList with
  | ['-', '-'] => last
  | '-' :: '-' :: rest =>
    long (String.ofList (rest.takeWhile (· != '='))) (behindSign (rest.dropWhile (· != '=')))
  | '-' :: c :: attached => letter c attached
  | _ => plain text

/-- The options read so far, and the names that have been used. -/
structure Reading where
  options : Options := {}
  used : List String := []

/-- Sets an option to a value. -/
def Reading.set? (r : Reading) (name value : String) : Option Reading :=
  if name ∈ r.used then none
  else
    (valued.lookup name).bind fun take =>
      (take r.options value).map fun options => ⟨options, name :: r.used⟩

/-- Turns a switch on. -/
def Reading.switch? (r : Reading) (name : String) : Option Reading :=
  if name ∈ r.used then none
  else (switches.lookup name).map fun turn => ⟨turn r.options, name :: r.used⟩

/-- The options, if they agree with each other. -/
def Reading.finish? (r : Reading) : Option Request :=
  if r.options.scenario.isSome ∧ r.options.scenarioFile.isSome then none
  else some (.simulate r.options)

/-- Reads on; the name is that of an option whose value has to follow. -/
def readOn? (r : Reading) : Option String → List String → Option Request
  | none, [] => r.finish?
  | some _, [] => none
  | some name, text :: rest =>
    match Argument.ofString text with
    | .plain value => (r.set? name value).bind fun r => readOn? r none rest
    | _ => none
  | none, text :: rest =>
    match Argument.ofString text with
    | .plain _ => none
    | .last => if rest.isEmpty then r.finish? else none
    | .long "help" none => some .help
    | .long name (some value) => (r.set? name value).bind fun r => readOn? r none rest
    | .long name none =>
      if (valued.lookup name).isSome then
        if name ∈ r.used then none else readOn? r (some name) rest
      else (r.switch? name).bind fun r => readOn? r none rest
    | .letter 'h' _ => some .help
    | .letter letter attached =>
      (letters.lookup letter).bind fun name =>
        if attached.isEmpty then
          if name ∈ r.used then none else readOn? r (some name) rest
        else
          let value := (behindSign attached).getD (String.ofList attached)
          (r.set? name value).bind fun r => readOn? r none rest

/-- What the arguments ask for, if they can be understood. -/
def Request.ofArguments? (arguments : List String) : Option Request :=
  readOn? {} none arguments

/-- The explanation of all options. -/
def help : String :=
  "Exchequer exchange simulation environment\n\nUsage: simulator [OPTIONS]\n\nOptions:\n" ++
    String.join [
      "  -c, --clients <CLIENTS>\n",
      "          Number of simulated clients to create [default: 3]\n",
      "  -s, --scenario <SCENARIO>\n",
      "          Built-in scenario to run\n",
      "      --scenario-file <SCENARIO_FILE>\n",
      "          Scenario to run from a JSON file\n",
      "      --speed <SPEED>\n",
      "          Simulation speed multiplier [default: 1.0]\n",
      "      --seed <SEED>\n",
      "          Random seed for reproducibility\n",
      "      --duration <DURATION>\n",
      "          Run duration in seconds (0 = until Ctrl+C) [default: 0]\n",
      "      --offer-ttl-secs <OFFER_TTL_SECS>\n",
      "          Lifetime of simulated offers in seconds [default: 5]\n",
      "      --postgres\n",
      "          Post to PostgreSQL at DATABASE_URL instead of the in-memory ledger\n",
      "      --json\n",
      "          Emit logs as JSON\n",
      "  -h, --help\n",
      "          Print help\n"]

end Bureau.Command
