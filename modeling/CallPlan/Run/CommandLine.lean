import CallPlan.Run.Settings

/-!
# Command lines

A command line is a command with its arguments and options; `-v` may stand anywhere. Options are
read from left to right:

* an option with a value takes it attached (`--depth=2`, `-d2`) or as the next argument, which must
  not look like an option itself;
* options of one letter may be joined (`-vd2`);
* behind `--` nothing is an option.

What is wrong with an attached value shows at once; what is wrong with the value in an argument of
its own, or with its absence, shows when the next argument is accepted or the command line ends.
-/

namespace CallPlan.CommandLine

/-- Why a command line is rejected. -/
inductive Rejection where
  | missingArgument
  | unknownCommand
  | unknownArgument
  /-- An option is given twice. -/
  | repeatedOption
  /-- A value is missing or empty. -/
  | invalidValue
  /-- An option without a value is given one. -/
  | unwantedValue
  /-- A value is not a number, or is too large. -/
  | notANumber
  /-- The usage is asked for. -/
  | helpWanted
deriving DecidableEq, Repr

/-- What values are stored under. -/
inductive Key where
  | catalog | output | config | depth | noFiltering | maxPlans | workers | json | verbose | help
deriving DecidableEq, Repr

/-- What an option takes. -/
inductive Kind where
  | flag
  /-- Counts how often it is given. -/
  | counter
  /-- Asks for the usage, which ends the reading. -/
  | question
  /-- A path, which is not empty. -/
  | path
  /-- A whole number of 64 bits. -/
  | number
deriving DecidableEq, Repr

/-- What a key stands for. -/
def Key.kind : Key → Kind
  | .catalog | .output | .config => .path
  | .depth | .maxPlans | .workers => .number
  | .noFiltering | .json => .flag
  | .verbose => .counter
  | .help => .question

/-- The long name of an option. The catalogue is no option. -/
def Key.long? : Key → Option String
  | .catalog => none
  | .output => some "output"
  | .config => some "config"
  | .depth => some "depth"
  | .noFiltering => some "no-filtering"
  | .maxPlans => some "max-plans"
  | .workers => some "workers"
  | .json => some "json"
  | .verbose => some "verbose"
  | .help => some "help"

/-- The letter of an option, if it has one. -/
def Key.letter? : Key → Option Char
  | .output => some 'o'
  | .config => some 'c'
  | .depth => some 'd'
  | .workers => some 'w'
  | .verbose => some 'v'
  | .help => some 'h'
  | _ => none

/-- The number that a text spells, a plus sign in front or not, if it has 64 bits at most. -/
def number? (text : String) : Option Nat :=
  let digits := match text.toList with
    | '+' :: rest => rest
    | cs => cs
  if digits.isEmpty || !digits.all Char.isDigit then none
  else
    let n := digits.foldl (fun n c => 10 * n + (c.toNat - '0'.toNat)) 0
    if n < UInt64.size then some n else none

/-! ### Arguments of one command -/

/-- What is read of a command's arguments. -/
structure Scan where
  /-- The options and the catalogue, with their values; flags have an empty one. -/
  given : List (Key × String) := []
  /-- How often `-v` is given. -/
  verbosity : Nat := 0
  classes : List String := []
  /-- An option that still needs its value, or one whose value is not looked at yet. -/
  pending : Option (Key × Option String) := none
  /-- Whether the catalogue is given. -/
  hasCatalog : Bool := false
  /-- Whether no more options follow. -/
  optionsEnded : Bool := false

namespace Scan

/-- Stores a value under a key that has none yet, if it is a value of the right kind. -/
def store (s : Scan) (key : Key) (value : String) : Except Rejection Scan :=
  -- a repetition counts more than a bad value
  if s.given.any (·.1 == key) then .error .repeatedOption
  else match key.kind with
    | .path =>
      if value.isEmpty then .error .invalidValue
      else .ok { s with given := s.given ++ [(key, value)] }
    | .number =>
      if (number? value).isNone then .error .notANumber
      else .ok { s with given := s.given ++ [(key, value)] }
    | .flag | .counter | .question => .ok { s with given := s.given ++ [(key, value)] }

/-- Looks at the value that is still to be looked at. -/
def settle (s : Scan) : Except Rejection Scan :=
  match s.pending with
  | none => .ok s
  | some (_, none) => .error .invalidValue
  | some (key, some value) => { s with pending := none }.store key value

/-- Accepts an option without a value. -/
def acceptFlag (s : Scan) (key : Key) : Except Rejection Scan := do
  let s ← s.settle
  match key.kind with
  | .counter => return { s with verbosity := min 255 (s.verbosity + 1) }
  | .question => throw .helpWanted
  | _ => s.store key ""

/-- Accepts an option with its value attached. -/
def acceptAttached (s : Scan) (key : Key) (value : String) : Except Rejection Scan := do
  let s ← s.settle
  s.store key value

/-- Accepts an option whose value is to follow. -/
def acceptOpen (s : Scan) (key : Key) : Except Rejection Scan := do
  let s ← s.settle
  return { s with pending := some (key, none) }

/-- Whether options of the key take a value. -/
def takesValue (key : Key) : Bool :=
  match key.kind with
  | .path | .number => true
  | .flag | .counter | .question => false

/-- An argument that starts with two dashes. -/
def long (s : Scan) (keys : List Key) (body : List Char) : Except Rejection Scan :=
  let name := body.takeWhile (· ≠ '=')
  let value? := match body.drop name.length with
    | [] => none
    | _ :: value => some (String.ofList value)
  match keys.find? fun k => k.long? == some (String.ofList name) with
  | none => .error .unknownArgument
  | some key =>
    match takesValue key, value? with
    | true, some value => s.acceptAttached key value
    | true, none => s.acceptOpen key
    | false, some _ => .error .unwantedValue
    | false, none => s.acceptFlag key

/-- The letters of an argument that starts with one dash. -/
def letters (keys : List Key) : List Char → Scan → Except Rejection Scan
  | [], s => .ok s
  | c :: rest, s =>
    match keys.find? fun k => k.letter? == some c with
    | none => .error .unknownArgument
    | some key =>
      if takesValue key then
        match rest with
        | [] => s.acceptOpen key
        -- one equals sign may stand between letter and value
        | '=' :: value => s.acceptAttached key (String.ofList value)
        | value => s.acceptAttached key (String.ofList value)
      else do
        let s ← s.acceptFlag key
        letters keys rest s

/-- An argument that is no option: the catalogue first, then classes. -/
def positional (s : Scan) (arg : String) : Except Rejection Scan := do
  let s ← s.settle
  if s.hasCatalog then return { s with classes := s.classes ++ [arg] }
  else return { s with hasCatalog := true, pending := some (.catalog, some arg) }

/-- One more argument of a command that has the options `keys`, and other arguments as far as
`takesPositional`. -/
def next (keys : List Key) (takesPositional : Bool) (s : Scan) (arg : String) :
    Except Rejection Scan :=
  let other : Except Rejection Scan :=
    if takesPositional then s.positional arg else .error .unknownArgument
  if s.optionsEnded then other
  else match arg.toList with
    | ['-', '-'] => .ok { s with optionsEnded := true }
    | '-' :: '-' :: body => s.long keys body
    | '-' :: c :: rest => letters keys (c :: rest) s
    -- a lone dash is an argument like any other
    | _ =>
      match s.pending with
      | some (key, none) => .ok { s with pending := some (key, some arg) }
      | _ => other

/-- The value stored under a key. -/
def value? (s : Scan) (key : Key) : Option String := s.given.lookup key

/-- The number stored under a key. -/
def count? (s : Scan) (key : Key) : Option Nat := s.value? key >>= number?

/-- Whether a flag is given. -/
def has (s : Scan) (key : Key) : Bool := (s.value? key).isSome

end Scan

/-- Reads all arguments of a command. -/
def scan (keys : List Key) (takesPositional : Bool) (args : List String) :
    Except Rejection Scan := do
  let s ← args.foldlM (Scan.next keys takesPositional) {}
  s.settle

/-! ### Commands -/

/-- What both commands that work on a catalogue are given. -/
structure CatalogArguments where
  catalog : String
  classes : List String
  config : Option String
  depth : Option Nat
  /-- Whether the report is written as data. -/
  json : Bool
deriving DecidableEq, Repr

/-- What only generating takes. -/
structure GenerateArguments extends CatalogArguments where
  output : String
  noFiltering : Bool
  maxPlans : Option Nat
  workers : Option Nat
deriving DecidableEq, Repr

/-- A command. -/
inductive Command where
  | generate (arguments : GenerateArguments)
  | inspect (arguments : CatalogArguments)
  | version
deriving DecidableEq, Repr

/-- The values that take precedence over the settings. -/
def GenerateArguments.overrides (a : GenerateArguments) : Overrides :=
  { depth := a.depth
    filtering := if a.noFiltering then some false else none
    plansPerOperation := a.maxPlans
    workers := a.workers }

/-- The values that take precedence over the settings. -/
def CatalogArguments.overrides (a : CatalogArguments) : Overrides := { depth := a.depth }

/-- Where files are written if nothing else is said. -/
def usualOutput : String := "./crasher-out"

/-- The arguments that both commands share. The catalogue has to be among them. -/
def catalogArguments (s : Scan) : Except Rejection CatalogArguments :=
  match s.value? .catalog with
  | none => .error .missingArgument
  | some catalog =>
    .ok { catalog, classes := s.classes, config := s.value? .config, depth := s.count? .depth,
          json := s.has .json }

/-- Whether a command has the name. -/
def isCommand (name : String) : Bool :=
  ["generate", "inspect", "version", "help"].contains name

/-- Whether the arguments are something to ask help about: a command, or the program. -/
def isTopic : List String → Bool
  | [] => true
  | [name] => isCommand name
  | _ => false

/-- Reads the arguments of the command with a name, and how often `-v` is among them. -/
def command (name : String) (args : List String) : Except Rejection (Command × Nat) := do
  match name with
  | "generate" =>
    let keys :=
      [.output, .config, .depth, .noFiltering, .maxPlans, .workers, .json, .verbose, .help]
    let s ← scan keys true args
    let shared ← catalogArguments s
    return (.generate
      { shared with
        output := (s.value? .output).getD usualOutput, noFiltering := s.has .noFiltering,
        maxPlans := s.count? .maxPlans, workers := s.count? .workers }, s.verbosity)
  | "inspect" =>
    let s ← scan [.config, .depth, .json, .verbose, .help] true args
    let shared ← catalogArguments s
    return (.inspect shared, s.verbosity)
  | "version" =>
    let s ← scan [.verbose, .help] false args
    return (.version, s.verbosity)
  | "help" => throw (if isTopic args then .helpWanted else .unknownCommand)
  | _ => throw .unknownCommand

/-- A whole command line. -/
structure Invocation where
  command : Option Command
  /-- How often `-v` is given to the command, or else in front of it. -/
  verbosity : Nat
deriving DecidableEq, Repr

/-- Reads a command line from the point on where `s` is what was read in front of the command. -/
def invocation (s : Scan) : List String → Except Rejection Invocation
  | [] => .ok ⟨none, s.verbosity⟩
  | arg :: rest =>
    if s.optionsEnded then
      .error (if isCommand arg then .unknownArgument else .unknownCommand)
    else if isCommand arg then do
      let (c, verbosity) ← command arg rest
      return ⟨some c, if verbosity = 0 then s.verbosity else verbosity⟩
    else match arg.toList with
      | '-' :: _ :: _ => do
        let s ← s.next [.verbose, .help] false arg
        invocation s rest
      | _ => .error .unknownCommand

/-- Reads a command line. -/
def parse (args : List String) : Except Rejection Invocation := invocation {} args

/-- How much is logged when `-v` is given so often. -/
def logLevel : Nat → String
  | 0 => "warn"
  | 1 => "info"
  | 2 => "debug"
  | _ => "trace"

end CallPlan.CommandLine
