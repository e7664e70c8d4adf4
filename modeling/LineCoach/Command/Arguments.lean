import LineCoach.Path.Basic
import LineCoach.Report.Basic

/-!
# The command line

Arguments are read from left to right. An option can be written with its value behind it, after an
equals sign, or joined to its short name; short names without values can be joined to each other.
After a double dash everything is a plain argument. Options that every command has can stand before
the command or behind it, and there they win. The first fault, or the first wish for help or the
version, settles what happens.
-/

namespace LineCoach.Command

/-- What to do with the files that are checked. -/
structure CheckOptions where
  path : Path := ⟨"."⟩
  format : Format := .text
  /-- Names or codes of the classifiers to run, between commas. -/
  classifiers : Option String := none
  /-- Patterns to leave out. -/
  exclude : List String := []
  maxLineLength : Option Nat := none
deriving DecidableEq, Repr

/-- What the user asks for. -/
inductive Task where
  | check (options : CheckOptions)
  | listClassifiers
  | init (force : Bool)
deriving DecidableEq, Repr

/-- A task with the options that every task has. -/
structure Request where
  task : Task
  verbose : Bool
  /-- The configuration file that is asked for. -/
  config : Option Path
deriving DecidableEq, Repr

/-- What ends the reading of arguments before there is a request. -/
inductive Stop where
  | help
  | version
  /-- The arguments cannot be used. -/
  | misuse
deriving DecidableEq, Repr

/-- The options by what they mean. -/
inductive Switch where
  | verbose
  | config
  | format
  | classifiers
  | exclude
  | maxLineLength
  | force
  | help
  | version
deriving DecidableEq, Repr

namespace Switch

/-- The name behind a double dash. -/
def long : Switch → String
  | verbose => "verbose"
  | config => "config"
  | format => "format"
  | classifiers => "classifiers"
  | exclude => "exclude"
  | maxLineLength => "max-line-length"
  | force => "force"
  | help => "help"
  | version => "version"

/-- The letter behind a single dash. -/
def short? : Switch → Option Char
  | verbose => some 'v'
  | config => some 'c'
  | format => some 'f'
  | exclude => some 'e'
  | help => some 'h'
  | version => some 'V'
  | _ => none

/-- Whether the option has a value. -/
def takesValue : Switch → Bool
  | config => true
  | format => true
  | classifiers => true
  | exclude => true
  | maxLineLength => true
  | _ => false

end Switch

/-- The places where options are given: before a command, or behind one of the commands. -/
inductive Level where
  | top
  | check
  | listClassifiers
  | init
deriving DecidableEq, Repr

namespace Level

/-- The options that are known at a place. -/
def switches : Level → List Switch
  | top => [.verbose, .config, .help, .version]
  | check =>
    [.verbose, .config, .help, .format, .classifiers, .exclude, .maxLineLength]
  | listClassifiers => [.verbose, .config, .help]
  | init => [.verbose, .config, .help, .force]

/-- The command with this name. -/
def ofName? (name : String) : Option Level :=
  if name = "check" then some .check
  else if name = "list-classifiers" then some .listClassifiers
  else if name = "init" then some .init
  else none

end Level

/-- The number that a text of decimal digits stands for, if it has 64 bits. A plus may stand in
front. -/
def readCount? (text : String) : Option Nat :=
  let digits := match text.toList with
    | '+' :: digits => digits
    | digits => digits
  if digits.isEmpty || !digits.all Char.isDigit then none
  else
    let value := digits.foldl (fun value c => value * 10 + (c.toNat - '0'.toNat)) 0
    if value < UInt64.size then some value else none

/-- What was given at one place so far. -/
structure Given where
  /-- The options with their values, in order; an option without a value has an empty one. -/
  options : List (Switch × String) := []
  /-- The plain arguments, in order. -/
  plain : List String := []

namespace Given

/-- Whether an option was given. -/
def has (given : Given) (switch : Switch) : Bool :=
  given.options.any (·.1 = switch)

/-- The value of an option, when it was given. -/
def value? (given : Given) (switch : Switch) : Option String :=
  given.options.lookup switch

/-- All values of an option that can be repeated. -/
def values (given : Given) (switch : Switch) : List String :=
  (given.options.filter (·.1 = switch)).map Prod.snd

/-- Whether an option can have this value. -/
def allows (switch : Switch) (value : String) : Bool :=
  match switch with
  | .config => value ≠ ""
  | .format => (Format.ofName? value).isSome
  | .maxLineLength => (readCount? value).isSome
  | _ => true

/-- Take an option with its value. Only exclusions can be given more than once. -/
def add (given : Given) (switch : Switch) (value : String) : Except Stop Given :=
  if switch = .help then .error .help
  else if switch = .version then .error .version
  else if switch ≠ .exclude && given.has switch then .error .misuse
  else if !allows switch value then .error .misuse
  else .ok { given with options := given.options ++ [(switch, value)] }

/-- Take a plain argument, which only the command that checks has, once. -/
def addPlain (level : Level) (given : Given) (argument : String) : Except Stop Given :=
  if level = .check && given.plain.isEmpty && argument ≠ "" then
    .ok { given with plain := [argument] }
  else .error .misuse

end Given

/-- Where the reading of arguments at one place stands. -/
structure Reading where
  given : Given := {}
  /-- The option whose value comes next. -/
  pending : Option Switch := none
  /-- Whether a double dash was met. -/
  onlyPlain : Bool := false

/-- Read a long option without its two dashes. -/
def readLong (level : Level) (given : Given) (text : List Char) : Except Stop Reading :=
  let name := String.ofList (text.takeWhile (· ≠ '='))
  let value? := (text.dropWhile (· ≠ '=')).tail?
  match level.switches.find? (·.long = name), value? with
  | none, _ => .error .misuse
  | some switch, some value =>
    if switch.takesValue then do return { given := ← given.add switch (String.ofList value) }
    else .error .misuse
  | some switch, none =>
    if switch.takesValue then .ok { given, pending := some switch }
    else do return { given := ← given.add switch "" }

/-- Read short options without their dash. What follows one with a value is its value. -/
def readShorts (level : Level) (given : Given) : List Char → Except Stop Reading
  | [] => .ok { given }
  | letter :: rest =>
    match level.switches.find? (·.short? = some letter) with
    | none => .error .misuse
    | some switch =>
      if switch.takesValue then
        match rest with
        | [] => .ok { given, pending := some switch }
        | '=' :: value => do return { given := ← given.add switch (String.ofList value) }
        | value => do return { given := ← given.add switch (String.ofList value) }
      else do readShorts level (← given.add switch "") rest

/-- Read one argument. -/
def readArgument (level : Level) (reading : Reading) (argument : String) : Except Stop Reading :=
  if reading.onlyPlain then do
    return { reading with given := ← reading.given.addPlain level argument }
  else
    match argument.toList, reading.pending with
    | '-' :: '-' :: text, pending =>
      if pending.isSome then .error .misuse
      else if text.isEmpty then .ok { reading with onlyPlain := true }
      else readLong level reading.given text
    | '-' :: letter :: text, pending =>
      if pending.isSome then .error .misuse else readShorts level reading.given (letter :: text)
    | _, some switch => do return { given := ← reading.given.add switch argument }
    | _, none => do return { given := ← reading.given.addPlain level argument }

/-- Read all arguments behind a command. -/
def readLevel (level : Level) (reading : Reading) : List String → Except Stop Given
  | [] => if reading.pending.isSome then .error .misuse else .ok reading.given
  | argument :: rest => do readLevel level (← readArgument level reading argument) rest

/-- What asking for help on commands comes to: help, if the commands are known. -/
def readHelp : List String → Stop
  | [] => .help
  | [name] => if name = "help" || (Level.ofName? name).isSome then .help else .misuse
  | ["help", name] => if name = "help" || (Level.ofName? name).isSome then .help else .misuse
  | _ => .misuse

/-- Read arguments up to and with the command, and then those behind it. -/
def readTop (reading : Reading) : List String → Except Stop (Given × Level × Given)
  | [] => .error .misuse
  | argument :: rest =>
    if reading.pending.isNone && !reading.onlyPlain then
      if argument = "help" then .error (readHelp rest)
      else
        match Level.ofName? argument with
        | some level => do return (reading.given, level, ← readLevel level {} rest)
        | none => do readTop (← readArgument .top reading argument) rest
    else do readTop (← readArgument .top reading argument) rest

/-- The task of a command. -/
def taskOf (level : Level) (given : Given) : Task :=
  match level with
  | .init => .init (given.has .force)
  | .check =>
    .check
      { path := ⟨given.plain.head?.getD "."⟩
        format := ((given.value? .format).bind Format.ofName?).getD .text
        classifiers := given.value? .classifiers
        exclude := given.values .exclude
        maxLineLength := (given.value? .maxLineLength).bind readCount? }
  | _ => .listClassifiers

/-- Read the arguments. `config` is the configuration file that the environment names, which holds
where no option names one; an empty name cannot be used. -/
def readArguments (config : Option String) (arguments : List String) : Except Stop Request := do
  let (top, level, behind) ← readTop {} arguments
  if config = some "" && !(top.has .config && behind.has .config) then throw .misuse
  let named := (behind.value? .config).or ((top.value? .config).or config)
  return {
    task := taskOf level behind
    verbose := top.has .verbose || behind.has .verbose
    config := named.map Path.mk }

end LineCoach.Command
