/-!
# Arguments

A command line is an option for the configuration file and a command with its values. Options
of the program stand before the command. The first argument that does not fit makes the whole
line wrong, and the first request for help before it is answered.
-/

namespace RegistryLookup.CommandLine

/-- What is to be done. -/
inductive Command
  | company (registry id : String)
  | search (registry text : String)
  | registries
  | checkConfig
  deriving DecidableEq

/-- A command and the file of the configuration. -/
structure Arguments where
  config : String
  command : Command
  deriving DecidableEq

/-- What a command line comes to. -/
inductive Parsed
  | run (arguments : Arguments)
  | help
  | wrong
  deriving DecidableEq

/-- The configuration file when none is named. -/
def defaultConfig : String := "config/gateway.toml"

/-- Whether an argument is an option: a hyphen on its own is a value. -/
def isOption (arg : String) : Bool := arg.toList.head? = some '-' && arg ≠ "-"

/-- Whether an argument asks for help. -/
def asksHelp (arg : String) : Bool := arg = "--help" || ['-', 'h'].isPrefixOf arg.toList

/-- The values of a command, or why there are none. -/
inductive Values
  | ok (values : List String)
  | help
  | wrong
  deriving DecidableEq

/-- Read at most `room` values. Behind two hyphens every argument is a value. -/
def readValues (plain : Bool) : Nat → List String → Values
  | _, [] => .ok []
  | room, arg :: rest =>
    if !plain && arg = "--" then readValues true room rest
    else if !plain && asksHelp arg then .help
    else if !plain && isOption arg then .wrong
    else
      match room with
      | 0 => .wrong
      | room + 1 =>
        match readValues plain room rest with
        | .ok values => .ok (arg :: values)
        | other => other

/-- The number of values that a command takes. -/
def arity? (name : String) : Option Nat :=
  match name with
  | "company" => some 2
  | "search" => some 2
  | "registries" => some 0
  | "check-config" => some 0
  | _ => none

/-- A command with its values. -/
def command? (name : String) (values : List String) : Option Command :=
  match name, values with
  | "company", [registry, id] => some (.company registry id)
  | "search", [registry, text] => some (.search registry text)
  | "registries", [] => some .registries
  | "check-config", [] => some .checkConfig
  | _, _ => none

/-- Read a command and what follows it. -/
def readCommand (config : Option String) (name : String) (rest : List String) : Parsed :=
  if name = "help" then
    match rest with
    | [] => .help
    | [topic] => if (arity? topic).isSome || topic = "help" then .help else .wrong
    | _ => .wrong
  else
    match arity? name with
    | none => .wrong
    | some room =>
      match readValues false room rest with
      | .help => .help
      | .wrong => .wrong
      | .ok values =>
        match command? name values with
        | some command => .run ⟨config.getD defaultConfig, command⟩
        | none => .wrong

/-- The value in the same argument as the option for the configuration file. -/
def attached? (arg : String) : Option String :=
  match arg.toList with
  | '-' :: 'c' :: '=' :: value => some (String.ofList value)
  | '-' :: 'c' :: c :: value => some (String.ofList (c :: value))
  | cs =>
    if "--config=".toList.isPrefixOf cs then some (String.ofList (cs.drop 9)) else none

/-- Read the options of the program, and then the command. A file can be named once. -/
def readFrom (config : Option String) : List String → Parsed
  | [] => .wrong
  | [arg] =>
    if asksHelp arg then .help
    else if isOption arg then .wrong
    else readCommand config arg []
  | arg :: next :: rest =>
    if asksHelp arg then .help
    else if arg = "-c" || arg = "--config" then
      if config.isSome || next = "" || isOption next then .wrong
      else readFrom (some next) rest
    else if isOption arg then
      match attached? arg with
      | none => .wrong
      | some value =>
        if config.isSome || value = "" then .wrong else readFrom (some value) (next :: rest)
    else readCommand config arg (next :: rest)

/-- The meaning of a command line. -/
def parse (args : List String) : Parsed := readFrom none args

end RegistryLookup.CommandLine
