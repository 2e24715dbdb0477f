import RegistryLookup.Caller.Report
import RegistryLookup.CommandLine.Arguments
import RegistryLookup.Config.Loader
import RegistryLookup.Failure.Term
import RegistryLookup.Gateway.Session
import RegistryLookup.Json.Printer

/-!
# Running a command

A command is run on a configuration file and a network. It tells how it went by a code: zero
when all went well, one when the gateway failed, and two when the arguments or the
configuration cannot be used.
-/

namespace RegistryLookup.CommandLine

/-- What a command leaves behind. -/
structure Report where
  code : Nat := 0
  /-- The text for standard output. -/
  out : String := ""
  /-- The text for standard error. -/
  err : String := ""
  /-- The requests that reached a host, first one first. -/
  arrivals : List Http.Request := []

/-- How the program is used. -/
def usage : String := "Usage: registry-gateway [OPTIONS] <COMMAND>\n"

/-- The report for a line that asks for help. -/
def helpReport : Report := { out := usage }

/-- The report for a wrong line. -/
def wrongReport : Report := { code := 2, err := usage }

/-- The report of a failure of the gateway. -/
def failureReport (e : Failure) : Report := { code := 1, err := "Error: " ++ e.term ++ "\n" }

/-- The report of a value. -/
def valueReport (v : Json) : Report := { out := v.pretty ++ "\n" }

/-- Look something up, and wait for the answer. -/
def lookUp (gateway : Gateway) (network : Http.Network) (registry : String) (what : Lookup) :
    Report :=
  let w := Gateway.Session.ofGateway gateway network
  let (step, _) := Gateway.Session.step w [.lookup registry what false none]
  let report := match step.answers with
    | [.result (.ok v)] => valueReport v
    | [.result (.error e)] => failureReport e
    | [.refused e] => failureReport e
    | _ => { code := 1 }
  { report with arrivals := step.arrivals }

/-- Run a command on a gateway. -/
def runOn (gateway : Gateway) (network : Http.Network) : Command → Report
  | .company registry id => lookUp gateway network registry (.company id)
  | .search registry text => lookUp gateway network registry (.search text)
  | .registries => valueReport (.array ((gateway.health 0).map Caller.Health.toJson))
  | .checkConfig => {}

/-- Run a command with the configuration file that it names. -/
def run (arguments : Arguments) (file : Config.File) (network : Http.Network) : Report :=
  match Config.load file with
  | .error fault =>
    { code := 2, err := "Error: " ++ arguments.config ++ ": " ++ fault.message ++ "\n" }
  | .ok settings =>
    match arguments.command with
    | .checkConfig =>
      { out := arguments.config ++ ": ok (" ++ toString settings.registries.length ++
          " registries)\n" }
    | command =>
      match Gateway.ofSettings settings 0 with
      | .error e => failureReport e
      | .ok gateway => runOn gateway network command

/-- Answer a command line. `read` gives the file at a path. -/
def answer (read : String → Config.File) (network : Http.Network) (args : List String) : Report :=
  match parse args with
  | .help => helpReport
  | .wrong => wrongReport
  | .run arguments => run arguments (read arguments.config) network

end RegistryLookup.CommandLine
