import TrafficGate.CommandLine.Parse
import TrafficGate.Run
import TrafficGate.Services
/-!
# The program

From the command line to the exit code. The settings are read first, then
the key from the environment is put in, logging and metrics are set up, and
the settings of the API are held against what is accepted. With connections
and something to wait for them, the command is carried out. Whatever goes
wrong before is told in one line, and nothing is sent; the last thing that
can go wrong is to write the report.
-/

namespace TrafficGate

/-- What the program is started with, and what it finds. -/
structure Environment where
  args : List String
  files : Files
  apiKey : Option String
  services : Services

/-- What the program writes to its output. -/
inductive Output where
  | nothing
  | help
  | version
  | report (r : Report)
  deriving Repr, Inhabited

/-- Why the program ends without a report. -/
inductive ProgramFault where
  | loadSettings (reason : String)
  | parseSettings (reason : String)
  | metrics (fault : MetricsFault)
  | settings (fault : SettingsFault)
  | client (error : ApiError)
  | runtime (reason : String)
  | run (fault : RunFault)
  deriving DecidableEq, Repr, Inhabited

/-- What is told of the fault. -/
def ProgramFault.message : ProgramFault → String
  | loadSettings reason => "could not load config from file: " ++ reason
  | parseSettings reason => "could not parse config: " ++ reason
  | metrics fault => "could not initialise metrics: " ++ fault.message
  | settings fault => "invalid api config: " ++ fault.message
  | client error => "could not build API client: " ++ error.message
  | runtime reason => "could not start runtime: " ++ reason
  | run fault => fault.message

/-- How the program ends. -/
structure Ending where
  exitCode : Nat
  output : Output := .nothing
  fault : Option ProgramFault := none
  deriving Repr, Inhabited

namespace Ending

/-- The exit code of a program that breaks off. -/
def brokenOff : Ending := { exitCode := 101 }

/-- The ending with a fault. -/
def failed (fault : ProgramFault) : Ending := { exitCode := 1, fault := some fault }

/-- The ending with a report: a failure if it holds an error. -/
def reported (r : Report) : Ending :=
  { exitCode := if r.hasError then 1 else 0, output := .report r }

/-- The ending with a command line that is not carried out. -/
def refused : CommandLine.Fault → Ending
  | .displayHelp => { exitCode := 0, output := .help }
  | .displayVersion => { exitCode := 0, output := .version }
  | _ => { exitCode := 2 }

/-- The line that tells of the fault. -/
def faultLine (e : Ending) : Option String := e.fault.map fun f => "ecfilter: " ++ f.message

end Ending

namespace Program

/-- The name and the version. -/
def versionLine : String := "ecfilter 0.1.0"

/-- The settings of a file. -/
def loadSettings (files : Files) (path : String) : Except ProgramFault Settings :=
  ((files.fileAt path).document files.settings).mapError fun
    | .unopened reason => .loadSettings reason
    | .unparsed reason => .parseSettings reason

/-- What is set up before the command is carried out. -/
def prepare (services : Services) (settings : Settings) : Except ProgramFault Unit := do
  if let some m := settings.metrics then
    (services.metrics m).mapError .metrics
  settings.api.validate.mapError .settings
  (services.connections settings.api).mapError .client
  services.runtime.mapError .runtime

/-- Carries out a command under settings that are in place. -/
def execute (files : Files) (settings : Settings) (command : Command) :
    HttpM (Except RunFault Report) :=
  match command.run files with
  | .error fault => return .error fault
  | .ok operation => do
    let report ← settings.api.client.carryOut operation
    return .ok report

/-- How the program ends once the command is carried out. -/
def conclude (services : Services) : Except RunFault Report → Ending
  | .error fault => .failed (.run fault)
  | .ok report =>
    match services.encoding report with
    | .error reason => .failed (.run (.encodeReport reason))
    | .ok _ => .reported report

/-- The whole program. -/
def run (env : Environment) : HttpM Ending :=
  match CommandLine.parse env.args with
  | .error fault => return .refused fault
  | .ok invocation =>
    match loadSettings env.files invocation.config with
    | .error fault => return .failed fault
    | .ok settings =>
      let settings := settings.withApiKey env.apiKey
      if !env.services.logging settings.logging then return .brokenOff
      else
        match prepare env.services settings with
        | .error fault => return .failed fault
        | .ok _ => do
          let report ← execute env.files settings invocation.command
          return conclude env.services report

end Program

end TrafficGate
