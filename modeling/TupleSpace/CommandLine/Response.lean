import TupleSpace.Bench.Report
import TupleSpace.CommandLine
import TupleSpace.Config.Document
import TupleSpace.World.Closing

/-!
# Answers on the command line

What the program prints for its arguments, and the code with which it ends: zero if it has done its
work, two if the arguments make no sense, and one if the work failed, for a reason in one line.
Nothing here writes a file.
-/

namespace TupleSpace

/-- What the program prints, and the code with which it ends. -/
structure Response where
  code : Nat := 0
  /-- The lines of the output, when the work took a span of time. -/
  output : Nat → List String := fun _ => []
  errors : List String := []

namespace Response

/-- The end of work that failed. -/
def failure (reason : String) : Response := { code := 1, errors := ["Error: " ++ reason] }

/-- How the program is called. -/
def usageLines : List String :=
  ["usage: tspace [--config FILE] [--verbose] COMMAND",
    "commands:",
    "  bench [--engine tspace|gspace] [--producers N] [--consumers N] [--keys N] [--messages N]",
    "  dump SNAPSHOT"]

/-- The name and the version of the program. -/
def versionLine : String := "tspace 0.3.0"

/-- The answer to arguments that lead to no invocation. -/
def ofNoInvocation : NoInvocation → Response
  | .usage => { code := 2, errors := usageLines }
  | .help => { output := fun _ => usageLines }
  | .version => { output := fun _ => [versionLine] }

/-- The configuration at a path; the defaults if nothing is there. -/
def loadConfig (files : Files) (path : String) : Except ConfigError DirectoryConfig :=
  if files.exists? path then DirectoryConfig.load files path else .ok {}

/-- Runs a benchmark. -/
def ofBench (config : DirectoryConfig) (b : Bench) : Response :=
  if !b.isPossible then failure "producers, consumers and keys must all be at least 1"
  else
    match BenchReport.ofRun b config with
    | .error e => failure e.message
    | .ok report => { output := report.lines }

/-- The last line of the listing of a snapshot. -/
def loadLine (report : LoadReport) : String :=
  "restored " ++ toString report.restored ++ " values, skipped " ++ toString report.skipped ++
    " expired"

/-- Lists the contents of a snapshot, without sweeping them. -/
def ofDump (config : DirectoryConfig) (files : Files) (wall : Moment) (path : String) : Response :=
  if !files.isFile path then failure ("snapshot not found: " ++ path)
  else
    let world : World := { epoch := wall, files }
    match world.openPersistent "snapshot" path { config.defaults with sweeper := false } with
    | .error _ => failure ("failed to open " ++ path)
    | .ok space =>
      let report := (space.storage.map Storage.loaded).getD {}
      let lines := space.dumpLines world.now "" ++ [loadLine report]
      { output := fun _ => lines }

/-- The answer to an invocation. -/
def ofInvocation (i : Invocation) (files : Files) (wall : Moment) : Response :=
  match loadConfig files i.config with
  | .error _ => failure ("failed to load config from " ++ i.config)
  | .ok config =>
    match i.command with
    | .bench b => ofBench config b
    | .dump path => ofDump config files wall path

/-- The answer to the arguments of the program. -/
def ofArguments (args : List String) (files : Files) (wall : Moment) : Response :=
  match CommandLine.parse args with
  | .error e => ofNoInvocation e
  | .ok i => ofInvocation i files wall

/-- The paths of the files that an invocation looks at. -/
def pathsOf (args : List String) : List String :=
  match CommandLine.parse args with
  | .error _ => []
  | .ok i =>
    match i.command with
    | .bench _ => [i.config]
    | .dump path => [i.config, path]

end Response

end TupleSpace
