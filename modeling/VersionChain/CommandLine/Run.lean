import VersionChain.CommandLine.Arguments
import VersionChain.CommandLine.LogLine
import VersionChain.CommandLine.Report
import VersionChain.Configuration

/-!
# Running a command

What the program does with its arguments: it reads the configuration, resolves the request or lists the versions, and prints a
report, or the words for the error that keeps it from doing so.
-/

namespace VersionChain

/-- What a run of the program leaves behind. -/
structure Completion where
  exitCode : Nat
  output : String := ""
  errors : String := ""
deriving DecidableEq

namespace Completion

/-- Lines, each with its end. -/
def ofLines (lines : List String) : String := String.join (lines.map (· ++ "\n"))

/-- The completion of a command with the given result, where `told` is what is shown of the log. -/
def ofResult (result : Except String (List String)) (told : String) : Completion :=
  match result with
  | .ok lines => { exitCode := 0, output := ofLines lines, errors := told }
  | .error message => { exitCode := 1, errors := told ++ "Error: " ++ message ++ "\n" }

end Completion

namespace Invocation

/-- The directory that relative paths of the configuration are relative to. -/
def base (i : Invocation) : Files.Path :=
  match i.configuration.parent? with
  | some parent => if parent.text.isEmpty then ⟨"."⟩ else parent
  | none => ⟨"."⟩

/-- The directory for caches. -/
def caches (i : Invocation) (around : Surroundings) : Files.Path := i.cacheRoot.getD around.cacheRoot

/-- Reads the configuration, or gives the words for what is wrong with it. -/
def load (i : Invocation) (fs : Files.System) : Except String Configuration :=
  if !fs.exists? i.configuration then .error (Advice.configurationNotFound i.configuration.text)
  else
    (Configuration.ofFile fs i.configuration).mapError fun e =>
      "Failed to load config from " ++ i.configuration.text ++ ": " ++ e.message

/-- The policy and the chain of repositories that the configuration describes. -/
def chain (i : Invocation) (around : Surroundings) (fs : Files.System) : Except String (Policy × List Repository) := do
  let c ← i.load fs
  let policy ← c.policy.mapError Error.message
  return (policy, c.chain fs i.base (i.caches around))

/-- The words for an error of a resolution; where nothing was found they come with advice. -/
def unresolved (e : Error) : String :=
  match e with
  | .notFound .. => Advice.versionNotFound e.message
  | _ => e.message

/-- Resolves a request. -/
def resolve (i : Invocation) (around : Surroundings) (fs : Files.System) (p : Palette) (coordinate : String)
    (json : Bool) : Except String (List String) × Log :=
  match Request.ofText coordinate with
  | .error _ => (.error (Advice.invalidCoordinate coordinate "group:name:selector"), [])
  | .ok request =>
    match i.chain around fs with
    | .error message => (.error message, [])
    | .ok (policy, repositories) =>
      let run := Resolver.resolve policy .inOrder 0 (repositories.map fun r => { repository := r }) request
      match run.result with
      | .error e => (.error (unresolved e), run.log)
      | .ok resolution =>
        let report : ResolutionReport := ⟨request, resolution⟩
        (.ok (if json then [report.json.written 0] else report.lines p), run.log)

/-- Lists the versions of a module in every repository. -/
def versions (i : Invocation) (around : Surroundings) (fs : Files.System) (p : Palette) (coordinate : String) :
    Except String (List String) × Log :=
  match Module.ofText coordinate with
  | .error _ => (.error (Advice.invalidCoordinate coordinate "group:name"), [])
  | .ok module =>
    match i.chain around fs with
    | .error message => (.error message, [])
    | .ok (_, repositories) =>
      let reports := repositories.map (ListingReport.ofRepository module)
      (.ok (reports.flatMap fun (report, _) => report.lines p), reports.flatMap Prod.snd)

/-- Does what an invocation asks for. -/
def run (i : Invocation) (around : Surroundings) (fs : Files.System) : Completion :=
  match Verbosity.ofText? i.logLevel with
  | none =>
    .ofResult (.error ("Invalid log level '" ++ i.logLevel ++ "': expected error, warn, info, debug or trace")) ""
  | some verbosity =>
    let p := Palette.choose i.color around.environment around.showsOutput
    let (result, log) := match i.command with
      | .resolve coordinate json => i.resolve around fs p coordinate json
      | .versions coordinate => i.versions around fs p coordinate
    let told := (log.shown verbosity).map (·.line (Palette.ofLog around.environment around.showsErrors))
    .ofResult result (String.join told)

end Invocation

/-- How the program is used. -/
def usage : String :=
  Completion.ofLines ["Usage: dynamic-resolve [OPTIONS] <COMMAND>", "", "Commands:",
    "  resolve <GROUP:NAME:SELECTOR>  Resolve a dynamic version selector to one concrete version",
    "  versions <GROUP:NAME>          List the versions each configured repository knows for a module",
    "  help                           Print this message", "", "Options:",
    "      --color <WHEN>       Colorize output (always, never, auto)",
    "      --log-level <LEVEL>  Set log level (error, warn, info, debug, trace)",
    "  -c, --config <FILE>      Path to the configuration file (after a command)",
    "      --cache-root <DIR>   The root directory for repository caches (after a command)",
    "      --json               Print the result as JSON (after resolve)",
    "  -h, --help               Print help",
    "  -V, --version            Print version"]

/-- The completion of a command line that is no command. -/
def Stop.completion : Stop → Completion
  | misuse => { exitCode := 2, errors := usage }
  | help => { exitCode := 0, output := usage }
  | version => { exitCode := 0, output := "dynamic-resolve 0.1.0\n" }

/-- Runs the program. -/
def runProgram (arguments : List String) (around : Surroundings) (fs : Files.System) : Completion :=
  match Invocation.ofArguments arguments around.environment with
  | .error stop => stop.completion
  | .ok i => i.run around fs

end VersionChain
