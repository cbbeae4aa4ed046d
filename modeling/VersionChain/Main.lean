import VersionChain.CommandLine.Places
import VersionChain.Files.Snapshot

/-!
# The program

Reads the arguments, the environment and the files that the command depends on, and prints what the run leaves behind.
-/

namespace VersionChain.Outside

open Files (Fault Kind Entry Observation Snapshot)

/-- The cause of an error of the operating system. -/
def faultOf (e : IO.Error) : Fault :=
  match e with
  | .noFileOrDirectory .. => .noSuchFile
  | .permissionDenied .. => .permissionDenied
  | .inappropriateType .. => .notADirectory
  | e => .described (toString e)

/-- The result of an action, or the cause of its error. -/
def caught {α : Type} (action : IO α) : IO (Except Fault α) := do
  match ← action.toBaseIO with
  | .ok a => return .ok a
  | .error e => return .error (faultOf e)

/-- What a type of file is called here. -/
def kindOf : IO.FS.FileType → Kind
  | .dir => .directory
  | .file => .file
  | .symlink => .link
  | .other => .other

/-- Looks at the entries of a directory. -/
def entriesOf (p : Files.Path) : IO (Except Fault (List (Except Fault Entry))) := do
  match ← caught (System.mkFilePath [p.text]).readDir with
  | .error fault => return .error fault
  | .ok entries =>
    let entries ← entries.toList.mapM fun e => do
      let kind ← caught e.path.symlinkMetadata
      return Except.ok ⟨e.fileName, kind.map fun m => kindOf m.type⟩
    return .ok entries

/-- Looks at a path. -/
def observe (p : Files.Path) : IO Observation := do
  let kind := (← caught (System.mkFilePath [p.text]).metadata).toOption.map fun m => kindOf m.type
  let content ←
    if kind == some .file then caught (IO.FS.readBinFile (System.mkFilePath [p.text])) else pure (.error .isADirectory)
  return { kind, entries := ← entriesOf p, content }

/-- Looks at everything that a command depends on. What is found at one place leads to others, three times. -/
def look (i : Invocation) (around : Surroundings) : IO Snapshot := do
  let mut snapshot : Snapshot := []
  for _ in [0:3] do
    for place in i.places around snapshot.system do
      if (snapshot.lookup place).isNone then
        snapshot := snapshot ++ [(place, ← observe place)]
  return snapshot

/-- The variables that the program knows. -/
def environment : IO Environment :=
  let names := ["NO_COLOR", "CLICOLOR", "CLICOLOR_FORCE", "TERM", "CI", Advice.cacheVariable, "XDG_CACHE_HOME", "HOME"]
  names.filterMapM fun name => do return (← IO.getEnv name).map fun value => (name, value)

/-- The home directory of the user's account. -/
def accountHome : IO (Option Files.Path) := do
  let status ← caught (IO.FS.readFile "/proc/self/status")
  let accounts ← caught (IO.FS.readFile "/etc/passwd")
  return do Account.home? (← accounts.toOption) (← Account.user? (← status.toOption))

/-- Looks at what there is around the program. -/
def surroundings : IO Surroundings := do
  return {
    environment := ← environment
    showsOutput := ← (← IO.getStdout).isTty
    showsErrors := ← (← IO.getStderr).isTty
    accountHome := ← accountHome }

end VersionChain.Outside

open VersionChain in
/-- Runs the program on its arguments. -/
def main (arguments : List String) : IO UInt32 := do
  let around ← Outside.surroundings
  let files ← match Invocation.ofArguments arguments around.environment with
    | .ok i => Outside.look i around
    | .error _ => pure []
  let completion := runProgram arguments around files.system
  (← IO.getStdout).putStr completion.output
  (← IO.getStderr).putStr completion.errors
  return completion.exitCode.toUInt32
